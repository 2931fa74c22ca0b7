import PaperTrade.Worker.Rejection

/-!
# The traded quantity

What one message and one TP/SL pass do to the ledger of a position: a position that goes leaves a
trade row under its id, and what is traded of an open position is at most what was open. The pass
runs outside a transaction, so every close it makes is durable by itself; when a close raises after
its first statement the transaction that `sqlite3` opened stays open, and the next
`db.transaction()` fails on `BEGIN` and rolls it back.
-/

namespace PaperTrade.Worker

open PaperTrade.Runtime

/-- The quantity traded of a position. -/
def traded (s : Tables) (id : String) : ℚ :=
  total TradeRow.qty (s.trades.rows.filter fun t => t.positionId = id)

/-- The position is open with a positive quantity. -/
def OpenQty (s : Tables) (id : String) (o : ℚ) : Prop :=
  ∃ pos, s.positions.find? id = some pos ∧ pos.qty = some (.fin o) ∧ 0 < o

lemma traded_append {s s' : Tables} {t : TradeRow} (h : s'.trades.rows = s.trades.rows ++ [t])
    (id : String) :
    traded s' id = traded s id + if t.positionId = id then amount t.qty else 0 := by
  simp only [traded, h, List.filter_append, total, List.map_append, List.sum_append]
  by_cases hid : t.positionId = id <;> simp [hid]

lemma traded_congr {s s' : Tables} (h : s'.trades = s.trades) (id : String) :
    traded s' id = traded s id := by
  rw [traded, h, traded]

lemma closingTrade_qty {pos : PositionRow} {exit : Option PyFloat} {q : PyFloat}
    {reason closedAt tradeId : String} {metadata : Text} {t : TradeRow}
    (h : closingTrade pos exit q reason closedAt metadata tradeId = .ok t) : t.qty = real q := by
  simp only [closingTrade] at h
  obtain ⟨_, -, h⟩ := bind_eq_ok h
  obtain ⟨_, -, h⟩ := bind_eq_ok h
  obtain ⟨_, -, h⟩ := bind_eq_ok h
  obtain ⟨_, -, h⟩ := bind_eq_ok h
  obtain ⟨_, -, h⟩ := bind_eq_ok h
  cases h
  rfl

/-! ## Nothing disappears without a trace -/

/-- Trade rows stay, a position that goes leaves one under its id, and one that is not open is not
traded. -/
structure Traces (s s' : Tables) : Prop where
  trades : ∀ t ∈ s.trades.rows, t ∈ s'.trades.rows
  lost : ∀ id, s.positions.contains id = true → s'.positions.contains id = false →
    ∃ t ∈ s'.trades.rows, t.tradeId = id ∧ t.positionId = id
  closed : ∀ id, s.positions.contains id = false → traded s' id = traded s id

lemma Traces.of_trades {s s' : Tables} (htrades : s'.trades = s.trades)
    (hpos : ∀ id, s.positions.contains id = true → s'.positions.contains id = true) :
    Traces s s' := by
  refine ⟨fun t ht => htrades ▸ ht, fun id h h' => ?_, fun id _ => traded_congr htrades id⟩
  rw [hpos id h] at h'
  cases h'

lemma Traces.refl (s : Tables) : Traces s s := .of_trades rfl fun _ => id

lemma Traces.trans {s₁ s₂ s₃ : Tables} (h₁ : Traces s₁ s₂) (h₂ : Traces s₂ s₃)
    (hopen : ∀ id, s₁.positions.contains id = false → s₂.positions.contains id = false) :
    Traces s₁ s₃ := by
  refine ⟨fun t ht => h₂.trades t (h₁.trades t ht), fun id h h' => ?_, fun id h => ?_⟩
  · cases hmid : s₂.positions.contains id with
    | true => exact h₂.lost id hmid h'
    | false =>
      obtain ⟨t, ht, hids⟩ := h₁.lost id h hmid
      exact ⟨t, h₂.trades t ht, hids⟩
  · exact (h₂.closed id (hopen id h)).trans (h₁.closed id h)

lemma contains_of_find? {s : Tables} {id : String} {pos : PositionRow}
    (h : s.positions.find? id = some pos) : s.positions.contains id = true :=
  (s.positions.contains_iff id).mpr ⟨pos, ((s.positions.find?_some_iff _ _).mp h)⟩

lemma contains_reduce (s : Tables) (positionId : String) (qty : PyFloat) (metadata : Text)
    (id : String) : (s.reduce positionId qty metadata).positions.contains id =
      s.positions.contains id := by
  rw [Bool.eq_iff_iff, Table.contains_iff, Table.contains_iff]
  constructor
  · rintro ⟨p, hp, hid⟩
    rcases mem_reduce.mp hp with ⟨hp, -⟩ | ⟨r, hr, -, rfl⟩
    · exact ⟨p, hp, hid⟩
    · exact ⟨r, hr, hid⟩
  · rintro ⟨p, hp, hid⟩
    by_cases h : p.positionId = positionId
    · exact ⟨p.reduced qty metadata, mem_reduce.mpr (.inr ⟨p, hp, h, rfl⟩), hid⟩
    · exact ⟨p, mem_reduce.mpr (.inl ⟨hp, h⟩), hid⟩

lemma Settles.ids {s : Tables} {a : CloseArgs} {pos : PositionRow} {q o : PyFloat}
    {trade : TradeRow} (h : Settles s a pos q o trade) : trade.positionId = a.positionId :=
  (closingTrade_ids h.row).2.trans ((s.positions.find?_some_iff _ _).mp h.found).2

lemma ClosePosition.traces {s s' : Tables} {a : CloseArgs} {r : Except PyError Unit}
    (h : ClosePosition s a r s') : Traces s s' := by
  -- the new trade row is one of an open position
  have hwritten : ∀ {pos q o trade} {trades : Table TradeRow.tradeId} {u : Tables},
      Settles s a pos q o trade → trades.rows = s.trades.rows ++ [trade] → u.trades = trades →
      (∀ t ∈ s.trades.rows, t ∈ u.trades.rows) ∧
        ∀ id, s.positions.contains id = false → traded u id = traded s id := by
    intro pos q o trade trades u hset htrades hu
    subst hu
    refine ⟨fun t ht => by rw [htrades]; exact List.mem_append_left _ ht, fun id hid => ?_⟩
    rw [traded_append htrades, if_neg, add_zero]
    rintro rfl
    rw [hset.ids, contains_of_find? hset.found] at hid
    cases hid
  cases h with
  | missing _ => exact .refl s
  | unpriced _ _ => exact .refl s
  | nothing _ _ _ => exact .refl s
  | unsettled _ _ _ _ _ => exact .refl s
  | taken _ _ => exact .refl s
  | @full pos q o trade hset hdust trades hnew htrades =>
    obtain ⟨hkeep, hclosed⟩ := hwritten (u := { s with
      trades := trades, positions := s.positions.erase a.positionId }) hset htrades rfl
    refine ⟨hkeep, fun id h h' => ?_, hclosed⟩
    have hid : id = a.positionId := by
      by_contra hne
      obtain ⟨p, hp, hpid⟩ := (s.positions.contains_iff id).mp h
      exact (Table.not_contains_iff _ id).mp h' p
        ((s.positions.mem_erase _ _).mpr ⟨hp, hpid.symm ▸ hne⟩) hpid
    refine ⟨trade, by simp [htrades], ?_, hset.ids.trans hid.symm⟩
    rw [(closingTrade_ids hset.row).1, if_pos hdust, hid,
      ((s.positions.find?_some_iff _ _).mp hset.found).2]
  | @stuck pos q o trade e hset hdust trades hnew htrades hmerge =>
    obtain ⟨hkeep, hclosed⟩ := hwritten (u := { s with trades := trades }) hset htrades rfl
    refine ⟨hkeep, fun id h h' => ?_, hclosed⟩
    rw [show Table.contains s.positions id = true from h] at h'
    cases h'
  | @partly pos q o trade merged hset hdust trades hnew htrades hmerge =>
    obtain ⟨hkeep, hclosed⟩ := hwritten
      (u := ({ s with trades := trades } : Tables).reduce a.positionId ((o - q).max 0) merged)
      hset htrades rfl
    refine ⟨hkeep, fun id h h' => ?_, hclosed⟩
    rw [contains_reduce] at h'
    rw [show Table.contains s.positions id = true from h] at h'
    cases h'

lemma contains_modified (s : Tables) (signal : ModifySignal) (merged : Option Text) (id : String)
    (h : s.positions.contains id = true) :
    (s.modified signal merged).positions.contains id = true := by
  obtain ⟨p, hp, hid⟩ := (s.positions.contains_iff id).mp h
  by_cases hkey : p.positionId = signal.positionId
  · exact (Table.contains_iff _ id).mpr ⟨p.updated signal.tp signal.sl merged,
      (mem_modified s signal).mpr (.inr ⟨p, hp, hkey, rfl⟩), hid⟩
  · exact (Table.contains_iff _ id).mpr ⟨p, (mem_modified s signal).mpr (.inl ⟨hp, hkey⟩), hid⟩

lemma Handle.traces {ex : Executor} {env : Env} {s s' : Tables} {signal : Signal}
    {fill : Option FillPrice} {r : Except PyError Outcome}
    (h : Handle ex env s signal fill r s') : Traces s s' := by
  cases signal with
  | «open» signal =>
    cases h with
    | blocked _ => exact .of_trades rfl fun _ => id
    | leverage _ _ => exact .of_trades rfl fun _ => id
    | taken _ _ _ => exact .of_trades rfl fun _ => id
    | opened _ _ _ hrows =>
      refine .of_trades rfl fun id h => ?_
      rw [Table.contains_of_append hrows, h, Bool.true_or]
  | modify signal =>
    cases h with
    | missing _ => exact .refl s
    | stop _ _ => exact .refl s
    | unmerged _ _ _ => exact .refl s
    | modified _ _ _ => exact .of_trades rfl (contains_modified s signal _)
  | close signal =>
    cases h with
    | missing _ => exact .refl s
    | refused _ _ => exact .refl s
    | unfilled _ _ _ => exact .refl s
    | failed _ _ _ hclose => exact hclose.traces
    | closed _ _ _ _ hclose => exact hclose.traces
  | registerColumns signal =>
    have hcols : ∀ {i columns s₀ r'}, InsertColumns signal.alphaId i columns s₀ r' s' →
        s₀.positions = s.positions → s₀.trades = s.trades → Traces s s' := by
      intro i columns s₀ r' hins hpos htrades
      obtain ⟨hp, ht⟩ := hins.sameLedger
      exact .of_trades (ht.trans htrades) fun id h => by rwa [hp, hpos]
    cases h with
    | invalid _ => exact .refl s
    | notArray _ _ => exact .refl s
    | failed _ hins => exact hcols hins rfl rfl
    | registered _ hins => exact hcols hins rfl rfl

lemma Traces.congr {s s₀ s' s₁ : Tables} (h : Traces s₀ s₁) (hpos : s₀.positions = s.positions)
    (htrades : s₀.trades = s.trades) (hpos' : s'.positions = s₁.positions)
    (htrades' : s'.trades = s₁.trades) : Traces s s' := by
  refine ⟨fun t ht => ?_, fun id hin hout => ?_, fun id hout => ?_⟩
  · rw [htrades']
    exact h.trades t (htrades ▸ ht)
  · rw [htrades']
    exact h.lost id (hpos ▸ hin) (hpos' ▸ hout)
  · rw [traded_congr htrades', h.closed id (hpos ▸ hout), traded_congr htrades]

/-- What one message does to the positions and the trades. -/
theorem deliver_traces (ex : Executor) (m : Delivery) (s : Tables) :
    Traces s (deliver ex s m) := by
  have hd := deliver_cases ex m s
  generalize deliver ex s m = s', reply ex s m = r at hd
  cases hd with
  | duplicate _ => exact .refl s
  | unparsable _ _ => exact .of_trades rfl fun _ => id
  | rejected _ _ h => exact h.traces.congr rfl rfl rfl rfl
  | accepted _ _ h => exact h.traces.congr rfl rfl rfl rfl

/-! ## No more is traded than was open -/

/-- The position is still open, and what is traded of it and what is left of it are no more than
before; or it is gone, and no more than was open has been traded. -/
def Bounded (s s' : Tables) (id : String) (o : ℚ) : Prop :=
  (∃ o', OpenQty s' id o' ∧ traded s' id + o' ≤ traded s id + o) ∨
    (s'.positions.contains id = false ∧ traded s' id ≤ traded s id + o)

lemma Bounded.of_same {s s' : Tables} {id : String} {o : ℚ} (hopen : OpenQty s id o)
    (hfind : s'.positions.find? id = s.positions.find? id) (htraded : traded s' id = traded s id) :
    Bounded s s' id o := by
  refine .inl ⟨o, ?_, by rw [htraded]⟩
  unfold OpenQty
  rw [hfind]
  exact hopen

/-- A close of another position leaves this one as it is. -/
lemma ClosePosition.other {s s' : Tables} {a : CloseArgs} {r : Except PyError Unit}
    (h : ClosePosition s a r s') {id : String} (hid : a.positionId ≠ id) :
    s'.positions.find? id = s.positions.find? id ∧ traded s' id = traded s id := by
  have htraded : ∀ {pos q o trade} {trades : Table TradeRow.tradeId} {u : Tables},
      Settles s a pos q o trade → trades.rows = s.trades.rows ++ [trade] → u.trades = trades →
      traded u id = traded s id := by
    intro pos q o trade trades u hset htrades hu
    subst hu
    rw [traded_append htrades, if_neg (hset.ids.symm ▸ hid), add_zero]
  cases h with
  | missing _ => exact ⟨rfl, rfl⟩
  | unpriced _ _ => exact ⟨rfl, rfl⟩
  | nothing _ _ _ => exact ⟨rfl, rfl⟩
  | unsettled _ _ _ _ _ => exact ⟨rfl, rfl⟩
  | taken _ _ => exact ⟨rfl, rfl⟩
  | full hset hdust hnew htrades =>
    exact ⟨by rw [Table.find?_erase, if_neg hid.symm], htraded hset htrades rfl⟩
  | stuck hset hdust hnew htrades hmerge => exact ⟨rfl, htraded hset htrades rfl⟩
  | partly hset hdust hnew htrades hmerge =>
    exact ⟨by rw [Tables.reduce, Table.find?_modify, if_neg hid.symm], htraded hset htrades rfl⟩

/-- A close of `c` at most of a quantity `o` closes `min c o`. -/
lemma Settles.amounts {s : Tables} {a : CloseArgs} {pos : PositionRow} {q p : PyFloat}
    {trade : TradeRow} {o : ℚ} (h : Settles s a pos q p trade) (hopen : OpenQty s a.positionId o)
    (hfin : a.qty = none ∨ ∃ c : ℚ, a.qty = some (.fin c)) :
    p = .fin o ∧ ∃ c : ℚ, q = .fin c ∧ 0 < c ∧ c ≤ o ∧ amount trade.qty = c ∧
      (a.qty = none → c = o) := by
  obtain ⟨pos', hfind, hqty, -⟩ := hopen
  rw [h.found] at hfind
  cases hfind
  have hp := h.openQty
  rw [hqty] at hp
  cases hp
  have hq := h.quantity
  have hpos := h.positive
  have htrade := closingTrade_qty h.row
  refine ⟨rfl, ?_⟩
  rcases hfin with hnone | ⟨c, hc⟩
  · simp only [closeQuantity, hnone, hqty, need, Except.ok.injEq] at hq
    subst hq
    exact ⟨o, rfl, by simpa using hpos, le_rfl, by simp [htrade, amount], fun _ => rfl⟩
  · simp only [closeQuantity, hc, hqty, need, Except.map, Except.ok.injEq, PyFloat.min_fin] at hq
    subst hq
    refine ⟨min c o, rfl, by simpa using hpos, min_le_right _ _, by simp [htrade, amount], ?_⟩
    intro hnone
    rw [hc] at hnone
    cases hnone

/-- A close of this position takes no more than was open, unless it stops half-way at the merge of
the metadata. -/
lemma ClosePosition.bounded {s s' : Tables} {a : CloseArgs} {r : Except PyError Unit}
    (h : ClosePosition s a r s') {o : ℚ} (hopen : OpenQty s a.positionId o)
    (hfin : a.qty = none ∨ ∃ c : ℚ, a.qty = some (.fin c))
    (hmerge : ∀ pos, s.positions.find? a.positionId = some pos →
      ∃ m, mergePositionRuntimeMetadata pos.metadata a.closeMetadata = .ok m) :
    Bounded s s' a.positionId o := by
  cases h with
  | missing _ => exact .of_same hopen rfl rfl
  | unpriced _ _ => exact .of_same hopen rfl rfl
  | nothing _ _ _ => exact .of_same hopen rfl rfl
  | unsettled _ _ _ _ _ => exact .of_same hopen rfl rfl
  | taken _ _ => exact .of_same hopen rfl rfl
  | full hset hdust hnew htrades =>
    obtain ⟨-, c, -, -, hle, hamount, -⟩ := hset.amounts hopen hfin
    refine .inr ⟨?_, ?_⟩
    · exact (Table.not_contains_iff _ _).mpr fun p hp => ((s.positions.mem_erase _ _).mp hp).2
    · rw [traded_append htrades, if_pos hset.ids, hamount]
      linarith
  | stuck hset hdust hnew htrades hfail =>
    obtain ⟨m, hm⟩ := hmerge _ hset.found
    rw [hm] at hfail
    cases hfail
  | @partly pos q p trade merged hset hdust trades hnew htrades hmerged =>
    obtain ⟨rfl, c, rfl, -, hle, hamount, -⟩ := hset.amounts hopen hfin
    have hmax : (PyFloat.fin o - .fin c).max 0 = .fin (o - c) := by simp [sub_nonneg.mpr hle]
    rw [hmax] at hdust ⊢
    have hrest : 0 < o - c := by
      simp only [dust, PyFloat.fin_le_fin, not_le] at hdust
      linarith
    refine .inl ⟨o - c, ⟨pos.reduced (.fin (o - c)) merged, ?_, rfl, hrest⟩, ?_⟩
    · exact find?_reduce (s := { s with trades := trades }) _ _ hset.found
    · have htraded : traded (({ s with trades := trades } : Tables).reduce a.positionId
          (.fin (o - c)) merged) a.positionId = _ := traded_append htrades a.positionId
      rw [htraded, if_pos hset.ids, hamount]
      linarith

/-- A CLOSE of the position does not stop at the merge of its metadata. -/
def Merges (s : Tables) (data : RawSignal) (id : String) : Prop :=
  ∀ signal pos exit execution, parseSignal data = .ok (.close signal) → signal.positionId = id →
    s.positions.find? id = some pos →
    ∃ m, mergePositionRuntimeMetadata pos.metadata
      (Executor.closeMetadata signal pos exit execution) = .ok m

lemma Bounded.congr {s s₀ s' s₁ : Tables} {id : String} {o : ℚ} (h : Bounded s₀ s₁ id o)
    (htrades : s₀.trades = s.trades) (hpos' : s'.positions = s₁.positions)
    (htrades' : s'.trades = s₁.trades) : Bounded s s' id o := by
  unfold Bounded OpenQty at h ⊢
  rw [traded_congr htrades', hpos', ← traded_congr htrades]
  exact h

lemma find?_of_append {s : Tables} {positions : Table PositionRow.positionId} {row : PositionRow}
    (hrows : positions.rows = s.positions.rows ++ [row]) {id : String} {pos : PositionRow}
    (hfind : s.positions.find? id = some pos) : positions.find? id = some pos := by
  obtain ⟨hmem, hid⟩ := (s.positions.find?_some_iff _ _).mp hfind
  exact (positions.find?_some_iff _ _).mpr ⟨by rw [hrows]; exact List.mem_append_left _ hmem, hid⟩

lemma Handle.bounded {ex : Executor} {env : Env} {data : RawSignal} {s s' : Tables}
    {signal : Signal} {fill : Option FillPrice} {r : Except PyError Outcome}
    (hparse : parseSignal data = .ok signal) (h : Handle ex env s signal fill r s') {id : String}
    {o : ℚ} (hopen : OpenQty s id o) (hmerges : Merges s data id) : Bounded s s' id o := by
  cases signal with
  | «open» signal =>
    cases h with
    | blocked _ => exact .of_same hopen rfl rfl
    | leverage _ _ => exact .of_same hopen rfl rfl
    | taken _ _ _ => exact .of_same hopen rfl rfl
    | opened _ _ _ hrows =>
      have hfound := hopen
      obtain ⟨pos, hfind, -⟩ := hfound
      exact .of_same hopen ((find?_of_append hrows hfind).trans hfind.symm) rfl
  | modify signal =>
    cases h with
    | missing _ => exact .of_same hopen rfl rfl
    | stop _ _ => exact .of_same hopen rfl rfl
    | unmerged _ _ _ => exact .of_same hopen rfl rfl
    | @modified _ merged _ _ _ =>
      obtain ⟨pos, hfind, hqty, hpos⟩ := hopen
      refine .inl ⟨o, ?_, le_rfl⟩
      unfold OpenQty
      rw [Tables.modified, Table.find?_modify]
      split
      · rename_i hid
        rw [← hid, hfind]
        exact ⟨_, rfl, hqty, hpos⟩
      · exact ⟨pos, hfind, hqty, hpos⟩
  | close signal =>
    have hclose : ∀ {pos q exit execution r'}, Executor.checkCloseQty signal pos = .ok q →
        s.positions.find? signal.positionId = some pos →
        ClosePosition s (closeArgs env signal pos exit execution q) r' s' → Bounded s s' id o := by
      intro pos q exit execution r' hcheck hfind hcl
      by_cases hid : signal.positionId = id
      · subst hid
        have hfound := hopen
        obtain ⟨pos', hfind', hqty', -⟩ := hfound
        rw [hfind] at hfind'
        cases hfind'
        obtain ⟨hq, -, -⟩ := checkCloseQty_ok signal hcheck
        refine hcl.bounded hopen (.inr ?_) fun pos' hpos' => ?_
        · rcases CloseSignal.qty_finite hparse with hnone | ⟨c, hc⟩
          · rw [hnone, Option.none_or, hqty'] at hq
            exact ⟨o, hq.symm⟩
          · rw [hc, Option.some_or] at hq
            exact ⟨c, hq.symm⟩
        · rw [show s.positions.find? signal.positionId = some pos' from hpos'] at hfind
          cases hfind
          exact hmerges signal pos exit execution hparse rfl hpos'
      · obtain ⟨hfind', htraded⟩ := hcl.other hid
        exact .of_same hopen hfind' htraded
    cases h with
    | missing _ => exact .of_same hopen rfl rfl
    | refused _ _ => exact .of_same hopen rfl rfl
    | unfilled _ _ _ => exact .of_same hopen rfl rfl
    | failed hfind hcheck _ hcl => exact hclose hcheck hfind hcl
    | closed hfind hcheck _ _ hcl => exact hclose hcheck hfind hcl
  | registerColumns signal =>
    have hcols : ∀ {i columns s₀ r'}, InsertColumns signal.alphaId i columns s₀ r' s' →
        s₀.positions = s.positions → s₀.trades = s.trades → Bounded s s' id o := by
      intro i columns s₀ r' hins hpos htrades
      obtain ⟨hp, ht⟩ := hins.sameLedger
      exact .of_same hopen (by rw [hp, hpos]) (traded_congr (ht.trans htrades) id)
    cases h with
    | invalid _ => exact .of_same hopen rfl rfl
    | notArray _ _ => exact .of_same hopen rfl rfl
    | failed _ hins => exact hcols hins rfl rfl
    | registered _ hins => exact hcols hins rfl rfl

/-- What one message trades of an open position. -/
theorem deliver_bounded (ex : Executor) (m : Delivery) {s : Tables} {id : String} {o : ℚ}
    (hopen : OpenQty s id o) (hmerges : Merges s m.data id) :
    Bounded s (deliver ex s m) id o := by
  have hd := deliver_cases ex m s
  generalize deliver ex s m = s', reply ex s m = r at hd
  cases hd with
  | duplicate _ => exact .of_same hopen rfl rfl
  | unparsable _ _ => exact .of_same hopen rfl rfl
  | rejected _ hparse h => exact (h.bounded hparse hopen hmerges).congr rfl rfl rfl
  | accepted _ hparse h => exact (h.bounded hparse hopen hmerges).congr rfl rfl rfl

/-! ## The pass -/

/-- The connection in a transaction that a statement has opened. -/
def Conn.opened (c s : Tables) : Conn := ⟨c, s, true, 0⟩

lemma run_execute_idle (s : Tables) (stmt : Tables → Except PyError Tables) :
    (execute stmt).run (.idle s) = match stmt s with
      | .ok s' => (.ok (), .opened s s')
      | .error e => (.error e, .opened s s) := by
  cases h : stmt s <;> simp [execute, h, Except.map, Except.toOption, Conn.idle, Conn.opened,
    Coro.run]

lemma run_execute_opened (c s : Tables) (stmt : Tables → Except PyError Tables) :
    (execute stmt).run (.opened c s) = match stmt s with
      | .ok s' => (.ok (), .opened c s')
      | .error e => (.error e, .opened c s) := by
  cases h : stmt s <;> simp [execute, h, Except.map, Except.toOption, Conn.opened, Coro.run]

lemma run_commit_opened (c s : Tables) : commit.run (.opened c s) = (.ok (), .idle s) := rfl

/-- The connection after `close_position` outside a transaction: idle again, or, after an error,
with what was durable before and perhaps a transaction left open. -/
def Leaves (s s' : Tables) (r : Except PyError Unit) (c : Conn) : Prop :=
  match r with
  | .ok _ => c = .idle s'
  | .error _ => c = .idle s ∨ ∃ u, c = .opened s u

lemma closePosition_idle_run (s : Tables) (a : CloseArgs) :
    ∃ r s' c, (closePosition a.uuid a.positionId a.exitPrice a.reason a.closedAt a.closeMetadata
        a.qty).run (.idle s) = (r, c) ∧ ClosePosition s a r s' ∧ Leaves s s' r c := by
  simp only [closePosition, Coro.run_bind, run_getPosition, Conn.current_idle]
  cases hfind : s.positions.find? a.positionId with
  | none => exact ⟨_, _, _, rfl, .missing hfind, rfl⟩
  | some pos =>
  simp only [Coro.run_bind, Coro.run_ofExcept]
  cases hq : closeQuantity pos a.qty with
  | error e => exact ⟨_, _, _, rfl, .unpriced hfind hq, .inl rfl⟩
  | ok q =>
  by_cases hpos : q ≤ 0
  · simp only [if_pos hpos]
    exact ⟨_, _, _, rfl, .nothing hfind hq hpos, rfl⟩
  obtain ⟨o, ho⟩ := qty_of_closeQuantity hq
  simp only [Coro.run_bind, Coro.run_ofExcept, if_neg hpos, ho, need]
  cases hrow : closingTrade pos a.exitPrice q a.reason a.closedAt a.closeMetadata
      (if (o - q).max 0 ≤ dust then pos.positionId else a.uuid) with
  | error e => exact ⟨_, _, _, rfl, .unsettled hfind hq hpos ho hrow, .inl rfl⟩
  | ok trade =>
  simp only [run_execute_idle]
  have hsettles : Settles s a pos q o trade := ⟨hfind, hq, hpos, ho, hrow⟩
  cases hnew : s.trades.contains trade.tradeId with
  | true =>
    refine ⟨.error (.uniqueFailed "trades.trade_id"), s, .opened s s, ?_, .taken hsettles hnew,
      .inr ⟨s, rfl⟩⟩
    simp only [insertUnique_of_contains hnew, Except.map]
  | false =>
  obtain ⟨trades, hins, htrades⟩ :=
    exists_insertUnique "trades.trade_id" s.trades trade hnew
  simp only [hins, Except.map]
  by_cases hdust : (o - q).max 0 ≤ dust
  · refine ⟨_, _, _, ?_, .full hsettles hdust hnew htrades, rfl⟩
    simp only [if_pos hdust, Coro.run_bind, run_execute_opened, run_commit_opened]
  · simp only [if_neg hdust, Coro.run_bind, Coro.run_ofExcept]
    cases hmerge : mergePositionRuntimeMetadata pos.metadata a.closeMetadata with
    | error e =>
      exact ⟨_, _, _, rfl, .stuck hsettles hdust hnew htrades hmerge, .inr ⟨_, rfl⟩⟩
    | ok merged =>
      refine ⟨_, _, _, ?_, .partly hsettles hdust hnew htrades hmerge, rfl⟩
      simp only [run_execute_opened, run_commit_opened, Tables.reduce]

/-- The durable contents before and after some closes of whole positions. -/
structure Closes (s s' : Tables) : Prop where
  traces : Traces s s'
  opens : ∀ id, s'.positions.contains id = true → s.positions.contains id = true
  whole : ∀ id o, OpenQty s id o →
    (s'.positions.find? id = s.positions.find? id ∧ traded s' id = traded s id) ∨
      (s'.positions.contains id = false ∧ traded s' id ≤ traded s id + o)

lemma Closes.refl (s : Tables) : Closes s s :=
  ⟨.refl s, fun _ h => h, fun _ _ _ => .inl ⟨rfl, rfl⟩⟩

lemma Closes.trans {s₁ s₂ s₃ : Tables} (h₁ : Closes s₁ s₂) (h₂ : Closes s₂ s₃) :
    Closes s₁ s₃ := by
  have hgone : ∀ id, s₁.positions.contains id = false → s₂.positions.contains id = false := by
    intro id h
    cases hc : s₂.positions.contains id with
    | false => rfl
    | true => rw [h₁.opens id hc] at h; cases h
  refine ⟨h₁.traces.trans h₂.traces hgone, fun id h => h₁.opens id (h₂.opens id h), ?_⟩
  intro id o hopen
  rcases h₁.whole id o hopen with ⟨hfind, htraded⟩ | ⟨hgone₂, htraded⟩
  · have hopen₂ : OpenQty s₂ id o := by
      unfold OpenQty
      rw [hfind]
      exact hopen
    rw [← hfind, ← htraded]
    exact h₂.whole id o hopen₂
  · refine .inr ⟨?_, by rwa [h₂.traces.closed id hgone₂]⟩
    cases hc : s₃.positions.contains id with
    | false => rfl
    | true => rw [h₂.opens id hc] at hgone₂; cases hgone₂

lemma ClosePosition.closes {s s' : Tables} {a : CloseArgs} {r : Except PyError Unit}
    (h : ClosePosition s a r s') (hqty : a.qty = none) : Closes s s' := by
  refine ⟨h.traces, fun id hid => ?_, fun id o hopen => ?_⟩
  · cases h with
    | missing _ => exact hid
    | unpriced _ _ => exact hid
    | nothing _ _ _ => exact hid
    | unsettled _ _ _ _ _ => exact hid
    | taken _ _ => exact hid
    | full hset hdust hnew htrades =>
      obtain ⟨p, hp, hpid⟩ := (Table.contains_iff _ id).mp hid
      exact (Table.contains_iff _ id).mpr ⟨p, ((s.positions.mem_erase _ _).mp hp).1, hpid⟩
    | stuck hset hdust hnew htrades hmerge => exact hid
    | partly hset hdust hnew htrades hmerge =>
      rw [contains_reduce] at hid
      exact hid
  by_cases hid : a.positionId = id
  · subst hid
    cases h with
    | missing _ => exact .inl ⟨rfl, rfl⟩
    | unpriced _ _ => exact .inl ⟨rfl, rfl⟩
    | nothing _ _ _ => exact .inl ⟨rfl, rfl⟩
    | unsettled _ _ _ _ _ => exact .inl ⟨rfl, rfl⟩
    | taken _ _ => exact .inl ⟨rfl, rfl⟩
    | full hset hdust hnew htrades =>
      obtain ⟨-, c, -, -, hle, hamount, -⟩ := hset.amounts hopen (.inl hqty)
      refine .inr ⟨?_, ?_⟩
      · exact (Table.not_contains_iff _ _).mpr fun p hp => ((s.positions.mem_erase _ _).mp hp).2
      · rw [traded_append htrades, if_pos hset.ids, hamount]
        linarith
    | stuck hset hdust hnew htrades hmerge =>
      obtain ⟨rfl, c, rfl, -, -, -, hall⟩ := hset.amounts hopen (.inl hqty)
      rw [hall hqty] at hdust
      exact absurd (by simp [dust]) hdust
    | partly hset hdust hnew htrades hmerge =>
      obtain ⟨rfl, c, rfl, -, -, -, hall⟩ := hset.amounts hopen (.inl hqty)
      rw [hall hqty] at hdust
      exact absurd (by simp [dust]) hdust
  · exact .inl (h.other hid)

/-- The connection after the pass: its closes are durable, and it is idle or has a transaction left
open. -/
def PassEnds (s : Tables) (c : Conn) : Prop :=
  ∃ s', Closes s s' ∧ (c = .idle s' ∨ ∃ u, c = .opened s' u)

lemma checkPosition_run (ex : Executor) (env : Executor.TpslEnv) (pos : PositionRow) (s : Tables) :
    ∃ r c, (ex.checkPosition env pos).run (.idle s) = (r, c) ∧ PassEnds s c ∧
      ∀ hit, r = .ok hit → ∃ s', Closes s s' ∧ c = .idle s' := by
  have hidle : PassEnds s (.idle s) := ⟨s, .refl s, .inl rfl⟩
  unfold Executor.checkPosition
  cases env.price pos.symbol pos.side with
  | none => exact ⟨_, _, rfl, hidle, fun _ _ => ⟨s, .refl s, rfl⟩⟩
  | some quote =>
  dsimp only
  cases Executor.tpslHit pos quote.price with
  | none => exact ⟨_, _, rfl, hidle, fun _ _ => ⟨s, .refl s, rfl⟩⟩
  | some hit =>
  obtain ⟨reason, stop⟩ := hit
  obtain ⟨r, s', c, hrun, hclose, hleaves⟩ := closePosition_idle_run s
    { uuid := env.uuid pos.positionId, positionId := pos.positionId
      exitPrice := some (ex.tpslFill env pos quote).value, reason := reason, closedAt := env.now
      closeMetadata := Executor.tpslMetadata reason stop quote (ex.tpslFill env pos quote)
      qty := none }
  have hcloses := hclose.closes rfl
  have hrest : ∃ r' c', (closePosition (env.uuid pos.positionId) pos.positionId
      (some (ex.tpslFill env pos quote).value) reason env.now
      (Executor.tpslMetadata reason stop quote (ex.tpslFill env pos quote)) none >>= fun _ =>
        pure (some (pos.positionId, reason, (ex.tpslFill env pos quote).value)) :
          Db (Option (String × String × PyFloat))).run (.idle s) = (r', c') ∧ PassEnds s c' ∧
      ∀ hit, r' = .ok hit → ∃ s', Closes s s' ∧ c' = .idle s' := by
    cases r with
    | ok _ =>
      refine ⟨_, c, by rw [Coro.run_bind_ok hrun]; rfl, ⟨s', hcloses, .inl hleaves⟩, ?_⟩
      exact fun _ _ => ⟨s', hcloses, hleaves⟩
    | error e =>
      refine ⟨.error e, c, Coro.run_bind_error hrun _, ⟨s, .refl s, hleaves⟩, ?_⟩
      intro hit h
      cases h
  dsimp only
  split
  · exact hrest
  · exact hrest

lemma checkPositions_run (ex : Executor) (env : Executor.TpslEnv) (positions : List PositionRow)
    (s : Tables) :
    ∃ r c, (ex.checkPositions env positions).run (.idle s) = (r, c) ∧ PassEnds s c := by
  induction positions generalizing s with
  | nil => exact ⟨_, _, rfl, s, .refl s, .inl rfl⟩
  | cons pos rest ih =>
    obtain ⟨r, c, hrun, hends, hok⟩ := checkPosition_run ex env pos s
    cases r with
    | error e => exact ⟨.error e, c, Coro.run_bind_error hrun _, hends⟩
    | ok hit =>
      obtain ⟨s₁, hcloses, rfl⟩ := hok hit rfl
      obtain ⟨r, c, hrest, s₂, hcloses', hc⟩ := ih s₁
      have hends' : PassEnds s c := ⟨s₂, hcloses.trans hcloses', hc⟩
      simp only [Executor.checkPositions]
      rw [Coro.run_bind_ok hrun]
      cases r with
      | ok hits => exact ⟨_, c, Coro.run_bind_ok hrest _, hends'⟩
      | error e => exact ⟨_, c, Coro.run_bind_error hrest _, hends'⟩

/-- The pass on an idle connection. -/
theorem checkTpslHits_run (ex : Executor) (env : Executor.TpslEnv) (s : Tables) :
    PassEnds s ((ex.checkTpslHits env).run (.idle s)).2 := by
  simp only [Executor.checkTpslHits, getPositionsWithTpsl, Coro.run_bind, run_query]
  obtain ⟨r, c, hrun, hends⟩ := checkPositions_run ex env
    ((Conn.idle s).current.positions.rows.filter fun r => r.tp.isSome || r.sl.isSome) s
  rw [hrun]
  exact hends

/-- With a transaction left open, `db.transaction()` fails on `BEGIN` and rolls it back. -/
lemma run_transaction_opened {α : Type} (body : Db α) (c s : Tables) :
    (transaction body).run (.opened c s) = (.error .nestedTransaction, .idle c) := by
  have hbegin : (do beginImmediate; let a ← body; commitConn; pure a : Db α).run
      (Conn.opened c s).enter = (.error .nestedTransaction, ⟨c, s, true, 1⟩) := rfl
  have hdepth : (Conn.opened c s).txDepth = 0 := rfl
  simp only [transaction, Coro.run_sync, hdepth, if_true]
  rw [Coro.run_bind, Coro.run_attempt, hbegin]
  rfl

/-- A message on such a connection changes nothing that is durable. -/
lemma processSignalMessage_opened (ex : Executor) (env : Env) (data : RawSignal) (c s : Tables) :
    ((processSignalMessage ex env data).run (.opened c s)).2.committed = c := by
  simp only [processSignalMessage, Coro.run_bind, isDuplicate_run]
  split
  · rfl
  · split
    · rw [Coro.run_bind_error (run_transaction_opened _ c s)]
      rfl
    · simp only [Coro.run_bind, resolveFill_run, run_transaction_opened]
      rfl

/-! ## Both orders -/

/-- The durable contents after a message and a pass, in one order or the other. -/
def Sequential (ex : Executor) (env : Env) (data : RawSignal) (tpsl : Executor.TpslEnv)
    (s s' : Tables) : Prop :=
  s' = ((ex.checkTpslHits tpsl).run ((processSignalMessage ex env data).run (.idle s)).2).2.committed ∨
    s' = ((processSignalMessage ex env data).run ((ex.checkTpslHits tpsl).run (.idle s)).2).2.committed

lemma Traces.lost_trans {s₁ s₂ s₃ : Tables} (h₁ : Traces s₁ s₂) (h₂ : Traces s₂ s₃) {id : String}
    (hin : s₁.positions.contains id = true) (hout : s₃.positions.contains id = false) :
    ∃ t ∈ s₃.trades.rows, t.tradeId = id ∧ t.positionId = id := by
  cases hmid : s₂.positions.contains id with
  | true => exact h₂.lost id hmid hout
  | false =>
    obtain ⟨t, ht, hids⟩ := h₁.lost id hin hmid
    exact ⟨t, h₂.trades t ht, hids⟩

/-- A bounded step, and then closes of whole positions. -/
lemma Bounded.closes {s₁ s₂ s₃ : Tables} {id : String} {o : ℚ} (h₁ : Bounded s₁ s₂ id o)
    (h₂ : Closes s₂ s₃) : traded s₃ id ≤ traded s₁ id + o := by
  rcases h₁ with ⟨o', hopen, hle⟩ | ⟨hgone, hle⟩
  · have hpos : 0 < o' := hopen.choose_spec.2.2
    rcases h₂.whole id o' hopen with ⟨-, hsame⟩ | ⟨-, hle'⟩
    · linarith
    · linarith
  · rw [h₂.traces.closed id hgone]
    exact hle

/-- Closes of whole positions, and then a message. -/
lemma Closes.deliver {ex : Executor} {env : Env} {data : RawSignal} {s₁ s₂ : Tables} {id : String}
    {o : ℚ} (h : Closes s₁ s₂) (hopen : OpenQty s₁ id o) (hmerges : Merges s₁ data id) :
    traded (deliver ex s₂ ⟨data, env⟩) id ≤ traded s₁ id + o := by
  rcases h.whole id o hopen with ⟨hfind, hsame⟩ | ⟨hgone, hle⟩
  · have hopen₂ : OpenQty s₂ id o := by
      unfold OpenQty
      rw [hfind]
      exact hopen
    have hmerges₂ : Merges s₂ data id := by
      unfold Merges
      rw [hfind]
      exact hmerges
    rcases deliver_bounded ex ⟨data, env⟩ hopen₂ hmerges₂ with
      ⟨o', ⟨_, _, _, hpos⟩, hle⟩ | ⟨-, hle⟩
    · linarith
    · linarith
  · rw [(deliver_traces ex ⟨data, env⟩ s₂).closed id hgone]
    exact hle

lemma processSignalMessage_idle (ex : Executor) (env : Env) (data : RawSignal) (s : Tables) :
    ((processSignalMessage ex env data).run (.idle s)).2 = .idle (deliver ex s ⟨data, env⟩) := by
  obtain ⟨r, s', hrun, -⟩ := processSignalMessage_run ex ⟨data, env⟩ s
  rw [deliver, hrun]
  rfl

/-- In either order a position that goes leaves a trade row, and no more is traded of an open
position than was open. -/
theorem Sequential.accounts {ex : Executor} {env : Env} {data : RawSignal}
    {tpsl : Executor.TpslEnv} {s s' : Tables} (h : Sequential ex env data tpsl s s') :
    (∀ id, s.positions.contains id = true → s'.positions.contains id = false →
      ∃ t ∈ s'.trades.rows, t.tradeId = id ∧ t.positionId = id) ∧
    ∀ id o, OpenQty s id o → Merges s data id → traded s' id ≤ traded s id + o := by
  have hmessage := deliver_traces ex ⟨data, env⟩
  rcases h with rfl | rfl
  · rw [processSignalMessage_idle]
    obtain ⟨s₂, hcloses, hc⟩ := checkTpslHits_run ex tpsl (deliver ex s ⟨data, env⟩)
    have hcommitted : ((ex.checkTpslHits tpsl).run
        (.idle (deliver ex s ⟨data, env⟩))).2.committed = s₂ := by
      rcases hc with hc | ⟨u, hc⟩ <;> rw [hc] <;> rfl
    rw [hcommitted]
    exact ⟨fun id hin hout => (hmessage s).lost_trans hcloses.traces hin hout,
      fun id o hopen hmerges => (deliver_bounded _ _ hopen hmerges).closes hcloses⟩
  · obtain ⟨s₁, hcloses, hc | ⟨u, hc⟩⟩ := checkTpslHits_run ex tpsl s
    · rw [hc, processSignalMessage_idle]
      exact ⟨fun id hin hout => hcloses.traces.lost_trans (hmessage s₁) hin hout,
        fun id o hopen hmerges => hcloses.deliver hopen hmerges⟩
    · rw [hc, processSignalMessage_opened]
      refine ⟨hcloses.traces.lost, fun id o hopen _ => ?_⟩
      rcases hcloses.whole id o hopen with ⟨-, hsame⟩ | ⟨-, hle⟩
      · have hpos : 0 < o := hopen.choose_spec.2.2
        linarith
      · exact hle

end PaperTrade.Worker
