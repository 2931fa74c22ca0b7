import PaperTrade.Worker.Conservation

/-!
# Where rows come from

The provenance of the rows after one message: a row of `positions` was there before, or it has been
opened, modified or reduced by this message (`deliver_rows`); a row that the message does not name
stays (`deliver_keeps`); at most one row of `trades` is new, and it books the position that the
message closes (`deliver_trades`). The invariants of whole runs start from these.
-/

namespace PaperTrade.Worker

open PaperTrade.Runtime

/-- Where a row of `positions` comes from when the message has been processed. -/
inductive RowOrigin (self : Executor) (m : Delivery) (s : Tables) (p' : PositionRow) : Prop
  | kept (h : p' ∈ s.positions.rows)
  | opened {signal} (hparse : parseSignal m.data = .ok (.open signal))
      (hblocks : ¬ Blocks self s signal) (hnew : s.positions.contains p'.positionId = false)
      (hrow : p' = self.openRow m.env signal (fillAt m.env s (.open signal)))
  | modified {signal p merged} (hparse : parseSignal m.data = .ok (.modify signal))
      (hp : p ∈ s.positions.rows) (hid : p.positionId = signal.positionId)
      (hstop : Executor.checkStop p signal.sl = .ok ())
      (hrow : p' = p.updated signal.tp signal.sl merged)
  | reduced {signal p q merged} (hparse : parseSignal m.data = .ok (.close signal))
      (hp : p ∈ s.positions.rows) (hid : p.positionId = signal.positionId)
      (hrow : p' = p.reduced q merged)

section Origin

variable {self : Executor} {m : Delivery} {s s' : Tables}

lemma ClosePosition.origin {a : CloseArgs} {r : Except PyError Unit} {signal : CloseSignal}
    {row : SignalRow} (h : ClosePosition (s.log row) a r s')
    (hparse : parseSignal m.data = .ok (.close signal))
    (hid : a.positionId = signal.positionId) {p' : PositionRow}
    (hp' : p' ∈ s'.positions.rows) : RowOrigin self m s p' := by
  cases h with
  | full _ _ _ _ => exact .kept ((s.positions.mem_erase _ _).mp hp').1
  | partly _ _ _ _ _ =>
    rcases mem_reduce.mp hp' with ⟨hp, -⟩ | ⟨p, hp, hkey, hrow⟩
    · exact .kept hp
    · exact .reduced hparse hp (hkey.trans hid) hrow
  | missing _ => exact .kept hp'
  | unpriced _ _ => exact .kept hp'
  | nothing _ _ _ => exact .kept hp'
  | unsettled _ _ _ _ _ => exact .kept hp'
  | taken _ _ => exact .kept hp'
  | stuck _ _ _ _ _ => exact .kept hp'

lemma InsertColumns.positions {alphaId : String} {i : ℕ} {columns : List Json} {r : Except PyError Unit}
    {now : String} (h : InsertColumns alphaId i columns
      ((s.withAlpha now alphaId).withoutColumns alphaId) r s') : s'.positions = s.positions :=
  h.sameLedger.1

lemma Handle.origin {signal : Signal} {r : Except PyError Outcome}
    (hparse : parseSignal m.data = .ok signal)
    (h : Handle self m.env (s.log (logRow m.env m.data)) signal (fillAt m.env s signal) r s')
    {p' : PositionRow} (hp' : p' ∈ s'.positions.rows) : RowOrigin self m s p' := by
  cases signal with
  | «open» signal =>
    cases h with
    | blocked _ => exact .kept hp'
    | leverage _ _ => exact .kept hp'
    | taken _ _ _ => exact .kept hp'
    | opened hblocks _ hnew hrows =>
      rw [hrows, List.mem_append, List.mem_singleton] at hp'
      rcases hp' with hp' | rfl
      · exact .kept hp'
      · exact .opened hparse hblocks hnew rfl
  | modify signal =>
    cases h with
    | missing _ => exact .kept hp'
    | stop _ _ => exact .kept hp'
    | unmerged _ _ _ => exact .kept hp'
    | modified hfind hstop _ =>
      rcases (mem_modified _ signal).mp hp' with ⟨hp, -⟩ | ⟨p, hp, hkey, hrow⟩
      · exact .kept hp
      · -- the row that is updated is the one the stop was checked against
        obtain ⟨hpos, hposid⟩ := (s.positions.find?_some_iff _ _).mp hfind
        have hsame := s.positions.eq_of_key_eq hpos hp (hposid.trans hkey.symm)
        subst hsame
        exact .modified hparse hp hkey hstop hrow
  | close signal =>
    cases h with
    | missing _ => exact .kept hp'
    | refused _ _ => exact .kept hp'
    | unfilled _ _ _ => exact .kept hp'
    | failed _ _ _ hclose => exact hclose.origin hparse rfl hp'
    | closed _ _ _ _ hclose => exact hclose.origin hparse rfl hp'
  | registerColumns signal =>
    cases h with
    | invalid _ => exact .kept hp'
    | notArray _ _ => exact .kept hp'
    | failed _ hinsert =>
      rw [hinsert.positions] at hp'
      exact .kept hp'
    | registered _ hinsert =>
      rw [hinsert.positions] at hp'
      exact .kept hp'

end Origin

/-- Where the rows of `positions` come from. -/
theorem deliver_rows (self : Executor) (m : Delivery) (s : Tables) {p' : PositionRow}
    (hp' : p' ∈ (deliver self s m).positions.rows) : RowOrigin self m s p' := by
  have hd := deliver_cases self m s
  generalize deliver self s m = s', reply self s m = r at hd hp'
  cases hd with
  | duplicate _ => exact .kept hp'
  | unparsable _ _ => exact .kept hp'
  | rejected _ hparse h => exact h.origin hparse hp'
  | accepted _ hparse h => exact h.origin hparse hp'

/-! ## The rows that stay -/

/-- The message is a MODIFY or a CLOSE of this position. -/
def Names (m : Delivery) (positionId : String) : Prop :=
  (∃ signal, parseSignal m.data = .ok (.modify signal) ∧ signal.positionId = positionId) ∨
    ∃ signal, parseSignal m.data = .ok (.close signal) ∧ signal.positionId = positionId

section Keeps

variable {self : Executor} {m : Delivery} {s s' : Tables}

lemma ClosePosition.keeps {a : CloseArgs} {r : Except PyError Unit} (h : ClosePosition s a r s')
    {p : PositionRow} (hp : p ∈ s.positions.rows) (hid : p.positionId ≠ a.positionId) :
    p ∈ s'.positions.rows := by
  cases h with
  | full _ _ _ _ => exact (s.positions.mem_erase _ _).mpr ⟨hp, hid⟩
  | partly _ _ _ _ _ => exact mem_reduce.mpr (.inl ⟨hp, hid⟩)
  | missing _ => exact hp
  | unpriced _ _ => exact hp
  | nothing _ _ _ => exact hp
  | unsettled _ _ _ _ _ => exact hp
  | taken _ _ => exact hp
  | stuck _ _ _ _ _ => exact hp

lemma Handle.keeps {signal : Signal} {r : Except PyError Outcome} {fill : Option FillPrice}
    (hparse : parseSignal m.data = .ok signal)
    (h : Handle self m.env (s.log (logRow m.env m.data)) signal fill r s') {p : PositionRow}
    (hp : p ∈ s.positions.rows) (hnames : ¬ Names m p.positionId) : p ∈ s'.positions.rows := by
  cases signal with
  | «open» signal =>
    cases h with
    | blocked _ => exact hp
    | leverage _ _ => exact hp
    | taken _ _ _ => exact hp
    | opened _ _ _ hrows =>
      rw [hrows]
      exact List.mem_append_left _ hp
  | modify signal =>
    have hid : p.positionId ≠ signal.positionId := fun h => hnames (.inl ⟨signal, hparse, h.symm⟩)
    cases h with
    | missing _ => exact hp
    | stop _ _ => exact hp
    | unmerged _ _ _ => exact hp
    | modified _ _ _ => exact (mem_modified _ signal).mpr (.inl ⟨hp, hid⟩)
  | close signal =>
    have hid : p.positionId ≠ signal.positionId := fun h => hnames (.inr ⟨signal, hparse, h.symm⟩)
    cases h with
    | missing _ => exact hp
    | refused _ _ => exact hp
    | unfilled _ _ _ => exact hp
    | failed _ _ _ hclose => exact hclose.keeps hp hid
    | closed _ _ _ _ hclose => exact hclose.keeps hp hid
  | registerColumns signal =>
    cases h with
    | invalid _ => exact hp
    | notArray _ _ => exact hp
    | failed _ hinsert => rwa [hinsert.positions]
    | registered _ hinsert => rwa [hinsert.positions]

end Keeps

/-- A row that the message does not name stays as it is. -/
theorem deliver_keeps (self : Executor) (m : Delivery) (s : Tables) {p : PositionRow}
    (hp : p ∈ s.positions.rows) (hnames : ¬ Names m p.positionId) :
    p ∈ (deliver self s m).positions.rows := by
  have hd := deliver_cases self m s
  generalize deliver self s m = s', reply self s m = r at hd ⊢
  cases hd with
  | duplicate _ => exact hp
  | unparsable _ _ => exact hp
  | rejected _ hparse h => exact h.keeps hparse hp hnames
  | accepted _ hparse h => exact h.keeps hparse hp hnames

/-! ## Trades -/

/-- The CLOSE of the message books the trade, under the ids of the position. -/
structure Booking (m : Delivery) (s : Tables) (trade : TradeRow) (signal : CloseSignal)
    (pos : PositionRow) : Prop where
  parsed : parseSignal m.data = .ok (.close signal)
  found : s.positions.find? signal.positionId = some pos
  positionId : trade.positionId = pos.positionId
  alphaId : trade.alphaId = pos.alphaId

/-- The rows of `trades` after the message. -/
def TradesAfter (m : Delivery) (s s' : Tables) : Prop :=
  s'.trades.rows = s.trades.rows ∨
    ∃ trade signal pos, s'.trades.rows = s.trades.rows ++ [trade] ∧ Booking m s trade signal pos

lemma closingTrade_alphaId {pos : PositionRow} {exit : Option PyFloat} {q : PyFloat}
    {reason closedAt tradeId : String} {metadata : Text} {t : TradeRow}
    (h : closingTrade pos exit q reason closedAt metadata tradeId = .ok t) :
    t.alphaId = pos.alphaId := by
  simp only [closingTrade] at h
  obtain ⟨_, -, h⟩ := bind_eq_ok h
  obtain ⟨_, -, h⟩ := bind_eq_ok h
  obtain ⟨_, -, h⟩ := bind_eq_ok h
  obtain ⟨_, -, h⟩ := bind_eq_ok h
  obtain ⟨_, -, h⟩ := bind_eq_ok h
  cases h
  rfl

section Trades

variable {self : Executor} {m : Delivery} {s s' : Tables}

lemma ClosePosition.trades {a : CloseArgs} {r : Except PyError Unit} {signal : CloseSignal}
    {row : SignalRow} (h : ClosePosition (s.log row) a r s')
    (hparse : parseSignal m.data = .ok (.close signal)) (hid : a.positionId = signal.positionId) :
    TradesAfter m s s' := by
  have hbooked : ∀ {pos q o trade} {trades : Table TradeRow.tradeId},
      Settles (s.log row) a pos q o trade → trades.rows = s.trades.rows ++ [trade] →
      s'.trades = trades → TradesAfter m s s' := by
    intro pos q o trade trades hset htrades heq
    refine .inr ⟨trade, signal, pos, heq ▸ htrades, hparse, hid ▸ hset.found,
      (closingTrade_ids hset.row).2, closingTrade_alphaId hset.row⟩
  cases h with
  | full hset _ _ htrades => exact hbooked hset htrades rfl
  | stuck hset _ _ htrades _ => exact hbooked hset htrades rfl
  | partly hset _ _ htrades _ => exact hbooked hset htrades rfl
  | missing _ => exact .inl rfl
  | unpriced _ _ => exact .inl rfl
  | nothing _ _ _ => exact .inl rfl
  | unsettled _ _ _ _ _ => exact .inl rfl
  | taken _ _ => exact .inl rfl

lemma Handle.trades {signal : Signal} {r : Except PyError Outcome} {fill : Option FillPrice}
    (hparse : parseSignal m.data = .ok signal)
    (h : Handle self m.env (s.log (logRow m.env m.data)) signal fill r s') :
    TradesAfter m s s' := by
  cases signal with
  | «open» signal => cases h <;> exact .inl rfl
  | modify signal => cases h <;> exact .inl rfl
  | close signal =>
    cases h with
    | missing _ => exact .inl rfl
    | refused _ _ => exact .inl rfl
    | unfilled _ _ _ => exact .inl rfl
    | failed _ _ _ hclose => exact hclose.trades hparse rfl
    | closed _ _ _ _ hclose => exact hclose.trades hparse rfl
  | registerColumns signal =>
    cases h with
    | invalid _ => exact .inl rfl
    | notArray _ _ => exact .inl rfl
    | failed _ hinsert => exact .inl (congrArg Table.rows hinsert.sameLedger.2)
    | registered _ hinsert => exact .inl (congrArg Table.rows hinsert.sameLedger.2)

end Trades

/-- At most one row of `trades` is new, and it books the position that the message closes. -/
theorem deliver_trades (self : Executor) (m : Delivery) (s : Tables) :
    TradesAfter m s (deliver self s m) := by
  have hd := deliver_cases self m s
  generalize deliver self s m = s', reply self s m = r at hd ⊢
  cases hd with
  | duplicate _ => exact .inl rfl
  | unparsable _ _ => exact .inl rfl
  | rejected _ hparse h =>
    have ht := h.trades hparse
    exact ht
  | accepted _ hparse h =>
    have ht := h.trades hparse
    exact ht

/-! ## The life of a row -/

/-- A row of this id is there at every point of the run. -/
def Stays (self : Executor) (s : Tables) (ms : List Delivery) (id : String) : Prop :=
  ∀ mid, mid <+: ms → (deliverAll self s mid).positions.contains id = true

section Stays

variable {self : Executor} {s : Tables} {m : Delivery} {ms : List Delivery} {id : String}

lemma Stays.tail (h : Stays self s (m :: ms) id) : Stays self (deliver self s m) ms id :=
  fun mid hmid => h (m :: mid) (List.cons_prefix_cons.mpr ⟨rfl, hmid⟩)

lemma Stays.head (h : Stays self s ms id) : s.positions.contains id = true :=
  h [] List.nil_prefix

lemma Stays.last (h : Stays self s ms id) : (deliverAll self s ms).positions.contains id = true :=
  h ms (List.prefix_refl _)

/-- What every message keeps of the row, a run keeps of it while it stays. -/
theorem Stays.relates {R : PositionRow → PositionRow → Prop} (hrefl : ∀ r, R r r)
    (htrans : ∀ r₁ r₂ r₃, R r₁ r₂ → R r₂ r₃ → R r₁ r₃)
    (hstep : ∀ s, ∀ m ∈ ms, ∀ r ∈ s.positions.rows, ∀ r' ∈ (deliver self s m).positions.rows,
      r.positionId = id → r'.positionId = id → R r r')
    {r r' : PositionRow} (hstays : Stays self s ms id) (hr : r ∈ s.positions.rows)
    (hr' : r' ∈ (deliverAll self s ms).positions.rows) (hid : r.positionId = id)
    (hid' : r'.positionId = id) : R r r' := by
  induction ms generalizing s r with
  | nil =>
    rw [← s.positions.eq_of_key_eq hr hr' (hid.trans hid'.symm)]
    exact hrefl r
  | cons m ms ih =>
    obtain ⟨r₁, hr₁, hid₁⟩ := (Table.contains_iff _ _).mp hstays.tail.head
    have hrest : R r₁ r' :=
      ih (fun s m hm => hstep s m (List.mem_cons_of_mem _ hm)) hstays.tail hr₁ hr' hid₁
    exact htrans _ _ _ (hstep s m (List.mem_cons_self ..) r hr r₁ hr₁ hid hid₁) hrest

end Stays

/-- The same alpha, symbol and side. -/
structure SameOwner (r r' : PositionRow) : Prop where
  alphaId : r'.alphaId = r.alphaId
  symbol : r'.symbol = r.symbol
  side : r'.side = r.side

/-- A row keeps its owner, its symbol and its side. -/
lemma deliver_sameOwner {self : Executor} {s : Tables} {m : Delivery} {r r' : PositionRow}
    (hr : r ∈ s.positions.rows) (hr' : r' ∈ (deliver self s m).positions.rows)
    (hid : r'.positionId = r.positionId) : SameOwner r r' := by
  cases deliver_rows self m s hr' with
  | kept h =>
    cases s.positions.eq_of_key_eq hr h hid.symm
    exact ⟨rfl, rfl, rfl⟩
  | opened _ _ hnew _ => exact absurd hid.symm ((Table.not_contains_iff _ _).mp hnew r hr)
  | modified _ hp _ _ hrow =>
    subst hrow
    cases s.positions.eq_of_key_eq hr hp hid.symm
    exact ⟨rfl, rfl, rfl⟩
  | reduced _ hp _ hrow =>
    subst hrow
    cases s.positions.eq_of_key_eq hr hp hid.symm
    exact ⟨rfl, rfl, rfl⟩

theorem Stays.sameOwner {self : Executor} {s : Tables} {ms : List Delivery} {r r' : PositionRow}
    (hstays : Stays self s ms r.positionId) (hr : r ∈ s.positions.rows)
    (hr' : r' ∈ (deliverAll self s ms).positions.rows) (hid : r'.positionId = r.positionId) :
    SameOwner r r' :=
  Stays.relates (fun _ => ⟨rfl, rfl, rfl⟩)
    (fun _ _ _ h₁ h₂ => ⟨h₂.alphaId.trans h₁.alphaId, h₂.symbol.trans h₁.symbol,
      h₂.side.trans h₁.side⟩)
    (fun _ _ _ _ hr _ hr' hid hid' => deliver_sameOwner hr hr' (hid'.trans hid.symm)) hstays hr hr'
    rfl hid

end PaperTrade.Worker
