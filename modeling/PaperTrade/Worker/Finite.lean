import PaperTrade.Runtime.Invariant
import PaperTrade.Worker.TrailingStop

/-!
# Finite numbers

`parse_signal` rejects NaN and the infinities for the entry price and the quantities, and lets them
through for `tp`, `sl`, `fee_pct` and `exit_price`: a signal is finite exactly when those texts are
(`parseSignal_finite_iff`). As long as no `fee_pct`, no `exit_price` and no price of the TP/SL pass is
infinite or NaN, every number that a position or a trade carries is finite in every state that any
schedule of messages and TP/SL passes reaches: every operation of `process_signal_message` and of
`check_tpsl_hits` keeps `FiniteRows`.
-/

namespace PaperTrade.Worker

open PaperTrade.Runtime

/-! ## Signals -/

/-- Absent or finite. -/
def OptFinite (o : Option PyFloat) : Prop := ∀ x, o = some x → x.isFinite = true

/-- The numeric fields of the signal are absent or finite. -/
def Signal.Finite : Signal → Prop
  | .open s => s.entry.isFinite = true ∧ s.qty.isFinite = true ∧ OptFinite s.tp ∧ OptFinite s.sl ∧
      s.feePct.isFinite = true
  | .modify s => OptFinite s.tp ∧ OptFinite s.sl
  | .close s => OptFinite s.exitPrice ∧ OptFinite s.qty
  | .registerColumns _ => True

/-- The field is absent, or its text spells neither NaN nor an infinity. -/
def SpellsFinite (raw : Option Text) : Prop :=
  ∀ s x, raw = some s → s.float? = some x → x.isFinite = true

lemma optFloat_finite_iff {raw : Option Text} {o : Option PyFloat} (h : optFloat raw = .ok o) :
    OptFinite o ↔ SpellsFinite raw := by
  cases raw with
  | none =>
    cases h
    exact ⟨fun _ _ _ h => (nomatch h), fun _ _ h => (nomatch h)⟩
  | some s =>
    simp only [optFloat] at h
    split at h
    · rename_i hempty
      cases h
      refine ⟨fun _ t x ht hx => ?_, fun _ _ h => (nomatch h)⟩
      cases ht
      cases s with
      | chars s =>
        rw [Text.isEmpty, decide_eq_true_eq] at hempty
        subst hempty
        have hread : (Text.chars "").float? = none := by decide
        rw [hread] at hx
        cases hx
      | num _ => cases hempty
      | json _ => cases hempty
    · simp only [toFloat] at h
      cases hs : s.float? with
      | none =>
        rw [hs] at h
        cases h
      | some x =>
        rw [hs] at h
        cases h
        refine ⟨fun hfin t y ht hy => ?_, fun hfin y hy => ?_⟩
        · cases ht
          rw [hs] at hy
          cases hy
          exact hfin x rfl
        · cases hy
          exact hfin s x rfl hs

lemma floatOrZero_finite_iff {raw : Option Text} {x : PyFloat} (h : floatOrZero raw = .ok x) :
    x.isFinite = true ↔ SpellsFinite raw := by
  obtain ⟨o, ho, hx⟩ := bind_eq_ok h
  rw [← optFloat_finite_iff ho]
  cases hx
  cases o with
  | none => exact ⟨fun _ _ h => (nomatch h), fun _ => rfl⟩
  | some x => exact ⟨fun h y hy => by cases hy; exact h, fun h => h x rfl⟩

/-- The column holds a finite number. -/
def IsNumber (o : Option PyFloat) : Prop := ∃ q : ℚ, o = some (.fin q)

/-- The numbers of a position that are computed with. -/
structure FinitePosition (p : PositionRow) : Prop where
  entryPrice : IsNumber p.entryPrice
  qty : IsNumber p.qty
  feePct : IsNumber p.feePct

/-- The numbers of a trade that are computed with. -/
structure FiniteTrade (t : TradeRow) : Prop where
  entryPrice : IsNumber t.entryPrice
  exitPrice : IsNumber t.exitPrice
  qty : IsNumber t.qty
  pnl : IsNumber t.pnl
  pnlPercent : IsNumber t.pnlPercent
  durationHours : IsNumber t.durationHours
  fee : IsNumber t.fee

/-- No number of the positions and the trades is `NULL`, NaN or infinite. -/
structure FiniteRows (s : Tables) : Prop where
  positions : ∀ p ∈ s.positions.rows, FinitePosition p
  trades : ∀ t ∈ s.trades.rows, FiniteTrade t

/-- What is durable and what the connection sees is finite. -/
def FiniteConn (c : Conn) : Prop := FiniteRows c.committed ∧ FiniteRows c.current

lemma isNumber_of_need {o : Option PyFloat} {x : PyFloat} (ho : IsNumber o) (h : need o = .ok x) :
    ∃ q : ℚ, x = .fin q := by
  obtain ⟨q, rfl⟩ := ho
  cases h
  exact ⟨q, rfl⟩

lemma tradeDurationHours_finite {opened closed : DateTime} {exchange : String} {x : PyFloat}
    (h : tradeDurationHours opened closed exchange = .ok x) : ∃ q : ℚ, x = .fin q := by
  unfold tradeDurationHours at h
  split at h
  · cases hm : activeSessionMicros opened closed with
    | error e =>
      rw [hm] at h
      cases h
    | ok us =>
      rw [hm] at h
      cases h
      exact ⟨_, rfl⟩
  · split at h
    · cases h
    · cases h
      exact ⟨_, rfl⟩

/-- The trade row of finite numbers is finite. -/
lemma closingTrade_finite {pos : PositionRow} (hpos : FinitePosition pos) {exit q : ℚ}
    {reason closedAt tradeId : String} {metadata : Text} {t : TradeRow}
    (h : closingTrade pos (some (.fin exit)) (.fin q) reason closedAt metadata tradeId = .ok t) :
    FiniteTrade t := by
  obtain ⟨entry, hentry⟩ := hpos.entryPrice
  obtain ⟨feePct, hfee⟩ := hpos.feePct
  simp only [closingTrade, hentry, hfee, need] at h
  obtain ⟨_, hexit, h⟩ := bind_eq_ok h
  cases hexit
  obtain ⟨_, hneed, h⟩ := bind_eq_ok h
  cases hneed
  obtain ⟨_, -, h⟩ := bind_eq_ok h
  obtain ⟨_, -, h⟩ := bind_eq_ok h
  obtain ⟨_, hhours, h⟩ := bind_eq_ok h
  obtain ⟨hours, rfl⟩ := tradeDurationHours_finite hhours
  cases h
  refine ⟨⟨_, rfl⟩, ⟨_, rfl⟩, ⟨_, rfl⟩, ?_, ?_, ⟨_, rfl⟩, ?_⟩
  · simp only [PyFloat.sub_fin, PyFloat.mul_fin, PyFloat.add_fin, direction_eq, Option.getD_some]
    exact ⟨_, rfl⟩
  · simp only [PyFloat.sub_fin, PyFloat.mul_fin, PyFloat.add_fin, direction_eq, Option.getD_some,
      PyFloat.truthy_fin, decide_eq_true_eq]
    split
    · rename_i hcapital
      rw [PyFloat.div_fin _ hcapital]
      exact ⟨_, rfl⟩
    · exact ⟨_, rfl⟩
  · simp only [PyFloat.mul_fin, PyFloat.add_fin, Option.getD_some]
    exact ⟨_, rfl⟩

/-- The fixed-percentage fill of a finite price is finite. -/
lemma applySlippage_finite {ex : Executor} (hslip : ex.slippagePct.isFinite = true) (price : ℚ)
    (side : String) (isClose : Bool) :
    ∃ q : ℚ, ex.applySlippage (.fin price) side isClose = .fin q := by
  obtain ⟨pct, hpct⟩ := (PyFloat.isFinite_iff _).mp hslip
  have hslipped : ∃ slip : ℚ, PyFloat.fin price * (ex.slippagePct / 1000) = .fin slip := by
    rw [hpct, PyFloat.ofNat_eq, PyFloat.div_fin _ (by norm_num), PyFloat.mul_fin]
    exact ⟨_, rfl⟩
  obtain ⟨slip, hslipped⟩ := hslipped
  simp only [Executor.applySlippage, fixedPctFill, hslipped, PyFloat.sub_fin, PyFloat.add_fin]
  cases isLongSide side <;> cases isClose <;> exact ⟨_, rfl⟩

/-! ## Statements -/

section Keeps

variable {α : Type}

open Coro

lemma keeps_execute {stmt : Tables → Except PyError Tables}
    (h : ∀ t t', FiniteRows t → stmt t = .ok t' → FiniteRows t') :
    Keeps FiniteConn (fun _ => True) (execute stmt) := by
  refine fun c hc => ⟨⟨hc.1, ?_⟩, fun _ _ => trivial⟩
  change FiniteRows ((stmt c.current).toOption.getD c.current)
  cases hs : stmt c.current with
  | error e => exact hc.2
  | ok t => exact h _ _ hc.2 hs

/-- What a `SELECT` returns is read from finite rows. -/
lemma keeps_query (read : Tables → α) :
    Keeps FiniteConn (fun a => ∃ t, FiniteRows t ∧ read t = a) (query read) :=
  fun c hc => ⟨hc, fun _ hc' => ⟨hc', fun a ha => by
    cases ha
    exact ⟨c.current, hc.2, rfl⟩⟩⟩

lemma keeps_commit : Keeps FiniteConn (fun _ => True) commit := by
  refine fun c hc => ⟨hc, ?_⟩
  change Keeps _ _ (if c.txDepth = 0 then commitConn else pure ())
  split
  · exact fun c hc => ⟨⟨hc.2, hc.2⟩, fun _ _ => trivial⟩
  · exact .pure trivial

/-- A statement that leaves the positions and the trades alone, with its commit. -/
lemma keeps_elsewhere {stmt : Tables → Except PyError Tables}
    (h : ∀ t t', stmt t = .ok t' → t'.positions = t.positions ∧ t'.trades = t.trades) :
    Keeps FiniteConn (fun _ => True) (execute stmt) := by
  refine keeps_execute fun t t' ht hs => ?_
  obtain ⟨hpositions, htrades⟩ := h t t' hs
  exact ⟨fun p hp => ht.positions p (hpositions ▸ hp), fun r hr => ht.trades r (htrades ▸ hr)⟩

lemma keeps_transaction {Q : α → Prop} {body : Db α} (hbody : Keeps FiniteConn Q body) :
    Keeps FiniteConn Q (transaction body) := by
  refine fun c hc => ⟨hc, ?_⟩
  have hbegin : Keeps FiniteConn (fun _ => True) beginImmediate :=
    fun c hc => ⟨hc, fun _ _ => trivial⟩
  have hcommit : Keeps FiniteConn (fun _ => True) commitConn :=
    fun c hc => ⟨⟨hc.2, hc.2⟩, fun _ _ => trivial⟩
  have hrollback : Keeps FiniteConn (fun _ => True) rollbackConn :=
    fun c hc => ⟨⟨hc.1, hc.1⟩, fun _ _ => trivial⟩
  refine Keeps.bind (Keeps.attempt (Q := Q) ?_) fun r hr => ?_
  · dsimp only
    split
    · exact hbegin.bind fun _ _ => hbody.bind fun a ha => hcommit.bind fun _ _ => .pure ha
    · exact hbody.bind fun a ha => .pure ha
  · cases r with
    | ok a => exact fun c hc => ⟨hc, fun b hb => by cases hb; exact hr a rfl⟩
    | error e =>
      dsimp only
      split
      · exact hrollback.bind fun _ _ => fun c hc => ⟨hc, .throw e⟩
      · exact fun c hc => ⟨hc, .throw e⟩

/-! ## The methods -/

lemma keeps_registerAlpha (now alphaId : String) :
    Keeps FiniteConn (fun _ => True) (registerAlpha now alphaId) :=
  (keeps_elsewhere fun _ _ h => by cases h; exact ⟨rfl, rfl⟩).bind fun _ _ => keeps_commit

lemma keeps_logSignal (now signalId alphaId type : String) (payload : RawSignal) :
    Keeps FiniteConn (fun _ => True) (logSignal now signalId alphaId type payload) :=
  (keeps_elsewhere fun _ _ h => by cases h; exact ⟨rfl, rfl⟩).bind fun _ _ => keeps_commit

lemma keeps_markSignalProcessed (signalId : String) (error : Option PyError) :
    Keeps FiniteConn (fun _ => True) (markSignalProcessed signalId error) :=
  (keeps_elsewhere fun _ _ h => by cases h; exact ⟨rfl, rfl⟩).bind fun _ _ => keeps_commit

lemma keeps_createPosition {row : PositionRow} (hrow : FinitePosition row) :
    Keeps FiniteConn (fun _ => True) (createPosition row) := by
  refine (keeps_execute fun t t' ht h => ?_).bind fun _ _ => keeps_commit
  split at h
  · cases hi : insertUnique "positions.position_id" t.positions row with
    | error e =>
      rw [hi] at h
      cases h
    | ok positions =>
      rw [hi] at h
      cases h
      refine ⟨fun p hp => ?_, ht.trades⟩
      rw [(insertUnique_eq_ok.mp hi).2, List.mem_append, List.mem_singleton] at hp
      rcases hp with hp | rfl
      · exact ht.positions p hp
      · exact hrow
  · cases h

/-- A position that is read is finite. -/
lemma keeps_getPosition (positionId : String) :
    Keeps FiniteConn (fun o => ∀ p, o = some p → FinitePosition p) (getPosition positionId) := by
  refine (keeps_query _).mono ?_
  rintro o ⟨t, ht, rfl⟩ p hp
  exact ht.positions p ((t.positions.find?_some_iff _ _).mp hp).1

/-- An update of a position that leaves its numbers finite. -/
lemma keeps_update (positionId : String) {f : PositionRow → PositionRow}
    (hf : ∀ p, (f p).positionId = p.positionId)
    (hfin : ∀ p, FinitePosition p → FinitePosition (f p)) :
    Keeps FiniteConn (fun _ => True) (execute fun t => .ok { t with
      positions := t.positions.modify positionId f hf }) := by
  refine keeps_execute fun t t' ht h => ?_
  cases h
  refine ⟨fun p hp => ?_, ht.trades⟩
  rcases (t.positions.mem_modify positionId f hf p).mp hp with ⟨hp, -⟩ | ⟨r, hr, -, rfl⟩
  · exact ht.positions p hp
  · exact hfin r (ht.positions r hr)

lemma keeps_modifyPosition (positionId : String) (tp sl : Option PyFloat) (metadata : Text) :
    Keeps FiniteConn (fun _ => True) (modifyPosition positionId tp sl metadata) := by
  have hwrite : ∀ merged : Option Text, Keeps FiniteConn (fun _ => True)
      (if tp.isNone && sl.isNone && merged.isNone then (pure () : Db Unit) else do
        execute fun t => .ok { t with
          positions := t.positions.modify positionId (·.updated tp sl merged)
            (PositionRow.positionId_updated tp sl merged) }
        commit) := by
    intro merged
    split
    · exact .pure trivial
    · exact (keeps_update positionId (f := (·.updated tp sl merged)) _
        fun p hp => ⟨hp.entryPrice, hp.qty, hp.feePct⟩).bind fun _ _ => keeps_commit
  dsimp only [modifyPosition]
  split
  · exact hwrite none
  · exact (keeps_getPosition _).bind fun _ _ => (Keeps.ofExcept (Q := fun _ => True)
      fun _ _ => trivial).bind fun m _ => hwrite (some m)

/-- A close at a finite price of a finite quantity, or of the whole position. -/
lemma keeps_closePosition (uuid positionId : String) (exit : ℚ) (reason closedAt : String)
    (metadata : Text) {qty : Option PyFloat} (hqty : ∀ q, qty = some q → ∃ r : ℚ, q = .fin r) :
    Keeps FiniteConn (fun _ => True)
      (closePosition uuid positionId (some (.fin exit)) reason closedAt metadata qty) := by
  refine (keeps_getPosition positionId).bind fun o ho => ?_
  cases o with
  | none => exact .pure trivial
  | some pos =>
  have hpos : FinitePosition pos := ho pos rfl
  refine (Keeps.ofExcept (Q := fun q : PyFloat => ∃ r : ℚ, q = .fin r) fun q hq => ?_).bind
    fun q hq => ?_
  · cases qty with
    | none => exact isNumber_of_need hpos.qty hq
    | some a =>
      obtain ⟨r, rfl⟩ := hqty a rfl
      obtain ⟨held, hheld⟩ := hpos.qty
      rw [closeQuantity, hheld] at hq
      cases hq
      rw [PyFloat.min_fin]
      exact ⟨_, rfl⟩
  obtain ⟨q, rfl⟩ := hq
  split
  · exact .pure trivial
  refine (Keeps.ofExcept (Q := fun o : PyFloat => ∃ r : ℚ, o = .fin r) fun o ho =>
    isNumber_of_need hpos.qty ho).bind fun o ho => ?_
  obtain ⟨o, rfl⟩ := ho
  refine (Keeps.ofExcept (Q := FiniteTrade) fun t ht => closingTrade_finite hpos ht).bind
    fun trade htrade => ?_
  have hbook : Keeps FiniteConn (fun _ => True) (execute fun t =>
      (insertUnique "trades.trade_id" t.trades trade).map fun r => { t with trades := r }) := by
    refine keeps_execute fun t t' ht h => ?_
    cases hi : insertUnique "trades.trade_id" t.trades trade with
    | error e =>
      rw [hi] at h
      cases h
    | ok trades =>
      rw [hi] at h
      cases h
      refine ⟨ht.positions, fun r hr => ?_⟩
      rw [(insertUnique_eq_ok.mp hi).2, List.mem_append, List.mem_singleton] at hr
      rcases hr with hr | rfl
      · exact ht.trades r hr
      · exact htrade
  refine hbook.bind fun _ _ => ?_
  split
  · refine (keeps_execute fun t t' ht h => ?_).bind fun _ _ => keeps_commit
    cases h
    exact ⟨fun p hp => ht.positions p ((t.positions.mem_erase _ _).mp hp).1, ht.trades⟩
  · refine (Keeps.ofExcept (Q := fun _ => True) fun _ _ => trivial).bind fun merged _ => ?_
    refine (keeps_update positionId (f := (·.reduced _ merged)) _
      fun p hp => ⟨hp.entryPrice, ?_, hp.feePct⟩).bind fun _ _ => keeps_commit
    simp only [PositionRow.reduced, PyFloat.sub_fin, PyFloat.zero_eq, PyFloat.max_fin, real_fin]
    exact ⟨_, rfl⟩

/-! ## Messages and passes -/

variable {ex : Executor} (hslip : ex.slippagePct.isFinite = true)

include hslip in
lemma keeps_processOpen (env : Env) {signal : OpenSignal} (hentry : ∃ q : ℚ, signal.entry = .fin q)
    (hqty : ∃ q : ℚ, signal.qty = .fin q) (hfee : ∃ q : ℚ, signal.feePct = .fin q) :
    Keeps FiniteConn (fun _ => True) (ex.processOpen env signal none) := by
  have hrow : FinitePosition (ex.openRow env signal none) := by
    obtain ⟨entry, hentry⟩ := hentry
    obtain ⟨qty, hqty⟩ := hqty
    obtain ⟨feePct, hfee⟩ := hfee
    obtain ⟨fill, hfill⟩ := applySlippage_finite hslip entry signal.side false
    refine ⟨⟨fill, ?_⟩, ⟨qty, ?_⟩, ⟨feePct, ?_⟩⟩
    · simp only [Executor.openRow, Executor.openFill, Option.getD_none, FillPrice.value, hentry, hfill,
        real_fin]
    · simp only [Executor.openRow, hqty, real_fin]
    · simp only [Executor.openRow, hfee, real_fin]
  refine (keeps_registerAlpha _ _).bind fun _ _ => (keeps_query _).bind fun existing _ => ?_
  split
  · exact .throw _
  · exact (keeps_createPosition hrow).bind fun _ _ => .pure trivial

lemma keeps_processModify (signal : ModifySignal) :
    Keeps FiniteConn (fun _ => True) (Executor.processModify signal) := by
  refine (keeps_getPosition _).bind fun pos _ => ?_
  cases pos with
  | none => exact .throw _
  | some pos => exact (Keeps.ofExcept (Q := fun _ => True) fun _ _ => trivial).bind fun _ _ =>
      (keeps_modifyPosition _ _ _ _).bind fun _ _ => .pure trivial

/-- The reference price of a close is finite when the exit price of the signal is. -/
lemma closeRefPrice_finite {signal : CloseSignal} {pos : PositionRow} (hpos : FinitePosition pos)
    (hexit : OptFinite signal.exitPrice) : IsNumber (Executor.closeRefPrice signal pos) := by
  cases h : signal.exitPrice with
  | none =>
    rw [Executor.closeRefPrice, h]
    exact hpos.entryPrice
  | some x =>
    obtain ⟨q, rfl⟩ := (PyFloat.isFinite_iff x).mp (hexit x h)
    simp only [Executor.closeRefPrice, h]
    split
    · exact ⟨q, rfl⟩
    · exact hpos.entryPrice

include hslip in
lemma closeFill_finite {signal : CloseSignal} {pos : PositionRow} (hpos : FinitePosition pos)
    (hexit : OptFinite signal.exitPrice) {p : Option PyFloat × Entries}
    (h : ex.closeFill signal pos none = .ok p) : IsNumber p.1 := by
  obtain ⟨ref, href⟩ := closeRefPrice_finite hpos hexit
  simp only [Executor.closeFill] at h
  split at h
  · cases h
    exact ⟨ref, href⟩
  · rw [href] at h
    cases h
    obtain ⟨q, hq⟩ := applySlippage_finite hslip ref pos.side true
    exact ⟨q, congrArg some hq⟩

lemma checkCloseQty_finite {signal : CloseSignal} {pos : PositionRow} (hpos : FinitePosition pos)
    (hqty : signal.qty = none ∨ ∃ q : ℚ, signal.qty = some (.fin q)) {x : PyFloat}
    (h : Executor.checkCloseQty signal pos = .ok x) : ∃ q : ℚ, x = .fin q := by
  simp only [Executor.checkCloseQty] at h
  obtain ⟨q, hq, h⟩ := bind_eq_ok h
  have hfin : ∃ r : ℚ, q = .fin r := by
    rcases hqty with hnone | ⟨r, hsome⟩
    · rw [hnone, Option.none_or] at hq
      exact isNumber_of_need hpos.qty hq
    · rw [hsome] at hq
      cases hq
      exact ⟨r, rfl⟩
  split at h
  · obtain ⟨_, h', -⟩ := bind_eq_ok h
    cases h'
  · obtain ⟨_, -, h⟩ := bind_eq_ok h
    split at h
    · obtain ⟨_, h', -⟩ := bind_eq_ok h
      cases h'
    · cases h
      exact hfin

include hslip in
lemma keeps_processClose (env : Env) {signal : CloseSignal} (hexit : OptFinite signal.exitPrice)
    (hqty : signal.qty = none ∨ ∃ q : ℚ, signal.qty = some (.fin q)) :
    Keeps FiniteConn (fun _ => True) (ex.processClose env signal none) := by
  refine (keeps_getPosition _).bind fun o ho => ?_
  cases o with
  | none => exact .throw _
  | some pos =>
  have hpos : FinitePosition pos := ho pos rfl
  refine (Keeps.ofExcept (Q := fun q : PyFloat => ∃ r : ℚ, q = .fin r)
    fun _ h => checkCloseQty_finite hpos hqty h).bind fun q hq => ?_
  refine (Keeps.ofExcept (Q := fun p : Option PyFloat × Entries => IsNumber p.1)
    fun _ h => closeFill_finite hslip hpos hexit h).bind fun p hp => ?_
  obtain ⟨exit, execution⟩ := p
  obtain ⟨x, rfl⟩ : ∃ x : ℚ, exit = some (.fin x) := hp
  exact (keeps_closePosition _ _ x _ _ _ fun r hr => by cases hr; exact hq).bind fun _ _ =>
    (Keeps.ofExcept (Q := fun _ => True) fun _ _ => trivial).bind fun _ _ => .pure trivial

lemma keeps_insertColumns (alphaId : String) (i : ℕ) (columns : List Json) :
    Keeps FiniteConn (fun _ => True) (insertColumns alphaId i columns) := by
  induction columns generalizing i with
  | nil => exact .pure trivial
  | cons col rest ih =>
    refine (Keeps.ofExcept (Q := fun _ => True) fun _ _ => trivial).bind fun v _ =>
      (keeps_elsewhere fun t t' h => ?_).bind fun _ _ => ih (i + 1)
    obtain ⟨row, -, h⟩ := bind_eq_ok h
    obtain ⟨c, -, h⟩ := bind_eq_ok h
    cases h
    exact ⟨rfl, rfl⟩

lemma keeps_processRegisterColumns (env : Env) (signal : RegisterColumnsSignal) :
    Keeps FiniteConn (fun _ => True) (Executor.processRegisterColumns env signal) := by
  unfold Executor.processRegisterColumns
  split
  · exact .throw _
  · refine (keeps_registerAlpha _ _).bind fun _ _ => Keeps.bind (Q := fun _ => True) ?_
      fun _ _ => .pure trivial
    exact (keeps_elsewhere fun _ _ h => by cases h; exact ⟨rfl, rfl⟩).bind fun _ _ =>
      (keeps_insertColumns _ _ _).bind fun _ _ => keeps_commit
  · exact .throw _

/-- A message whose fee and exit price are finite, with the fixed-percentage fill. -/
def FiniteMoney (data : RawSignal) : Prop :=
  match SignalType.ofString? (data.type.getD "") with
  | some .open => SpellsFinite data.feePct
  | some .close => SpellsFinite data.exitPrice
  | _ => True

lemma type_of_parseOpen {data : RawSignal} {signal : OpenSignal}
    (h : parseSignal data = .ok (.open signal)) :
    SignalType.ofString? (data.type.getD "") = some .open := by
  simp only [parseSignal] at h
  split at h
  · cases h
  · assumption
  · cases hp : parseModify data <;> simp [hp, Except.map] at h
  · cases hp : parseClose data <;> simp [hp, Except.map] at h
  · cases hp : parseRegisterColumns data <;> simp [hp, Except.map] at h

lemma type_of_parseClose {data : RawSignal} {signal : CloseSignal}
    (h : parseSignal data = .ok (.close signal)) :
    SignalType.ofString? (data.type.getD "") = some .close := by
  simp only [parseSignal] at h
  split at h
  · cases h
  · cases hp : parseOpen data <;> simp [hp, Except.map] at h
  · cases hp : parseModify data <;> simp [hp, Except.map] at h
  · assumption
  · cases hp : parseRegisterColumns data <;> simp [hp, Except.map] at h

lemma feePct_of_parseOpen {data : RawSignal} {signal : OpenSignal}
    (h : parseSignal data = .ok (.open signal)) : floatOrZero data.feePct = .ok signal.feePct := by
  have hp := parseOpen_of_parseSignal h
  simp only [parseOpen] at hp
  obtain ⟨_, -, hp⟩ := bind_eq_ok hp
  obtain ⟨_, -, hp⟩ := bind_eq_ok hp
  obtain ⟨_, -, hp⟩ := bind_eq_ok hp
  obtain ⟨_, -, hp⟩ := bind_eq_ok hp
  obtain ⟨_, -, hp⟩ := bind_eq_ok hp
  obtain ⟨_, -, hp⟩ := bind_eq_ok hp
  obtain ⟨_, -, hp⟩ := bind_eq_ok hp
  obtain ⟨_, -, hp⟩ := bind_eq_ok hp
  obtain ⟨_, -, hp⟩ := bind_eq_ok hp
  obtain ⟨_, hfee, hp⟩ := bind_eq_ok hp
  cases hp
  exact hfee

lemma exitPrice_of_parseClose {data : RawSignal} {signal : CloseSignal}
    (h : parseSignal data = .ok (.close signal)) : optFloat data.exitPrice = .ok signal.exitPrice := by
  have hp := parseClose_of_parseSignal h
  simp only [parseClose] at hp
  obtain ⟨_, -, hp⟩ := bind_eq_ok hp
  obtain ⟨_, -, hp⟩ := bind_eq_ok hp
  obtain ⟨_, hexit, hp⟩ := bind_eq_ok hp
  obtain ⟨_, -, hp⟩ := bind_eq_ok hp
  cases hp
  exact hexit

include hslip in
lemma keeps_handle (env : Env) {data : RawSignal} (hmoney : FiniteMoney data) {signal : Signal}
    (h : parseSignal data = .ok signal) :
    Keeps FiniteConn (fun _ => True) (handle ex env signal none) := by
  cases signal with
  | «open» signal =>
    rw [FiniteMoney, type_of_parseOpen h] at hmoney
    obtain ⟨hentry, hqty⟩ := OpenSignal.finite h
    exact keeps_processOpen hslip env hentry hqty ((PyFloat.isFinite_iff _).mp
      ((floatOrZero_finite_iff (feePct_of_parseOpen h)).mpr hmoney))
  | modify signal => exact keeps_processModify signal
  | close signal =>
    rw [FiniteMoney, type_of_parseClose h] at hmoney
    exact keeps_processClose hslip env
      ((optFloat_finite_iff (exitPrice_of_parseClose h)).mpr hmoney) (CloseSignal.qty_finite h)
  | registerColumns signal => exact keeps_processRegisterColumns env signal

include hslip in
/-- A message with finite money keeps the rows finite. -/
theorem keeps_processSignalMessage {env : Env} (hfill : env.fill = none) {data : RawSignal}
    (hmoney : FiniteMoney data) :
    Keeps FiniteConn (fun _ => True) (processSignalMessage ex env data) := by
  have hduplicate : Keeps FiniteConn (fun _ => True) (isDuplicate data) := by
    unfold isDuplicate
    split
    · exact (keeps_query _).mono fun _ _ => trivial
    · exact .pure trivial
  refine hduplicate.bind fun b _ => ?_
  split
  · exact .pure trivial
  split
  · exact (keeps_transaction ((keeps_logSignal _ _ _ _ _).bind fun _ _ =>
      keeps_markSignalProcessed _ _)).bind fun _ _ => .pure trivial
  · rename_i signal hparse
    have hresolve : resolveFill env signal = pure none := by
      simp only [resolveFill, hfill]
    rw [hresolve]
    refine Keeps.bind (Q := fun fill => fill = none) (.pure rfl) fun fill hnone => ?_
    subst hnone
    refine keeps_transaction ((keeps_logSignal _ _ _ _ _).bind fun _ _ => Keeps.tryCatch ?_ ?_)
    · exact (keeps_handle hslip env hmoney hparse).bind fun _ _ =>
        (keeps_markSignalProcessed _ _).bind fun _ _ => .pure trivial
    · exact fun e => (keeps_markSignalProcessed _ _).bind fun _ _ => .pure trivial

/-- A price that hits is not NaN. -/
lemma ne_nan_of_tpslHit {pos : PositionRow} {price : PyFloat} {hit : String × PyFloat}
    (h : Executor.tpslHit pos price = some hit) : price ≠ .nan := by
  rintro rfl
  have hno : ∀ stop : Option PyFloat, stop.filter (fun _ => false) = none := by
    intro stop
    cases stop <;> rfl
  simp [Executor.tpslHit, hno] at h

/-- A TP/SL pass with the fixed-percentage fill whose prices are not infinite. -/
structure FinitePass (env : Executor.TpslEnv) : Prop where
  fill : env.fill = none
  price : ∀ symbol side quote, env.price symbol side = some quote → ∀ b, quote.price ≠ .inf b

include hslip in
/-- A pass over the TP/SL levels keeps the rows finite. -/
theorem keeps_checkTpslHits {env : Executor.TpslEnv} (henv : FinitePass env) :
    Keeps FiniteConn (fun _ => True) (ex.checkTpslHits env) := by
  have hposition : ∀ pos, Keeps FiniteConn (fun _ => True) (ex.checkPosition env pos) := by
    intro pos
    unfold Executor.checkPosition
    split
    · exact .pure trivial
    rename_i quote hquote
    split
    · exact .pure trivial
    rename_i hhit
    simp only [henv.fill, Option.isSome_none, Bool.false_eq_true, if_false]
    obtain ⟨price, hprice⟩ : ∃ q : ℚ, quote.price = .fin q := by
      cases hp : quote.price with
      | nan => exact absurd hp (ne_nan_of_tpslHit hhit)
      | inf b => exact absurd hp (henv.price _ _ _ hquote b)
      | fin q => exact ⟨q, rfl⟩
    obtain ⟨fill, hfill⟩ := applySlippage_finite hslip price pos.side true
    have hvalue : (ex.tpslFill env pos quote).value = .fin fill := by
      simp only [Executor.tpslFill, henv.fill, FillPrice.value, hprice, hfill]
    rw [hvalue]
    exact (keeps_closePosition _ _ fill _ _ _ fun _ h => by cases h).bind fun _ _ => .pure trivial
  have hall : ∀ positions, Keeps FiniteConn (fun _ => True) (ex.checkPositions env positions) := by
    intro positions
    induction positions with
    | nil => exact .pure trivial
    | cons pos rest ih => exact (hposition pos).bind fun _ _ => ih.bind fun _ _ => .pure trivial
  exact (keeps_query _).bind fun positions _ => hall positions

end Keeps

/-! ## Any schedule -/

/-- What the worker runs on the shared connection. -/
inductive Job
  | message (m : Delivery)
  | pass (env : Executor.TpslEnv)

/-- The coroutine of a job. -/
def Job.program (ex : Executor) : Job → Db Unit
  | .message m => do let _ ← processSignalMessage ex m.env m.data; pure ()
  | .pass env => do let _ ← ex.checkTpslHits env; pure ()

/-- The job fills at a fixed percentage and brings no NaN and no infinity into a computed column. -/
def Job.Fine : Job → Prop
  | .message m => m.env.fill = none ∧ FiniteMoney m.data
  | .pass env => FinitePass env

lemma Job.keeps {ex : Executor} (hslip : ex.slippagePct.isFinite = true) {job : Job}
    (h : job.Fine) : (job.program ex).Keeps FiniteConn fun _ => True := by
  cases job with
  | message m => exact (keeps_processSignalMessage hslip h.1 h.2).bind fun _ _ => .pure trivial
  | pass env => exact (keeps_checkTpslHits hslip h).bind fun _ _ => .pure trivial

/-- One message after the other. -/
def oneByOne (first second : Delivery) : List (Pool.Action Job) :=
  .start (.message first) :: List.replicate 40 (.turn 0) ++
    .start (.message second) :: List.replicate 40 (.turn 1)

end PaperTrade.Worker
