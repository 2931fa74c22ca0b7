import PaperTrade.Runtime.Along
import PaperTrade.Runtime.Table

/-!
# The stop streak of deobietcophaialphakhong

The engine counts the stops in a row on one side, over all of its symbols, and after `REVERSE_SL_COUNT` of
them the next decision on a free symbol opens a market position on the other side.

Every decision, every round of `_manage_positions`, every price alert and every reconciliation runs to its
end before the next one starts, so each of them is one event. The prices are of any type with the operations
and comparisons of the source, of which no law is used. What `_compute_indicators` finds in the candles
comes with the event, and so does what `can_open_new_trades` and `uuid4` return.

`history` has what the engine does with positions, the latest first. `_last_zones` and `_last_trail` are
for an audit, and the times and the leverage of a position are only passed on; they are left out.
-/

namespace PaperTrade.Alphas.SongThan

open PaperTrade.Runtime

inductive Side
  | long
  | short
deriving DecidableEq

def Side.opposite : Side → Side
  | .long => .short
  | .short => .long

/-- The reasons of `_close_position`. -/
inductive Reason
  | sl
  | tp
  | tpTrail
deriving DecidableEq

/-- The settings of the engine. -/
structure Settings (K : Type) where
  investPerTrade : K
  leverage : K
  slLongPct : K
  slShortPct : K
  tpPct : K
  trailM1Pct : K
  trailM1SlPct : K
  trailM2Pct : K
  trailM2SlPct : K
  reverseSlCount : ℤ := 3
  reverseSlPct : K
  reverseTpPct : K
  maxConcurrentPositions : ℤ := 50

/-- A position. One that is opened has an entry by which its size can be divided; one that is restored may
lack a level. -/
structure Position (K : Type) [Zero K] where
  positionId : String
  side : Side
  entry : K
  sl : Option K
  tp : Option K
  size : K
  milestone : ℤ := 0
  isReverse : Bool
  entry_ne_zero : entry ≠ 0

structure Bar (K : Type) where
  high : K
  low : K
  close : K

/-- The edges of the zones at which limit orders rest. -/
structure Zones (K : Type) where
  greenHigh : K
  redLow : K

structure Indicators (K : Type) where
  zones : Option (Zones K)
  latest : Bar K

structure LimitOrder (K : Type) where
  side : Side
  limitPrice : K

/-- The prices of an alert that can be read as floats. -/
structure Alert (K : Type) where
  symbol : String
  bid : Option K := none
  ask : Option K := none
  last : Option K := none
  price : Option K := none

/-- What happens to a position. -/
inductive Entry (K : Type) [Zero K]
  | opened (symbol : String) (pos : Position K) (qty : K)
  | modified (positionId : String) (sl : K)
  | closed (symbol : String) (pos : Position K) (exitPrice : K) (reason : Reason)
  /-- closed elsewhere: the position is no longer in the snapshot -/
  | gone (symbol : String) (pos : Position K)

structure Engine (K : Type) [Zero K] where
  openPositions : Dict String (Position K) := Table.empty
  pendingOrders : Dict String (List (LimitOrder K)) := Table.empty
  consecutiveSl : ℕ := 0
  lastSlSide : Option Side := none
  history : List (Entry K) := []

/-- The engine as a call leaves it, with a return or with an exception. -/
abbrev Outcome (K : Type) [Zero K] := Except (Engine K) (Engine K)

def Outcome.state {K : Type} [Zero K] : Outcome K → Engine K
  | .ok s => s
  | .error s => s

variable {K : Type} [Zero K] [One K] [Add K] [Sub K] [Mul K] [Div K] [LE K] [LT K] [DecidableEq K]
  [DecidableLE K] [DecidableLT K]

/-! ## Levels -/

/-- The prices reach the stop. -/
def StopHit (side : Side) (sl low high : K) : Prop :=
  match side with
  | .long => low ≤ sl
  | .short => sl ≤ high

instance (side : Side) (sl low high : K) : Decidable (StopHit side sl low high) := by
  cases side <;> exact inferInstanceAs (Decidable (_ ≤ _))

/-- The prices reach the target. -/
def TargetHit (side : Side) (tp low high : K) : Prop :=
  match side with
  | .long => tp ≤ high
  | .short => low ≤ tp

instance (side : Side) (tp low high : K) : Decidable (TargetHit side tp low high) := by
  cases side <;> exact inferInstanceAs (Decidable (_ ≤ _))

/-- `get_trailing_milestone`. -/
def getTrailingMilestone (entry : K) (side : Side) (bar : Bar K) (m1Pct m2Pct : K) : ℤ :=
  let pnlPct := match side with
    | .long => (bar.high - entry) / entry
    | .short => (entry - bar.low) / entry
  if m2Pct ≤ pnlPct then 2 else if m1Pct ≤ pnlPct then 1 else 0

/-- `update_trailing_sl`. -/
def updateTrailingSl (entry : K) (side : Side) (milestone : ℤ) (m1SlPct m2SlPct : K) : Option K :=
  let offset := if 2 ≤ milestone then some m2SlPct else if 1 ≤ milestone then some m1SlPct else none
  offset.map fun x => match side with
    | .long => entry * (1 + x)
    | .short => entry * (1 - x)

/-- `get_entry_signals`. -/
def getEntrySignals (low high : K) (zones : Zones K) : List (LimitOrder K) :=
  (if low ≤ zones.greenHigh then [{ side := .long, limitPrice := zones.greenHigh }] else []) ++
    if zones.redLow ≤ high then [{ side := .short, limitPrice := zones.redLow }] else []

/-- `_trigger_price`. -/
def triggerPrice (side : Side) (tick : Alert K) : Option K :=
  let keys := match side with
    | .long => [tick.bid, tick.last, tick.price]
    | .short => [tick.ask, tick.last, tick.price]
  keys.findSome? fun value => value.filter fun price => 0 < price

/-! ## Opening and closing -/

/-- `_record_sl`. -/
def recordSl (s : Engine K) (side : Side) : Engine K :=
  if s.lastSlSide = some side then { s with consecutiveSl := s.consecutiveSl + 1 }
  else { s with consecutiveSl := 1, lastSlSide := some side }

/-- `_open_position`. -/
def openPosition (cfg : Settings K) (s : Engine K) (canOpen : Bool) (uuid symbol : String) (side : Side)
    (entry : K) (isReverse : Bool) : Outcome K :=
  if canOpen = false ∨ cfg.maxConcurrentPositions ≤ s.openPositions.rows.length then .ok s
  else if h : entry = 0 then .error s -- `size / entry`
  else
    let slPct := if isReverse then cfg.reverseSlPct else
      match side with
      | .long => cfg.slLongPct
      | .short => cfg.slShortPct
    let tpPct := if isReverse then cfg.reverseTpPct else cfg.tpPct
    let levels := match side with
      | .long => (entry * (1 - slPct), entry * (1 + tpPct))
      | .short => (entry * (1 + slPct), entry * (1 - tpPct))
    let size := cfg.investPerTrade * cfg.leverage
    let pos : Position K :=
      { positionId := uuid, side, entry, sl := some levels.1, tp := some levels.2, size, isReverse
        entry_ne_zero := h }
    .ok { s with
      openPositions := s.openPositions.set symbol pos
      history := .opened symbol pos (size / entry) :: s.history }

/-- `_close_position`. -/
def closePosition (s : Engine K) (symbol : String) (pos : Position K) (exitPrice : K) (reason : Reason) :
    Engine K :=
  { s with
    openPositions := s.openPositions.erase symbol
    history := .closed symbol pos exitPrice reason :: s.history }

/-- The stop is moved only towards the price. -/
def Tighter (side : Side) (newSl sl : K) : Prop :=
  match side with
  | .long => sl < newSl
  | .short => newSl < sl

instance (side : Side) (newSl sl : K) : Decidable (Tighter side newSl sl) := by
  cases side <;> exact inferInstanceAs (Decidable (_ < _))

/-- `_manage_position`: the milestone and the stop that it moves. -/
def upgrade (cfg : Settings K) (s : Engine K) (symbol : String) (pos : Position K) (sl : K) (bar : Bar K) :
    Engine K × Position K :=
  let milestone := getTrailingMilestone pos.entry pos.side bar cfg.trailM1Pct cfg.trailM2Pct
  if pos.milestone < milestone then
    let pos := { pos with milestone }
    match (updateTrailingSl pos.entry pos.side milestone cfg.trailM1SlPct cfg.trailM2SlPct).filter
        fun newSl => Tighter pos.side newSl sl with
    | some newSl =>
      let pos := { pos with sl := some newSl }
      ({ s with
        openPositions := s.openPositions.set symbol pos
        history := .modified pos.positionId newSl :: s.history }, pos)
    | none => ({ s with openPositions := s.openPositions.set symbol pos }, pos)
  else (s, pos)

/-- `_manage_position`. A comparison with a level that is missing raises. -/
def managePosition (cfg : Settings K) (s : Engine K) (symbol : String) (pos : Position K) (bar : Bar K) :
    Outcome K :=
  match pos.sl with
  | none => .error s
  | some sl =>
    if StopHit pos.side sl bar.low bar.high then
      .ok (recordSl (closePosition s symbol pos sl .sl) pos.side)
    else
      let u := upgrade cfg s symbol pos sl bar
      if 2 ≤ u.2.milestone then .ok (closePosition u.1 symbol u.2 bar.close .tpTrail)
      else match u.2.tp with
        | none => .error u.1
        | some tp =>
          if TargetHit u.2.side tp bar.low bar.high then .ok (closePosition u.1 symbol u.2 tp .tp)
          else .ok u.1

/-- `on_price_alert_message`. -/
def onPriceAlertMessage (s : Engine K) (msg : Alert K) : Outcome K :=
  if msg.symbol = "" then .ok s
  else match s.openPositions.get? msg.symbol with
    | none => .ok s
    | some pos =>
      match triggerPrice pos.side msg with
      | none => .ok s
      | some price =>
        if price ≤ 0 then .ok s
        else match pos.sl with
          | none => .error s
          | some sl =>
            if StopHit pos.side sl price price then
              .ok (recordSl (closePosition s msg.symbol pos price .sl) pos.side)
            else match pos.tp with
              | none => .error s
              | some tp =>
                if TargetHit pos.side tp price price then
                  .ok (closePosition s msg.symbol pos price .tp)
                else .ok s

/-! ## A decision -/

/-- `_pending_orders.get(symbol, [])`. -/
def Engine.pending (s : Engine K) (symbol : String) : List (LimitOrder K) :=
  (s.pendingOrders.get? symbol).getD []

def Engine.popPending (s : Engine K) (symbol : String) : Engine K :=
  { s with pendingOrders := s.pendingOrders.erase symbol }

/-- The bar reaches the price of a limit order. -/
def Fills (bar : Bar K) (order : LimitOrder K) : Prop :=
  match order.side with
  | .long => bar.low ≤ order.limitPrice
  | .short => order.limitPrice ≤ bar.high

instance (bar : Bar K) (order : LimitOrder K) : Decidable (Fills bar order) := by
  unfold Fills
  split <;> infer_instance

/-- `_apply_decision`: the position of the symbol, if it has one. -/
def manageAt (cfg : Settings K) (s : Engine K) (symbol : String) (bar : Bar K) : Outcome K :=
  match s.openPositions.get? symbol with
  | none => .ok s
  | some pos => managePosition cfg s symbol pos bar

/-- `_apply_decision`: the new limit orders of a symbol without a position. -/
def placeOrders (cfg : Settings K) (s : Engine K) (canOpen : Bool) (symbol : String) (zones : Zones K)
    (bar : Bar K) : Engine K :=
  if s.pending symbol = [] then
    let s := s.popPending symbol
    let orders := getEntrySignals bar.low bar.high zones
    if canOpen = true ∧ (s.openPositions.rows.length : ℤ) < cfg.maxConcurrentPositions ∧ orders ≠ [] then
      { s with pendingOrders := s.pendingOrders.set symbol orders }
    else s
  else s

/-- `_apply_decision`: the fill of a pending order, or new orders. -/
def fillOrPlace (cfg : Settings K) (s : Engine K) (canOpen : Bool) (uuid symbol : String) (zones : Zones K)
    (bar : Bar K) : Outcome K :=
  match (s.pending symbol).find? fun order => Fills bar order with
  | some order =>
    (openPosition cfg s canOpen uuid symbol order.side order.limitPrice false).map fun s =>
      s.popPending symbol
  | none => .ok (placeOrders cfg s canOpen symbol zones bar)

/-- `_apply_decision`: the condition of a reverse entry. -/
def ReverseDue (cfg : Settings K) (s : Engine K) (canOpen : Bool) (symbol : String) : Prop :=
  cfg.reverseSlCount ≤ s.consecutiveSl ∧ s.openPositions.contains symbol = false ∧
    s.pending symbol = [] ∧ canOpen = true

instance (cfg : Settings K) (s : Engine K) (canOpen : Bool) (symbol : String) :
    Decidable (ReverseDue cfg s canOpen symbol) := by
  unfold ReverseDue
  infer_instance

/-- `"LONG" if self._last_sl_side == "SHORT" else "SHORT"` -/
def reverseSide (lastSlSide : Option Side) : Side :=
  if lastSlSide = some .short then .long else .short

/-- `_apply_decision`: the reverse entry. The streak is over, also if nothing was opened. -/
def reverseEntry (cfg : Settings K) (s : Engine K) (canOpen : Bool) (uuid symbol : String) (entry : K) :
    Outcome K :=
  (openPosition cfg s canOpen uuid symbol (reverseSide s.lastSlSide) entry true).map fun s =>
    { s with consecutiveSl := 0, lastSlSide := none }

/-- `_apply_decision`: a symbol without a position trades its limit orders. -/
def tradeOrders (cfg : Settings K) (s : Engine K) (canOpen : Bool) (uuid symbol : String) (zones : Zones K)
    (bar : Bar K) : Outcome K :=
  if s.openPositions.contains symbol = true then .ok (s.popPending symbol)
  else fillOrPlace cfg s canOpen uuid symbol zones bar

/-- `_apply_decision`. -/
def applyDecision (cfg : Settings K) (s : Engine K) (canOpen : Bool) (uuid symbol : String)
    (indic : Indicators K) : Outcome K :=
  match indic.zones with
  | none => .ok (s.popPending symbol)
  | some zones =>
    if ReverseDue cfg s canOpen symbol then reverseEntry cfg s canOpen uuid symbol indic.latest.close
    else (manageAt cfg s symbol indic.latest).bind fun s =>
      tradeOrders cfg s canOpen uuid symbol zones indic.latest

/-! ## Runs -/

/-- One round of the loop of `_manage_positions`, with the latest bar of the symbol. -/
def manageRound (cfg : Settings K) (bars : String → Option (Bar K)) (s : Engine K) (symbol : String) :
    Outcome K :=
  match bars symbol with
  | none => .ok s
  | some bar => manageAt cfg s symbol bar

/-- `_manage_positions`. -/
def managePositions (cfg : Settings K) (s : Engine K) (bars : String → Option (Bar K)) : Outcome K :=
  s.openPositions.keys.foldlM (manageRound cfg bars) s

/-- The positions that a snapshot does not list. -/
def dropped (s : Engine K) (listed : List (String × Position K)) : List (String × Position K) :=
  s.openPositions.rows.filter fun e => e.2.positionId ∉ listed.map fun e => e.2.positionId

/-- `reconcile_positions`: what it does with the positions, once the snapshot is read and restored. -/
def reconcilePositions (s : Engine K) (listed : List (String × Position K)) : Engine K :=
  { s with
    openPositions := listed.foldl (fun d e => d.set e.1 e.2)
      (s.openPositions.filter fun e => e.2.positionId ∈ listed.map fun e => e.2.positionId)
    history := (dropped s listed).map (fun e => .gone e.1 e.2) ++ s.history }

inductive Event (K : Type) [Zero K]
  | decision (canOpen : Bool) (uuid symbol : String) (indic : Indicators K)
  | manage (symbol : String) (bar : Bar K)
  | alert (msg : Alert K)
  | snapshot (listed : List (String × Position K))

def step (cfg : Settings K) (s : Engine K) : Event K → Engine K
  | .decision canOpen uuid symbol indic => (applyDecision cfg s canOpen uuid symbol indic).state
  | .manage symbol bar => (manageAt cfg s symbol bar).state
  | .alert msg => (onPriceAlertMessage s msg).state
  | .snapshot listed => reconcilePositions s listed

/-- A new engine, with the positions that were reconciled at the start. -/
def start (restored : Dict String (Position K)) : Engine K := { openPositions := restored }

/-- `_manage_positions` is a run of rounds; the one that raises is the last. -/
theorem managePositions_rounds (cfg : Settings K) (s : Engine K) (bars : String → Option (Bar K)) :
    ∃ rounds : List (String × Bar K), (managePositions cfg s bars).state =
      (rounds.map fun r => Event.manage r.1 r.2).foldl (step cfg) s := by
  unfold managePositions
  generalize s.openPositions.keys = symbols
  induction symbols generalizing s with
  | nil => exact ⟨[], rfl⟩
  | cons symbol symbols ih =>
    rw [List.foldlM_cons]
    cases hbar : bars symbol with
    | none =>
      obtain ⟨rounds, h⟩ := ih s
      refine ⟨rounds, ?_⟩
      rw [← h]
      simp only [manageRound, hbar]
      rfl
    | some bar =>
      cases hround : manageAt cfg s symbol bar with
      | error s' =>
        refine ⟨[(symbol, bar)], ?_⟩
        simp only [manageRound, hbar, hround]
        simp only [List.map_cons, List.map_nil, List.foldl_cons, List.foldl_nil, step, hround]
        rfl
      | ok s' =>
        obtain ⟨rounds, h⟩ := ih s'
        refine ⟨(symbol, bar) :: rounds, ?_⟩
        simp only [manageRound, hbar, hround]
        simp only [List.map_cons, List.foldl_cons, step, hround]
        exact h

/-! ## The law -/

/-- A position that was left: its side, and the reason if the engine closed it. -/
def exit? : Entry K → Option (Side × Option Reason)
  | .closed _ pos _ reason => some (pos.side, some reason)
  | .gone _ pos => some (pos.side, none)
  | _ => none

/-- The positions that were left, the latest first. -/
def exits (history : List (Entry K)) : List (Side × Option Reason) := history.filterMap exit?

/-- A position was opened with `is_reverse`. -/
def opensReverse : Entry K → Bool
  | .opened _ pos _ => pos.isReverse
  | _ => false

/-- The history after the last reverse trade was opened. -/
def sinceReverse (history : List (Entry K)) : List (Entry K) :=
  history.takeWhile fun e => !opensReverse e

/-- The exits for the reasons that `counts` accepts. -/
def counted (counts : Option Reason → Bool) (history : List (Entry K)) : List (Side × Option Reason) :=
  (exits history).filter fun x => counts x.2

/-- A reverse trade on `side` answers `n` stops: of the exits that count, the last `n` before it are stops
on the other side, and no reverse trade was opened after the first of them. -/
def Answers (counts : Option Reason → Bool) (n : ℕ) (side : Side) (before : List (Entry K)) : Prop :=
  (counted counts before).take n = List.replicate n (side.opposite, some .sl) ∧
    n ≤ (counted counts (sinceReverse before)).length

/-- Every reverse trade of a history answers stops. -/
def ReverseLaw (counts : Option Reason → Bool) (n : ℕ) (history : List (Entry K)) : Prop :=
  ∀ after symbol pos qty before, history = after ++ .opened symbol pos qty :: before →
    pos.isReverse = true → Answers counts n pos.side before

/-- A position is left at a target or a trailing target. -/
def LeavesAtTarget (cfg : Settings K) (pos : Position K) (bar : Bar K) : Prop :=
  match pos.sl with
  | none => False
  | some sl => ¬StopHit pos.side sl bar.low bar.high ∧
      (2 ≤ max pos.milestone
          (getTrailingMilestone pos.entry pos.side bar cfg.trailM1Pct cfg.trailM2Pct) ∨
        match pos.tp with
        | none => False
        | some tp => TargetHit pos.side tp bar.low bar.high)

instance (cfg : Settings K) (pos : Position K) (bar : Bar K) : Decidable (LeavesAtTarget cfg pos bar) := by
  unfold LeavesAtTarget
  cases pos.sl <;> cases pos.tp <;> infer_instance

/-- An event makes the engine leave a position otherwise than at its stop. -/
def LeavesOtherwise (cfg : Settings K) (s : Engine K) : Event K → Prop
  | .decision _ _ symbol indic =>
    indic.zones.isSome = true ∧
      match s.openPositions.get? symbol with
      | none => False
      | some pos => LeavesAtTarget cfg pos indic.latest
  | .manage symbol bar =>
    match s.openPositions.get? symbol with
    | none => False
    | some pos => LeavesAtTarget cfg pos bar
  | .alert msg =>
    msg.symbol ≠ "" ∧ match s.openPositions.get? msg.symbol with
    | none => False
    | some pos =>
      match triggerPrice pos.side msg, pos.sl, pos.tp with
      | some price, some sl, some tp =>
        ¬price ≤ 0 ∧ ¬StopHit pos.side sl price price ∧ TargetHit pos.side tp price price
      | _, _, _ => False
  | .snapshot listed => dropped s listed ≠ []

instance (cfg : Settings K) (s : Engine K) (e : Event K) : Decidable (LeavesOtherwise cfg s e) := by
  unfold LeavesOtherwise
  split
  · split <;> infer_instance
  · split <;> infer_instance
  · split
    · infer_instance
    · split <;> infer_instance
  · infer_instance

/-- The event leaves no position otherwise than at its stop while the streak counts. -/
def OnlyStops (cfg : Settings K) (s : Engine K) (e : Event K) : Prop :=
  LeavesOtherwise cfg s e → s.consecutiveSl = 0

instance (cfg : Settings K) (s : Engine K) (e : Event K) : Decidable (OnlyStops cfg s e) :=
  inferInstanceAs (Decidable (_ → _))

/-! ## Histories -/

section Histories

omit [One K] [Add K] [Sub K] [Mul K] [Div K] [LE K] [LT K] [DecidableEq K] [DecidableLE K]
  [DecidableLT K]

variable {counts : Option Reason → Bool} {n k : ℕ} {last : Option Side} {history : List (Entry K)}
  {e : Entry K}

/-- What the streak and the history have to do with each other. -/
structure Streak (counts : Option Reason → Bool) (n k : ℕ) (last : Option Side)
    (history : List (Entry K)) : Prop where
  /-- the exits since the last reverse trade start with the stops of the streak -/
  begins : k = 0 ∨ ∃ side rest, last = some side ∧
    counted counts (sinceReverse history) = List.replicate k (side, some .sl) ++ rest
  law : ReverseLaw counts n history

lemma sinceReverse_cons (h : opensReverse e = false) :
    sinceReverse (e :: history) = e :: sinceReverse history := by
  simp [sinceReverse, h]

lemma counted_cons_of_none (h : ∀ x, exit? e = some x → counts x.2 = false) :
    counted counts (e :: history) = counted counts history := by
  unfold counted exits
  cases hx : exit? e with
  | none => rw [List.filterMap_cons_none hx]
  | some x => rw [List.filterMap_cons_some hx, List.filter_cons_of_neg (by simp [h x hx])]

lemma counted_cons_of_some {x : Side × Option Reason} (hx : exit? e = some x) (h : counts x.2 = true) :
    counted counts (e :: history) = x :: counted counts history := by
  unfold counted exits
  rw [List.filterMap_cons_some hx, List.filter_cons_of_pos (p := fun x : Side × Option Reason => counts x.2) h]

lemma counted_true (history : List (Entry K)) : counted (fun _ => true) history = exits history := by
  simp [counted]

/-- What was left since the last reverse trade was left last. -/
lemma counted_sinceReverse_prefix :
    counted counts (sinceReverse history) <+: counted counts history := by
  unfold counted exits sinceReverse
  exact ((List.takeWhile_prefix _).filterMap _).filter _

lemma reverseLaw_cons : ReverseLaw counts n (e :: history) ↔
    (∀ symbol pos qty, e = .opened symbol pos qty → pos.isReverse = true →
      Answers counts n pos.side history) ∧ ReverseLaw counts n history := by
  constructor
  · intro h
    refine ⟨fun symbol pos qty he => h [] symbol pos qty history (by simp [he]), ?_⟩
    intro after symbol pos qty before hsplit
    exact h (e :: after) symbol pos qty before (by simp [hsplit])
  · rintro ⟨hhead, htail⟩ after symbol pos qty before hsplit
    cases after with
    | nil =>
      obtain ⟨rfl, rfl⟩ := List.cons.inj hsplit
      exact hhead symbol pos qty rfl
    | cons e' after => exact htail after symbol pos qty before (List.cons.inj hsplit).2

/-- An entry that opens no reverse trade keeps the law. -/
lemma ReverseLaw.cons (h : ReverseLaw counts n history) (he : opensReverse e = false) :
    ReverseLaw counts n (e :: history) := by
  refine reverseLaw_cons.mpr ⟨?_, h⟩
  rintro symbol pos qty rfl hrev
  simp [opensReverse, hrev] at he

lemma Streak.other (h : Streak counts n k last history) (he : opensReverse e = false)
    (hx : ∀ x, exit? e = some x → counts x.2 = true → k = 0) : Streak counts n k last (e :: history) where
  law := h.law.cons he
  begins := by
    by_cases hk : k = 0
    · exact .inl hk
    have hquiet : ∀ x, exit? e = some x → counts x.2 = false := fun x hex =>
      Bool.eq_false_iff.mpr fun hc => hk (hx x hex hc)
    rw [sinceReverse_cons he, counted_cons_of_none hquiet]
    exact h.begins

/-- A stop lengthens the streak of its side, or starts one. -/
lemma Streak.stop {side : Side} (h : Streak counts n k last history) (hc : counts (some .sl) = true)
    (he : opensReverse e = false) (hx : exit? e = some (side, some .sl)) :
    Streak counts n (if last = some side then k + 1 else 1) (some side) (e :: history) where
  law := h.law.cons he
  begins := by
    right
    rw [sinceReverse_cons he, counted_cons_of_some hx hc]
    by_cases hside : last = some side
    · obtain hk | ⟨side', rest, hlast, hrest⟩ := h.begins
      · exact ⟨side, _, rfl, by rw [if_pos hside, hk]; rfl⟩
      · have : side' = side := Option.some.inj (hlast.symm.trans hside)
        subst this
        exact ⟨side', rest, rfl, by rw [if_pos hside, hrest, List.replicate_succ, List.cons_append]⟩
    · exact ⟨side, _, rfl, by rw [if_neg hside]; rfl⟩

lemma Streak.reset (h : Streak counts n k last history) : Streak counts n 0 none history where
  law := h.law
  begins := .inl rfl

lemma opposite_reverseSide (side : Side) : (reverseSide (some side)).opposite = side := by
  cases side <;> rfl

/-- A streak of `n` stops may be answered. -/
lemma Streak.answers (h : Streak counts n k last history) (hn : n ≤ k) :
    Answers counts n (reverseSide last) history := by
  obtain rfl | hn0 := Nat.eq_zero_or_pos n
  · exact ⟨by simp, Nat.zero_le _⟩
  obtain hk | ⟨side, rest, rfl, hrest⟩ := h.begins
  · omega
  have hsince : counted counts (sinceReverse history) <+: counted counts history :=
    counted_sinceReverse_prefix
  obtain ⟨older, hprefix⟩ := hsince
  constructor
  · rw [← hprefix, hrest, opposite_reverseSide, List.append_assoc, List.take_append_of_le_length
      (by simpa using hn), List.take_replicate, Nat.min_eq_left hn]
  · rw [hrest, List.length_append, List.length_replicate]
    omega

/-- The reverse trade is opened and the streak is not used again. -/
lemma Streak.opened {symbol : String} {pos : Position K} {qty : K} (h : Streak counts n k last history)
    (hn : n ≤ k) (hside : pos.side = reverseSide last) :
    Streak counts n 0 none (.opened symbol pos qty :: history) where
  begins := .inl rfl
  law := by
    refine reverseLaw_cons.mpr ⟨?_, h.law⟩
    rintro symbol' pos' qty' heq -
    obtain ⟨rfl, rfl, rfl⟩ := Entry.opened.inj heq
    rw [hside]
    exact h.answers hn

end Histories

/-! ## Steps -/

section Steps

set_option linter.unusedSectionVars false

variable {counts : Option Reason → Bool} {n : ℕ} {cfg : Settings K} {s : Engine K}

def Kept (counts : Option Reason → Bool) (n : ℕ) (s : Engine K) : Prop :=
  Streak counts n s.consecutiveSl s.lastSlSide s.history

lemma openPosition_cases (cfg : Settings K) (s : Engine K) (canOpen : Bool) (uuid symbol : String)
    (side : Side) (entry : K) (isReverse : Bool) :
    openPosition cfg s canOpen uuid symbol side entry isReverse = .ok s ∨
    openPosition cfg s canOpen uuid symbol side entry isReverse = .error s ∨
    ∃ pos qty, pos.side = side ∧ pos.isReverse = isReverse ∧
      openPosition cfg s canOpen uuid symbol side entry isReverse = .ok { s with
        openPositions := s.openPositions.set symbol pos
        history := .opened symbol pos qty :: s.history } := by
  unfold openPosition
  by_cases hfull : canOpen = false ∨ cfg.maxConcurrentPositions ≤ s.openPositions.rows.length
  · exact .inl (if_pos hfull)
  rw [if_neg hfull]
  by_cases hzero : entry = 0
  · exact .inr (.inl (dif_pos hzero))
  rw [dif_neg hzero]
  exact .inr (.inr ⟨_, _, rfl, rfl, rfl⟩)

/-- The stop and the milestone of a position may have moved, and no more. -/
lemma upgrade_spec (cfg : Settings K) (s : Engine K) (symbol : String) (pos : Position K) (sl : K)
    (bar : Bar K) (hs : Kept counts n s) :
    Kept counts n (upgrade cfg s symbol pos sl bar).1 ∧
      (upgrade cfg s symbol pos sl bar).1.consecutiveSl = s.consecutiveSl ∧
      (upgrade cfg s symbol pos sl bar).2.tp = pos.tp ∧
      (upgrade cfg s symbol pos sl bar).2.side = pos.side ∧
      (upgrade cfg s symbol pos sl bar).2.milestone = max pos.milestone
        (getTrailingMilestone pos.entry pos.side bar cfg.trailM1Pct cfg.trailM2Pct) := by
  unfold upgrade
  dsimp only
  split_ifs with hm
  · split
    · exact ⟨Streak.other hs rfl (by simp [exit?]), rfl, rfl, rfl, (max_eq_right hm.le).symm⟩
    · exact ⟨hs, rfl, rfl, rfl, (max_eq_right hm.le).symm⟩
  · exact ⟨hs, rfl, rfl, rfl, (max_eq_left (not_lt.mp hm)).symm⟩

lemma kept_closeAtStop (hc : counts (some .sl) = true) (hs : Kept counts n s) (symbol : String)
    (pos : Position K) (price : K) :
    Kept counts n (recordSl (closePosition s symbol pos price .sl) pos.side) := by
  have h := Streak.stop (e := .closed symbol pos price .sl) hs hc rfl rfl
  unfold recordSl
  change Kept counts n (if s.lastSlSide = some pos.side then _ else _)
  split_ifs with hside
  · rw [if_pos hside] at h
    show Streak counts n (s.consecutiveSl + 1) s.lastSlSide _
    rw [hside]
    exact h
  · rw [if_neg hside] at h
    exact h

lemma kept_close {reason : Reason} (hs : Kept counts n s)
    (h0 : counts (some reason) = true → s.consecutiveSl = 0) (symbol : String) (pos : Position K) (price : K) :
    Kept counts n (closePosition s symbol pos price reason) := by
  refine Streak.other hs rfl ?_
  intro x hx hcx
  obtain rfl := Option.some.inj hx
  exact h0 hcx

lemma kept_managePosition (hc : counts (some .sl) = true) (hs : Kept counts n s) (symbol : String)
    (pos : Position K) (bar : Bar K)
    (h0 : ∀ r, r ≠ some .sl → counts r = true → LeavesAtTarget cfg pos bar → s.consecutiveSl = 0) :
    Kept counts n (managePosition cfg s symbol pos bar).state := by
  unfold managePosition
  unfold LeavesAtTarget at h0
  cases hsl : pos.sl with
  | none => exact hs
  | some sl =>
    rw [hsl] at h0
    dsimp only at h0 ⊢
    obtain ⟨hu, hk, htp, hside, hm⟩ := upgrade_spec cfg s symbol pos sl bar hs
    rw [hm, htp, hside]
    rw [← hk] at h0
    by_cases hstop : StopHit pos.side sl bar.low bar.high
    · rw [if_pos hstop]
      exact kept_closeAtStop hc hs symbol pos sl
    rw [if_neg hstop]
    split_ifs with hmilestone
    · exact kept_close hu (fun hcr => h0 _ (by simp) hcr ⟨hstop, .inl hmilestone⟩) symbol _ bar.close
    · cases htarget : pos.tp with
      | none => exact hu
      | some tp =>
        rw [htarget] at h0
        dsimp only at h0 ⊢
        split_ifs with hhit
        · exact kept_close hu (fun hcr => h0 _ (by simp) hcr ⟨hstop, .inr hhit⟩) symbol _ tp
        · exact hu

lemma kept_manageAt (hc : counts (some .sl) = true) (hs : Kept counts n s) (symbol : String) (bar : Bar K)
    (h0 : ∀ r, r ≠ some .sl → counts r = true → OnlyStops cfg s (.manage symbol bar)) :
    Kept counts n (manageAt cfg s symbol bar).state := by
  unfold manageAt
  simp only [OnlyStops, LeavesOtherwise] at h0
  cases hpos : s.openPositions.get? symbol with
  | none => exact hs
  | some pos =>
    rw [hpos] at h0
    exact kept_managePosition hc hs symbol pos bar h0

lemma kept_placeOrders (hs : Kept counts n s) (canOpen : Bool) (symbol : String) (zones : Zones K)
    (bar : Bar K) : Kept counts n (placeOrders cfg s canOpen symbol zones bar) := by
  unfold placeOrders
  dsimp only
  split_ifs <;> exact hs

lemma kept_fillOrPlace (hs : Kept counts n s) (canOpen : Bool) (uuid symbol : String) (zones : Zones K)
    (bar : Bar K) : Kept counts n (fillOrPlace cfg s canOpen uuid symbol zones bar).state := by
  unfold fillOrPlace
  split
  · rename_i order _
    obtain h | h | ⟨pos, qty, -, hrev, h⟩ :=
      openPosition_cases cfg s canOpen uuid symbol order.side order.limitPrice false
    · rw [h]
      exact hs
    · rw [h]
      exact hs
    · rw [h]
      exact Streak.other hs hrev (by simp [exit?])
  · exact kept_placeOrders hs canOpen symbol zones bar

lemma kept_tradeOrders (hs : Kept counts n s) (canOpen : Bool) (uuid symbol : String) (zones : Zones K)
    (bar : Bar K) : Kept counts n (tradeOrders cfg s canOpen uuid symbol zones bar).state := by
  unfold tradeOrders
  split_ifs
  · exact hs
  · exact kept_fillOrPlace hs canOpen uuid symbol zones bar

lemma kept_reverseEntry (hn : n ≤ s.consecutiveSl) (hs : Kept counts n s) (canOpen : Bool) (uuid symbol : String)
    (entry : K) :
    Kept counts n (reverseEntry cfg s canOpen uuid symbol entry).state := by
  unfold reverseEntry
  obtain h | h | ⟨pos, qty, hside, -, h⟩ :=
    openPosition_cases cfg s canOpen uuid symbol (reverseSide s.lastSlSide) entry true
  · rw [h]
    exact Streak.reset hs
  · rw [h]
    exact hs
  · rw [h]
    exact Streak.opened hs hn hside

lemma kept_applyDecision (hn : n = cfg.reverseSlCount.toNat) (hc : counts (some .sl) = true)
    (hs : Kept counts n s) (canOpen : Bool) (uuid symbol : String) (indic : Indicators K)
    (h0 : ∀ r, r ≠ some .sl → counts r = true →
      OnlyStops cfg s (.decision canOpen uuid symbol indic)) :
    Kept counts n (applyDecision cfg s canOpen uuid symbol indic).state := by
  unfold applyDecision
  simp only [OnlyStops, LeavesOtherwise] at h0
  cases hz : indic.zones with
  | none => exact hs
  | some zones =>
    rw [hz] at h0
    dsimp only
    split_ifs with hdue
    · have hcount : cfg.reverseSlCount ≤ s.consecutiveSl := hdue.1
      exact kept_reverseEntry (by omega) hs canOpen uuid symbol indic.latest.close
    have hm := kept_manageAt hc hs symbol indic.latest fun r hr hcr hleaves => h0 r hr hcr ⟨rfl, hleaves⟩
    cases hmanage : manageAt cfg s symbol indic.latest with
    | error s' =>
      rw [hmanage] at hm
      exact hm
    | ok s' =>
      rw [hmanage] at hm
      exact kept_tradeOrders hm canOpen uuid symbol zones indic.latest

lemma kept_onPriceAlertMessage (hc : counts (some .sl) = true) (hs : Kept counts n s) (msg : Alert K)
    (h0 : ∀ r, r ≠ some .sl → counts r = true → OnlyStops cfg s (.alert msg)) :
    Kept counts n (onPriceAlertMessage s msg).state := by
  unfold onPriceAlertMessage
  simp only [OnlyStops, LeavesOtherwise] at h0
  by_cases hsymbol : msg.symbol = ""
  · rw [if_pos hsymbol]
    exact hs
  rw [if_neg hsymbol]
  cases hpos : s.openPositions.get? msg.symbol with
  | none => exact hs
  | some pos =>
    rw [hpos] at h0
    dsimp only at h0 ⊢
    cases hprice : triggerPrice pos.side msg with
    | none => exact hs
    | some price =>
      dsimp only
      by_cases hpositive : price ≤ 0
      · rw [if_pos hpositive]
        exact hs
      rw [if_neg hpositive]
      cases hsl : pos.sl with
      | none => exact hs
      | some sl =>
        dsimp only
        by_cases hstop : StopHit pos.side sl price price
        · rw [if_pos hstop]
          exact kept_closeAtStop hc hs msg.symbol pos price
        rw [if_neg hstop]
        cases htp : pos.tp with
        | none => exact hs
        | some tp =>
          rw [hprice, hsl, htp] at h0
          dsimp only at h0 ⊢
          split_ifs with hhit
          · exact kept_close hs (fun hcr => h0 _ (by simp) hcr ⟨hsymbol, hpositive, hstop, hhit⟩)
              msg.symbol pos price
          · exact hs

lemma kept_reconcilePositions (hs : Kept counts n s) (listed : List (String × Position K))
    (h0 : ∀ r, r ≠ some .sl → counts r = true → OnlyStops cfg s (.snapshot listed)) :
    Kept counts n (reconcilePositions s listed) := by
  simp only [OnlyStops, LeavesOtherwise] at h0
  show Streak counts n s.consecutiveSl s.lastSlSide
    ((dropped s listed).map (fun e => Entry.gone e.1 e.2) ++ s.history)
  generalize dropped s listed = gone at h0
  -- an earlier entry of `gone` is a later entry of the history
  induction gone with
  | nil => exact hs
  | cons e gone ih =>
    have h0' : ∀ r, r ≠ some .sl → counts r = true → s.consecutiveSl = 0 :=
      fun r hr hcr => h0 r hr hcr (List.cons_ne_nil e gone)
    refine Streak.other (ih fun r hr hcr _ => h0' r hr hcr) rfl ?_
    intro x hx hcx
    obtain rfl := Option.some.inj hx
    exact h0' none (by simp) hcx

/-- One event. -/
theorem kept_step (hn : n = cfg.reverseSlCount.toNat) (hc : counts (some .sl) = true) (e : Event K)
    (h0 : ∀ r, r ≠ some .sl → counts r = true → OnlyStops cfg s e) (hs : Kept counts n s) :
    Kept counts n (step cfg s e) := by
  cases e with
  | decision canOpen uuid symbol indic => exact kept_applyDecision hn hc hs canOpen uuid symbol indic h0
  | manage symbol bar => exact kept_manageAt hc hs symbol bar h0
  | alert msg => exact kept_onPriceAlertMessage hc hs msg h0
  | snapshot listed => exact kept_reconcilePositions hs listed h0

end Steps

/-! ## Runs -/

omit [One K] [Add K] [Sub K] [Mul K] [Div K] [LE K] [LT K] [DecidableEq K] [DecidableLE K]
  [DecidableLT K] in
lemma kept_start (counts : Option Reason → Bool) (n : ℕ) (restored : Dict String (Position K)) :
    Kept counts n (start restored) where
  begins := .inl rfl
  law := by
    intro after symbol pos qty before hsplit
    exact absurd hsplit.symm (by simp [start])

/-- In every run, of the stops alone, the last `REVERSE_SL_COUNT` before a reverse trade are on the other
side, and none of them was answered before. -/
theorem reverse_answersStops (cfg : Settings K) (restored : Dict String (Position K))
    (events : List (Event K)) :
    ReverseLaw (fun r => decide (r = some .sl)) cfg.reverseSlCount.toNat
      (events.foldl (step cfg) (start restored)).history := by
  have hstep : ∀ (s : Engine K) (e : Event K),
      Kept (fun r => decide (r = some .sl)) cfg.reverseSlCount.toNat s → True →
        Kept (fun r => decide (r = some .sl)) cfg.reverseSlCount.toNat (step cfg s e) := by
    intro s e hs _
    refine kept_step rfl (by simp) e ?_ hs
    intro r hr hcr
    exact absurd (of_decide_eq_true hcr) hr
  have hkept := Along.foldl hstep (kept_start _ _ restored)
    (Along.of_forall (fun _ _ => trivial) (start restored) events)
  exact hkept.law

/-- In every run in which no position is left otherwise than at its stop while the streak counts, the last
`REVERSE_SL_COUNT` positions that were left before a reverse trade were all stopped out on the other side,
and no reverse trade was opened after the first of these stops. -/
theorem reverse_answers (cfg : Settings K) (restored : Dict String (Position K)) (events : List (Event K))
    (h : Along (step cfg) (OnlyStops cfg) (start restored) events) :
    ∀ after symbol pos qty before,
      (events.foldl (step cfg) (start restored)).history = after ++ .opened symbol pos qty :: before →
      pos.isReverse = true →
        (exits before).take cfg.reverseSlCount.toNat =
          List.replicate cfg.reverseSlCount.toNat (pos.side.opposite, some .sl) ∧
        cfg.reverseSlCount.toNat ≤ (exits (sinceReverse before)).length := by
  have hkept : Kept (fun _ => true) cfg.reverseSlCount.toNat (events.foldl (step cfg) (start restored)) :=
    h.foldl (fun s e hs he => kept_step rfl rfl e (fun _ _ _ => he) hs) (kept_start _ _ restored)
  intro after symbol pos qty before hsplit hrev
  have hanswers := hkept.law after symbol pos qty before hsplit hrev
  unfold Answers at hanswers
  rw [counted_true, counted_true] at hanswers
  exact hanswers

/-! ## Two runs -/

/-- The defaults of `DeoBietCoPhaiAlphaKhongConfig`. -/
def defaults : Settings ℚ where
  investPerTrade := 100
  leverage := 50
  slLongPct := 7 / 1000
  slShortPct := 9 / 1000
  tpPct := 2 / 100
  trailM1Pct := 125 / 10000
  trailM1SlPct := 1 / 1000
  trailM2Pct := 185 / 10000
  trailM2SlPct := 5 / 1000
  reverseSlPct := 175 / 10000
  reverseTpPct := 25 / 1000

/-- A bar that touches the green zone. -/
def touch (uuid : String) : Event ℚ :=
  .decision true uuid "BTCUSDT"
    { zones := some { greenHigh := 100, redLow := 110 }, latest := { high := 101, low := 99, close := 100 } }

/-- A long position that is entered at 100, and left at `price`. -/
def roundTrip (uuid : String) (price : ℚ) : List (Event ℚ) :=
  [touch uuid, touch uuid, .alert { symbol := "BTCUSDT", price := some price }]

def threeStops : Engine ℚ :=
  (roundTrip "a" 99 ++ roundTrip "b" 99 ++ roundTrip "c" 99 ++ [touch "d"]).foldl (step defaults)
    (start Table.empty)

/-- The same with a target between the second stop and the third. -/
def targetBetween : Engine ℚ :=
  (roundTrip "a" 99 ++ roundTrip "b" 99 ++ roundTrip "c" 103 ++ roundTrip "d" 99 ++ [touch "e"]).foldl
    (step defaults) (start Table.empty)

omit [One K] [Add K] [Sub K] [Mul K] [Div K] [LE K] [LT K] [DecidableEq K] [DecidableLE K]
  [DecidableLT K] in
lemma exists_opened_of_head {history : List (Entry K)} (h : history.head?.map opensReverse = some true) :
    ∃ symbol pos qty, history = [] ++ .opened symbol pos qty :: history.tail ∧ pos.isReverse = true := by
  cases history with
  | nil => simp at h
  | cons e before =>
    cases e with
    | opened symbol pos qty => exact ⟨symbol, pos, qty, rfl, by simpa [opensReverse] using h⟩
    | modified _ _ => simp [opensReverse] at h
    | closed _ _ _ _ => simp [opensReverse] at h
    | gone _ _ => simp [opensReverse] at h

theorem reverse_answers_threeStops : ∃ side,
    (exits threeStops.history.tail).take 3 = List.replicate 3 (side, some .sl) ∧
      3 ≤ (exits (sinceReverse threeStops.history.tail)).length := by
  obtain ⟨symbol, pos, qty, hsplit, hrev⟩ :=
    exists_opened_of_head (show threeStops.history.head?.map opensReverse = some true by decide +kernel)
  exact ⟨pos.side.opposite, reverse_answers defaults Table.empty
    (roundTrip "a" 99 ++ roundTrip "b" 99 ++ roundTrip "c" 99 ++ [touch "d"]) (by decide +kernel)
    [] symbol pos qty _ hsplit hrev⟩

/-- A reverse trade is opened after a stop, a target and a stop. -/
theorem reverse_afterTarget : ∃ symbol pos qty before,
    targetBetween.history = .opened symbol pos qty :: before ∧ pos.isReverse = true ∧
      (exits before).take 3 = [(.long, some .sl), (.long, some .tp), (.long, some .sl)] := by
  obtain ⟨symbol, pos, qty, hsplit, hrev⟩ :=
    exists_opened_of_head (show targetBetween.history.head?.map opensReverse = some true by decide +kernel)
  exact ⟨symbol, pos, qty, _, hsplit, hrev, by decide +kernel⟩

end PaperTrade.Alphas.SongThan
