import Mathlib.Data.Rat.Defs
import Mathlib.Algebra.Order.Ring.Rat
import Mathlib.Tactic.Linarith

/-!
# The runtime state of an engine

`BaseEngine` opens trades in the state `LIVE` when none of three flags is set. The flags are of the market
data, of the reconciliation and of the price alerts. The state is written by the start-up, by the monitor
that misses market messages, and by the recovery of the data flag, which is the only way back to `LIVE`
while the engine is connected; the other flags are cleared without a look at the state.

A run is a sequence of results of the start-up, market messages, ticks of the monitor, reconciliations and
price-alert syncs. `never_sticks` is about the runs in which the state is `STALE` only while the data flag
is set.
-/

namespace PaperTrade.Base

/-- `runtime_state` of an engine that is connected. -/
inductive RuntimeState
  | warmingUp
  | live
  | stale
deriving DecidableEq

/-- What the start-up has come to. -/
inductive StartUp
  | warmingUp
  | reconciling
  | done
deriving DecidableEq

/-- The settings that decide about the state. -/
structure StaleConfig where
  /-- `MDS_EXCHANGE` is set -/
  mdsExchange : Bool := true
  dataStaleSuspendNewEntries : Bool := true
  priceAlertSyncSuspendNewEntries : Bool := true
  priceAlertStaleSec : ℚ := 15
  /-- `_max_subscribed_kline_interval_sec()` -/
  maxKlineIntervalSec : ℚ := 0

/-- `_stale_threshold_seconds`. -/
def StaleConfig.threshold (config : StaleConfig) : ℚ :=
  max 120 (max (config.priceAlertStaleSec * 8) (config.maxKlineIntervalSec * (5 / 2)))

/-- The state and the flags. -/
structure EngineRuntime where
  startUp : StartUp := .warmingUp
  runtimeState : RuntimeState := .warmingUp
  dataStale : Bool := false
  positionReconcileStale : Bool := false
  priceAlertSyncStale : Bool := false
  lastRedisMessageAt : ℚ := 0
  /-- the monitor has ticked since the last market message -/
  ticked : Bool := false
deriving DecidableEq

namespace EngineRuntime

/-- `can_open_new_trades`. -/
def canOpenNewTrades (x : EngineRuntime) : Bool :=
  x.runtimeState = .live && !x.dataStale && !x.positionReconcileStale && !x.priceAlertSyncStale

/-! ## What writes the state -/

/-- The data flag is cleared at `now`: it is set, and the last message is fresh. -/
def Resumes (config : StaleConfig) (now : ℚ) (x : EngineRuntime) : Prop :=
  x.dataStale = true ∧ 0 < x.lastRedisMessageAt ∧ now - x.lastRedisMessageAt < config.threshold

instance (config : StaleConfig) (now : ℚ) (x : EngineRuntime) : Decidable (x.Resumes config now) :=
  inferInstanceAs (Decidable (_ ∧ _ ∧ _))

/-- `_check_data_stale_recovery`. -/
def checkDataStaleRecovery (config : StaleConfig) (now : ℚ) (x : EngineRuntime) : EngineRuntime :=
  if x.Resumes config now then
    { x with
      dataStale := false
      runtimeState :=
        if x.runtimeState = .stale ∧ x.positionReconcileStale = false ∧
          x.priceAlertSyncStale = false then .live else x.runtimeState }
  else x

/-- The monitor finds the messages too old, and notes it. -/
def GoesStale (config : StaleConfig) (now : ℚ) (x : EngineRuntime) : Prop :=
  0 < x.lastRedisMessageAt ∧ config.threshold < now - x.lastRedisMessageAt ∧
    (x.runtimeState = .live ∨ x.dataStale = false)

instance (config : StaleConfig) (now : ℚ) (x : EngineRuntime) : Decidable (x.GoesStale config now) :=
  inferInstanceAs (Decidable (_ ∧ _ ∧ _))

/-- One round of `_stale_monitor_loop`. -/
def monitor (config : StaleConfig) (now : ℚ) (x : EngineRuntime) : EngineRuntime :=
  let x := { x with ticked := true }
  if x.lastRedisMessageAt ≤ 0 then x
  else if config.threshold < now - x.lastRedisMessageAt then
    if x.runtimeState = .live ∨ x.dataStale = false then
      { x with dataStale := config.dataStaleSuspendNewEntries, runtimeState := .stale }
    else x
  else x.checkDataStaleRecovery config now

/-- What happens to an engine. -/
inductive RuntimeEvent
  /-- `_request_warmup` returns; `none` is an exception -/
  | warmup (ok : Option Bool)
  /-- `_startup_reconcile` returns -/
  | startupReconcile (ok : Bool)
  /-- a market message is received at `now` and looked at by `_check_data_stale_recovery` at `later` -/
  | message (now later : ℚ)
  /-- `on_kline_message` notes the message once more -/
  | kline (now : ℚ)
  | monitor (now : ℚ)
  /-- `reconcile_positions`, or its loop after a failure, writes the flag -/
  | reconcile (stale : Bool)
  /-- `_price_alert_sync_loop` publishes, or fails to -/
  | priceAlertSync (ok : Bool)

/-- One event. An event that is not possible yet does nothing. -/
def step (config : StaleConfig) (x : EngineRuntime) : RuntimeEvent → EngineRuntime
  | .warmup ok =>
    if x.startUp = .warmingUp then
      { x with
        startUp := .reconciling
        dataStale := ok ≠ some true
        runtimeState := if ok = some true then .live else .stale }
    else x
  | .startupReconcile ok =>
    if x.startUp = .reconciling then
      let x := { x with startUp := .done }
      if ok then x else { x with positionReconcileStale := true, runtimeState := .stale }
    else x
  | .message now later =>
    if x.startUp = .done then
      ({ x with lastRedisMessageAt := now, ticked := false } : EngineRuntime).checkDataStaleRecovery
        config later
    else x
  | .kline now =>
    if x.startUp = .done then { x with lastRedisMessageAt := now, ticked := false } else x
  | .monitor now => if x.startUp = .done ∧ config.mdsExchange = true then x.monitor config now else x
  | .reconcile stale => if x.startUp = .warmingUp then x else { x with positionReconcileStale := stale }
  | .priceAlertSync ok =>
    if x.startUp = .done ∧ config.mdsExchange = true then
      { x with
        priceAlertSyncStale :=
          if ok then false else config.priceAlertSyncSuspendNewEntries || x.priceAlertSyncStale }
    else x

/-- A run from the construction of the engine. -/
def run (config : StaleConfig) (events : List RuntimeEvent) : EngineRuntime :=
  events.foldl (step config) {}

/-! ## Sticking at `STALE` -/

/-- The flags are clear, the last market message is fresh, and the monitor has ticked since. -/
structure AtRest (config : StaleConfig) (now : ℚ) (x : EngineRuntime) : Prop where
  data : x.dataStale = false
  reconcile : x.positionReconcileStale = false
  priceAlert : x.priceAlertSyncStale = false
  received : 0 < x.lastRedisMessageAt
  fresh : now - x.lastRedisMessageAt < config.threshold
  ticked : x.ticked = true

/-- An engine at rest opens trades. -/
def NeverSticks (config : StaleConfig) (x : EngineRuntime) : Prop :=
  ∀ now, x.AtRest config now → x.runtimeState = .live ∧ x.canOpenNewTrades = true

/-- The flags of the reconciliation and of the price alerts are clear. -/
def OthersClear (x : EngineRuntime) : Prop :=
  x.positionReconcileStale = false ∧ x.priceAlertSyncStale = false

instance (x : EngineRuntime) : Decidable x.OthersClear := inferInstanceAs (Decidable (_ ∧ _))

/-- The event does not leave `STALE` behind without the data flag: the start-up reconciliation does not
fail after a warm-up that succeeded, old messages suspend new entries, and the data flag is cleared while
the other flags are clear. -/
def Careful (config : StaleConfig) (x : EngineRuntime) : RuntimeEvent → Prop
  | .startupReconcile ok => ok = true ∨ x.dataStale = true
  | .message now later =>
    Resumes config later { x with lastRedisMessageAt := now } → x.OthersClear
  | .monitor now => (x.GoesStale config now → config.dataStaleSuspendNewEntries = true) ∧
      (x.Resumes config now → x.OthersClear)
  | _ => True

instance (config : StaleConfig) (x : EngineRuntime) : (event : RuntimeEvent) →
    Decidable (x.Careful config event)
  | .startupReconcile _ => inferInstanceAs (Decidable (_ ∨ _))
  | .message _ _ => inferInstanceAs (Decidable (_ → _))
  | .monitor _ => inferInstanceAs (Decidable (_ ∧ _))
  | .warmup _ | .kline _ | .reconcile _ | .priceAlertSync _ => inferInstanceAs (Decidable True)

/-- Every step is careful. -/
def CarefulRun (config : StaleConfig) : EngineRuntime → List RuntimeEvent → Prop
  | _, [] => True
  | x, event :: events => x.Careful config event ∧ CarefulRun config (x.step config event) events

instance decidableCarefulRun (config : StaleConfig) : (x : EngineRuntime) →
    (events : List RuntimeEvent) → Decidable (x.CarefulRun config events)
  | _, [] => inferInstanceAs (Decidable True)
  | x, event :: events =>
    have := decidableCarefulRun config (x.step config event) events
    inferInstanceAs (Decidable (_ ∧ _))

variable {config : StaleConfig} {x : EngineRuntime}

/-- The state is `STALE` while the data flag is set, and only then. -/
structure Consistent (x : EngineRuntime) : Prop where
  before : x.startUp = .warmingUp → x.ticked = false
  state : x.startUp ≠ .warmingUp →
    (x.runtimeState = .live ∧ x.dataStale = false) ∨ (x.runtimeState = .stale ∧ x.dataStale = true)

/-- A recovery while the other flags are clear leads to `LIVE`. -/
lemma Consistent.check {now : ℚ} (h : x.Consistent) (hstart : x.startUp ≠ .warmingUp)
    (hclear : x.Resumes config now → x.OthersClear) :
    (x.checkDataStaleRecovery config now).Consistent := by
  unfold checkDataStaleRecovery
  by_cases hresumes : x.Resumes config now
  · rw [if_pos hresumes]
    obtain ⟨hreconcile, hprice⟩ := hclear hresumes
    have hstale : x.runtimeState = .stale := by
      rcases h.state hstart with ⟨-, hdata⟩ | ⟨hstale, -⟩
      · rw [hresumes.1] at hdata
        cases hdata
      · exact hstale
    constructor
    · exact fun hwarming => absurd hwarming hstart
    · intro _
      exact .inl ⟨if_pos ⟨hstale, hreconcile, hprice⟩, rfl⟩
  · rw [if_neg hresumes]
    exact h

lemma Consistent.monitor {now : ℚ} (h : x.Consistent) (hstart : x.startUp ≠ .warmingUp)
    (hcareful : x.Careful config (.monitor now)) : (x.monitor config now).Consistent := by
  obtain ⟨hsuspend, hclear⟩ := hcareful
  have hticked : Consistent { x with ticked := true } :=
    ⟨fun hwarming => absurd hwarming hstart, h.state⟩
  unfold EngineRuntime.monitor
  dsimp only
  by_cases hnone : x.lastRedisMessageAt ≤ 0
  · rw [if_pos hnone]
    exact hticked
  · rw [if_neg hnone]
    by_cases hold : config.threshold < now - x.lastRedisMessageAt
    · rw [if_pos hold]
      by_cases hnoted : x.runtimeState = .live ∨ x.dataStale = false
      · rw [if_pos hnoted]
        constructor
        · exact fun hwarming => absurd hwarming hstart
        · intro _
          exact .inr ⟨rfl, hsuspend ⟨not_le.mp hnone, hold, hnoted⟩⟩
      · rw [if_neg hnoted]
        exact hticked
    · rw [if_neg hold]
      exact hticked.check hstart hclear

/-- A careful event keeps the state and the data flag together. -/
lemma Consistent.step {event : RuntimeEvent} (h : x.Consistent) (hcareful : x.Careful config event) :
    (x.step config event).Consistent := by
  unfold EngineRuntime.step
  cases event with
  | warmup ok =>
    dsimp only
    by_cases hstart : x.startUp = .warmingUp
    · rw [if_pos hstart]
      constructor
      · intro hwarming
        cases hwarming
      · intro _
        by_cases hok : ok = some true
        · exact .inl ⟨if_pos hok, by simpa using hok⟩
        · exact .inr ⟨if_neg hok, by simpa using hok⟩
    · rw [if_neg hstart]
      exact h
  | startupReconcile ok =>
    dsimp only
    by_cases hstart : x.startUp = .reconciling
    · rw [if_pos hstart]
      have hstate := h.state (by rw [hstart]; decide)
      cases ok with
      | true => exact ⟨fun hwarming => absurd hwarming (by simp), fun _ => hstate⟩
      | false =>
        have hdata : x.dataStale = true := by
          rcases hcareful with hok | hdata
          · cases hok
          · exact hdata
        exact ⟨fun hwarming => absurd hwarming (by simp), fun _ => .inr ⟨rfl, hdata⟩⟩
    · rw [if_neg hstart]
      exact h
  | message now later =>
    dsimp only
    by_cases hstart : x.startUp = .done
    · rw [if_pos hstart]
      have hwarm : x.startUp ≠ .warmingUp := by
        rw [hstart]
        decide
      have hreceived : Consistent { x with lastRedisMessageAt := now, ticked := false } :=
        ⟨fun _ => rfl, h.state⟩
      exact hreceived.check hwarm hcareful
    · rw [if_neg hstart]
      exact h
  | kline now =>
    dsimp only
    by_cases hstart : x.startUp = .done
    · rw [if_pos hstart]
      exact ⟨fun _ => rfl, h.state⟩
    · rw [if_neg hstart]
      exact h
  | monitor now =>
    dsimp only
    by_cases hstart : x.startUp = .done ∧ config.mdsExchange = true
    · rw [if_pos hstart]
      exact h.monitor (by rw [hstart.1]; decide) hcareful
    · rw [if_neg hstart]
      exact h
  | reconcile stale =>
    dsimp only
    by_cases hstart : x.startUp = .warmingUp
    · rw [if_pos hstart]
      exact h
    · rw [if_neg hstart]
      exact ⟨h.before, h.state⟩
  | priceAlertSync ok =>
    dsimp only
    by_cases hstart : x.startUp = .done ∧ config.mdsExchange = true
    · rw [if_pos hstart]
      exact ⟨h.before, h.state⟩
    · rw [if_neg hstart]
      exact h

lemma Consistent.run {events : List RuntimeEvent} (h : x.Consistent)
    (hcareful : x.CarefulRun config events) : (events.foldl (EngineRuntime.step config) x).Consistent := by
  induction events generalizing x with
  | nil => exact h
  | cons event events ih => exact ih (h.step hcareful.1) hcareful.2

/-- Where the state is `STALE` only with the data flag, an engine at rest opens trades. -/
lemma Consistent.neverSticks (h : x.Consistent) : x.NeverSticks config := by
  intro now hrest
  have hstart : x.startUp ≠ .warmingUp := by
    intro hwarming
    have hticked := hrest.ticked
    rw [h.before hwarming] at hticked
    cases hticked
  have hlive : x.runtimeState = .live := by
    rcases h.state hstart with ⟨hlive, -⟩ | ⟨-, hdata⟩
    · exact hlive
    · rw [hrest.data] at hdata
      cases hdata
  refine ⟨hlive, ?_⟩
  unfold canOpenNewTrades
  rw [hlive, hrest.data, hrest.reconcile, hrest.priceAlert]
  rfl

/-- In a run whose steps are careful no state reached sticks at `STALE`. -/
theorem never_sticks (config : StaleConfig) (events : List RuntimeEvent)
    (hcareful : CarefulRun config {} events) : (run config events).NeverSticks config := by
  have hstart : Consistent {} := ⟨fun _ => rfl, fun h => absurd rfl h⟩
  exact (hstart.run hcareful).neverSticks

/-! ## Runs that stick and one that does not -/

/-- The data goes stale and comes back. -/
def recoveredRun : List RuntimeEvent :=
  [.warmup (some true), .startupReconcile true, .message 100 100, .monitor 300, .message 310 310,
    .monitor 330]

theorem never_sticks_recovered : (run {} recoveredRun).NeverSticks {} :=
  never_sticks {} recoveredRun (by decide +kernel)

/-- The start-up reconciliation fails and a later one succeeds. -/
def lateReconcileRun : List RuntimeEvent :=
  [.warmup (some true), .startupReconcile false, .reconcile false, .message 100 100, .monitor 130]

/-- The data comes back while a reconciliation has failed. -/
def crossedRun : List RuntimeEvent :=
  [.warmup (some true), .startupReconcile true, .message 100 100, .monitor 300, .reconcile true,
    .message 310 310, .reconcile false, .monitor 330]

lemma not_neverSticks {config : StaleConfig} {x : EngineRuntime} (now : ℚ)
    (hrest : x.AtRest config now) (hstale : x.runtimeState = .stale) : ¬ x.NeverSticks config := by
  intro h
  have hlive := (h now hrest).1
  rw [hstale] at hlive
  cases hlive

/-- With and without `DATA_STALE_SUSPEND_NEW_ENTRIES` there are runs that stick. -/
theorem sticks :
    ¬ (run {} lateReconcileRun).NeverSticks {} ∧ ¬ (run {} crossedRun).NeverSticks {} ∧
      ¬ (run { dataStaleSuspendNewEntries := false } recoveredRun).NeverSticks
        { dataStaleSuspendNewEntries := false } := by
  refine ⟨not_neverSticks 140 ?_ (by decide +kernel),
    not_neverSticks 340 ?_ (by decide +kernel),
    not_neverSticks 340 ?_ (by decide +kernel)⟩ <;>
  constructor <;> decide +kernel

end EngineRuntime

end PaperTrade.Base
