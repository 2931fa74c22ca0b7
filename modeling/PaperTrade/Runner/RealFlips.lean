import PaperTrade.Runner.CashUntilFlip
import PaperTrade.Runner.SuploFlips
import PaperTrade.Runner.MinuteFlips
import PaperTrade.Runner.AdxFlips
import PaperTrade.Runner.SmoothFlips

/-!
# Entries on flips

Over restarts the four Supertrend strategies open on a flip of the last candle as long as every scan is
steady: the first scan of a process remembers the direction that its candles have, no gated scan sees a
new direction, and a candle keeps its direction while it is the last but one.
-/

namespace PaperTrade.Runner

open PaperTrade.Runtime Dispatcher

/-! ## Candles that only arrive -/

lemma atrLoop_snoc (alpha prev atr : PyFloat) (candles : List Candle) (c : Candle) :
    ∃ a, atrLoop alpha prev atr (candles ++ [c]) = atrLoop alpha prev atr candles ++ [a] := by
  induction candles generalizing prev atr with
  | nil => exact ⟨_, rfl⟩
  | cons d candles ih =>
    obtain ⟨a, ha⟩ := ih d.close (alpha * trueRange prev d + (1 - alpha) * atr)
    exact ⟨a, congrArg (_ :: ·) ha⟩

lemma length_atrLoop (alpha prev atr : PyFloat) (candles : List Candle) :
    (atrLoop alpha prev atr candles).length = candles.length := by
  induction candles generalizing prev atr with
  | nil => rfl
  | cons c candles ih => exact congrArg (· + 1) (ih _ _)

lemma directionLoop_snoc (factor : PyFloat) (b : Bands) {candles : List Candle} {atrs : List PyFloat}
    (h : candles.length = atrs.length) (c : Candle) (atr : PyFloat) :
    ∃ d, directionLoop factor b (candles ++ [c]) (atrs ++ [atr]) =
      directionLoop factor b candles atrs ++ [d] := by
  induction candles generalizing b atrs with
  | nil =>
    rw [List.length_nil, eq_comm, List.length_eq_zero_iff] at h
    rw [h]
    exact ⟨_, rfl⟩
  | cons c' candles ih =>
    cases atrs with
    | nil => cases h
    | cons atr' atrs =>
      obtain ⟨d, hd⟩ := ih (b.next factor c' atr') (Nat.succ.inj h)
      exact ⟨d, congrArg (_ :: ·) hd⟩

/-- A new candle changes no direction of the candles before it. -/
theorem dropLast_supertrendDirections (factor : PyFloat) (period : ℕ) {candles : List Candle}
    (h : candles ≠ []) (c : Candle) :
    (supertrendDirections factor period (candles ++ [c])).dropLast =
      supertrendDirections factor period candles := by
  cases candles with
  | nil => exact absurd rfl h
  | cons first rest =>
    let atr := first.high - first.low
    let b : Bands := ⟨first.close, (first.high + first.low) / 2 + factor * atr,
      (first.high + first.low) / 2 - factor * atr, 1⟩
    obtain ⟨a, ha⟩ := atrLoop_snoc (1 / .fin period) first.close atr rest c
    obtain ⟨d, hd⟩ := directionLoop_snoc factor b
      (length_atrLoop (1 / .fin period) first.close atr rest).symm c a
    have hlonger : supertrendDirections factor period (first :: rest ++ [c]) =
        1 :: directionLoop factor b (rest ++ [c])
          (atrLoop (1 / .fin period) first.close atr (rest ++ [c])) := rfl
    rw [hlonger, ha, hd, ← List.cons_append, List.dropLast_concat]
    rfl

/-! ## Runs -/

/-- Where every append is acknowledged a strategy whose scans are steady opens on flips only. -/
theorem real_flips (digest : Logical → String) (uuid5 : String → String) (env : ℕ → DispatchEnv)
    (o : Outbox) (henv : Acknowledges env) :
    (∀ (x : SuploXau) (loaded : Table SuploPosition.positionId) (events : List SuploXau.Event),
      Along (x.watch.watched (x.step digest uuid5 env)) x.watch.Steady
        (({ positions := loaded }, o), none) events →
      Along (x.step digest uuid5 env) (x.watch.RealFlip (x.step digest uuid5 env))
        ({ positions := loaded }, o) events) ∧
    (∀ (x : MinuteTrailing) (loaded : Table MinutePosition.positionId)
      (events : List MinuteTrailing.Event),
      Along (x.watch.watched (x.step digest uuid5 env)) x.watch.Steady
        (({ positions := loaded }, o), none) events →
      Along (x.step digest uuid5 env) (x.watch.RealFlip (x.step digest uuid5 env))
        ({ positions := loaded }, o) events) ∧
    (∀ (x : SmoothChan) (loaded : Table SmoothPosition.positionId) (events : List SmoothChan.Event),
      Along (x.watch.watched (x.step digest uuid5 env)) x.watch.Steady
        (({ positions := loaded }, o), none) events →
      Along (x.step digest uuid5 env) (x.watch.RealFlip (x.step digest uuid5 env))
        ({ positions := loaded }, o) events) ∧
    (∀ (x : SupertrendAdx) (loaded : Table AdxPosition.positionId)
      (events : List SupertrendAdx.LifeEvent),
      Along (x.watch.watched (x.lifeStep digest uuid5 env)) x.watch.Steady
        (({ positions := loaded }, o), none) events →
      Along (x.lifeStep digest uuid5 env) (x.watch.RealFlip (x.lifeStep digest uuid5 env))
        ({ positions := loaded }, o) events) :=
  ⟨fun _ _ _ hsteady => FlipWatch.realFlips (SuploXau.effect_step henv) rfl hsteady,
    fun _ _ _ hsteady => FlipWatch.realFlips MinuteTrailing.effect_step rfl hsteady,
    fun _ _ _ hsteady => FlipWatch.realFlips (SmoothChan.effect_step henv) rfl hsteady,
    fun _ _ _ hsteady => FlipWatch.realFlips SupertrendAdx.effect_step rfl hsteady⟩

/-- The rising candles, the second one in a scan that is not allowed to open. -/
def gatedRise : List SuploXau.Event :=
  [.kline true (some 1700000000000), .scan { candles := risingCandles.take 1 },
    .kline true (some 1700000900000), .scan { candles := risingCandles.take 2, canOpen := false },
    .kline true (some 1700001800000)]

/-- A candle that a factor of 1 takes for a turn and a factor of 3 does not. -/
def slightRise (t : ℤ) : Candle := ⟨100, 104, 103, 104, t⟩

def slightCandles : List Candle :=
  [⟨100, 101, 99, 100, 1700000000000⟩, slightRise 1700000900000, slightRise 1700001800000]

/-- `suplo` with another factor than the first scan of a process has. -/
def suploFactor1 : SuploXau := { suplo with factor := 1 }

def slightEvents : List SuploXau.Event :=
  [.kline true (some 1700000900000), .scan { candles := slightCandles.take 2 },
    .kline true (some 1700001800000)]

/-- A position that is left from before the direction turned down. -/
def leftLong : Table MinutePosition.positionId :=
  .insertOrIgnore .empty (MinuteTrailing.newPosition "left" "LONG" 100 1 1699999100000 none)

def flatCandles : List Candle :=
  [⟨100, 101, 99, 100, 1700000000000⟩, ⟨100, 101, 99, 100, 1700000900000⟩]

def afterRestart : List MinuteTrailing.Event :=
  [.kline15m true (some 1700000000000), .scan ⟨flatCandles.take 1, []⟩,
    .kline15m true (some 1700000900000)]

/-- An entry on the second of two candles of one direction. -/
lemma not_realFlip {σ ε : Type} {m : FlipWatch σ ε} {step : σ × Outbox → ε → σ × Outbox}
    {w : σ × Outbox} {e : ε} (directions : List ℤ) (hopens : Opens (sentSince w (step w e)))
    (hscanned : m.scanned w.1 e = some directions)
    (hsame : directions.dropLast.getLast? = directions.getLast?) : ¬ m.RealFlip step w e := by
  intro hreal
  obtain ⟨-, directions', hscanned', d, d', hd, hd', hne⟩ := hreal hopens
  rw [hscanned, Option.some_inj] at hscanned'
  rw [← hscanned', hsame] at hd
  rw [← hscanned', hd, Option.some_inj] at hd'
  exact hne hd'.symm

/-- An entry follows on a gated scan, on a first scan with another factor, and on a position of the other
side, each time without a flip. -/
theorem opens_without_flip :
    ¬ Along (suplo.step typeDigest id quietEnv) (suplo.watch.RealFlip (suplo.step typeDigest id quietEnv))
      ({}, { dispatcher := {} }) (gatedRise ++ [.scan { candles := risingCandles.take 3 }]) ∧
    ¬ Along (suploFactor1.step typeDigest id quietEnv)
      (suploFactor1.watch.RealFlip (suploFactor1.step typeDigest id quietEnv))
      ({}, { dispatcher := {} }) (slightEvents ++ [.scan { candles := slightCandles }]) ∧
    ¬ Along ((supertrendXauV2 minuteParams 5).step typeDigest id quietEnv)
      ((supertrendXauV2 minuteParams 5).watch.RealFlip
        ((supertrendXauV2 minuteParams 5).step typeDigest id quietEnv))
      ({ positions := leftLong }, { dispatcher := {} }) (afterRestart ++ [.scan ⟨flatCandles, []⟩]) := by
  refine ⟨fun h => not_realFlip [1, -1, -1] ?_ ?_ rfl (Along.at h),
    fun h => not_realFlip [1, -1, -1] ?_ ?_ rfl (Along.at h),
    fun h => not_realFlip [1, 1] ?_ ?_ rfl (Along.at h)⟩
  all_goals decide +kernel

/-- Over a restart, with a position. -/
def steadyRise : List SuploXau.Event :=
  risingRun 3 ++ [.restart (risen 3).1.positions true, .kline true (some 1700002700000),
    .scan { candles := risingCandles }]

theorem real_flips_rising :
    Along (suplo.step typeDigest id quietEnv) (suplo.watch.RealFlip (suplo.step typeDigest id quietEnv))
      ({}, { dispatcher := {} }) steadyRise ∧
    Along ((supertrendXauV2 minuteParams 5).step typeDigest id quietEnv)
      ((supertrendXauV2 minuteParams 5).watch.RealFlip
        ((supertrendXauV2 minuteParams 5).step typeDigest id quietEnv))
      ({}, { dispatcher := {} }) risingMinutes ∧
    Along (smooth3h.step typeDigest id quietEnv)
      (smooth3h.watch.RealFlip (smooth3h.step typeDigest id quietEnv)) ({}, { dispatcher := {} })
      risingScans ∧
    Along (adx.lifeStep typeDigest id quietEnv)
      (adx.watch.RealFlip (adx.lifeStep typeDigest id quietEnv)) ({}, { dispatcher := {} })
      (risingClosed.map .event) := by
  have hall := real_flips typeDigest id quietEnv { dispatcher := {} } fun _ _ => rfl
  exact ⟨hall.1 suplo .empty steadyRise (by decide +kernel),
    hall.2.1 (supertrendXauV2 minuteParams 5) .empty risingMinutes (by decide +kernel),
    hall.2.2.1 smooth3h .empty risingScans (by decide +kernel),
    hall.2.2.2 adx .empty (risingClosed.map .event) (by decide +kernel)⟩

end PaperTrade.Runner
