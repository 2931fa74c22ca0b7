import PaperTrade.Runner.Dedup
import PaperTrade.Runner.SuploCycle
import PaperTrade.Runner.AdxCycle
import PaperTrade.Runner.MinuteCycle
import PaperTrade.Runner.SmoothCycle

/-!
# Cash until the next flip

In a process that starts without a position each of the four Supertrend strategies holds at most one,
opens only when its direction turns, closes at the latest then, and waits for the next turn after an
early exit. The smooth chandelier strategy keeps a position through a scan that computes no direction;
there the direction it remembers is none of the position's side.
-/

namespace PaperTrade.Runner

open PaperTrade.Runtime Dispatcher

/-- Where every append is acknowledged the books of the four strategies follow their directions. -/
theorem cash_until_flip (digest : Logical → String) (uuid5 : String → String)
    (env : ℕ → DispatchEnv) (d : Dispatcher) (henv : Acknowledges env) :
    (∀ (x : SuploXau) (events : List SuploXau.Event), (∀ e ∈ events, e.Alive) →
      Along (x.step digest uuid5 env)
        (fun w e => FollowsFlips SuploXau.book w (x.step digest uuid5 env w e))
        ({}, { dispatcher := d }) events) ∧
    (∀ (p : MinuteParams) (preset : ℕ) (events : List MinuteTrailing.Event),
      (∀ e ∈ events, e.Alive) →
      Along ((supertrendXauV2 p preset).step digest uuid5 env)
        (fun w e => FollowsFlips MinuteTrailing.book w
          ((supertrendXauV2 p preset).step digest uuid5 env w e))
        ({}, { dispatcher := d }) events) ∧
    (∀ (x : SupertrendAdx) (events : List SupertrendAdx.Event),
      Along (x.step digest uuid5 env)
        (fun w e => FollowsFlips SupertrendAdx.book w (x.step digest uuid5 env w e))
        ({}, { dispatcher := d }) events) ∧
    (∀ (x : SmoothChan) (events : List SmoothChan.Event),
      Along (x.step digest uuid5 env) (fun w e => e.Alive ∧ x.Directed w.1 e)
        ({}, { dispatcher := d }) events →
      Along (x.step digest uuid5 env)
        (fun w e => FollowsFlips SmoothChan.book w (x.step digest uuid5 env w e))
        ({}, { dispatcher := d }) events) :=
  ⟨fun _ _ halive => SuploXau.along_followsFlips henv d halive,
    fun _ _ _ halive => MinuteTrailing.along_followsFlips henv d halive,
    fun _ events => SupertrendAdx.along_followsFlips henv d events,
    fun _ _ hok => SmoothChan.along_followsFlips henv d hok⟩

/-! ## Runs -/

/-- The `n`-th hour of a day in 2023, around a price. -/
def hourCandle (n : ℤ) (price : PyFloat) : Candle :=
  ⟨price, price + 1, price - 1, price, 1700006400000 + n * SmoothChan.h1Ms⟩

/-- The price rises by a fifth in the ninth hour. -/
def risingHours : List Candle :=
  [hourCandle 0 100, hourCandle 1 100, hourCandle 2 100, hourCandle 3 100, hourCandle 4 100,
    hourCandle 5 100, hourCandle 6 100, hourCandle 7 100, hourCandle 8 120, hourCandle 9 120,
    hourCandle 10 120, hourCandle 11 120]

/-- The last twelve hours that the feed has when it has missed three of them. -/
def gappedHours : List Candle :=
  [hourCandle 9 120, hourCandle 10 120, hourCandle 11 120, hourCandle 12 120, hourCandle 13 120,
    hourCandle 15 120, hourCandle 16 120, hourCandle 18 120, hourCandle 19 120, hourCandle 21 120,
    hourCandle 22 120, hourCandle 23 120]

/-- A strategy on 3h candles, each scan on the last twelve hours. -/
def smooth3h : SmoothChan where
  alphaId := "smooth"
  version := "v1"
  tf := .h3
  atrPeriod := 2
  minBars := 1

/-- The third and the fourth 3h candle are scanned. -/
def risingScans : List SmoothChan.Event :=
  [.kline true (some (hourCandle 8 120).time), .scan (risingHours.take 9),
    .kline true (some (hourCandle 11 120).time), .scan risingHours]

/-- The state after a run of the strategy. -/
def smoothAfter (events : List SmoothChan.Event) : SmoothState × Outbox :=
  smooth3h.run typeDigest id quietEnv ({}, { dispatcher := {} }) events

example : (smoothAfter risingScans).1.positions.rows.map SmoothPosition.side = ["LONG"] ∧
    (smoothAfter risingScans).1.lastDir = uptrend := by decide +kernel

/-- The next 3h candle that is complete arrives after the gaps. -/
def gappedEvents : List SmoothChan.Event :=
  risingScans ++ [.kline true (some (hourCandle 23 120).time)]

/-- On two complete 3h candles there is no direction, and the position is kept. -/
theorem kept_without_direction :
    ¬ Along (smooth3h.step typeDigest id quietEnv)
      (fun w e => FollowsFlips SmoothChan.book w (smooth3h.step typeDigest id quietEnv w e))
      ({}, { dispatcher := {} }) (gappedEvents ++ [.scan gappedHours]) := by
  intro h
  have hlast := Along.at h
  have hheld : ∃ p ∈ (SmoothChan.book (smooth3h.step typeDigest id quietEnv
      (smoothAfter gappedEvents) (.scan gappedHours)).1).held,
      ¬ SideFits p.2 (SmoothChan.book (smooth3h.step typeDigest id quietEnv
        (smoothAfter gappedEvents) (.scan gappedHours)).1).direction := by
    decide +kernel
  obtain ⟨p, hp, hside⟩ := hheld
  exact hside (hlast.cycle.after.side p hp)

/-- A minute strategy that needs no history, on the same candles as `suplo`. -/
def minuteParams : MinuteParams where
  alphaId := "minute"
  version := "v1"
  minM15Bars := 1

/-- Each of the rising candles is scanned, and after the second one a minute. -/
def risingMinutes : List MinuteTrailing.Event :=
  [.kline15m true (some 1700000000000), .scan ⟨risingCandles.take 1, []⟩,
    .kline15m true (some 1700000900000), .kline1m true (some 1700001780000),
    .scan ⟨risingCandles.take 2, [⟨110, 111, 109, 110, 1700001780000⟩]⟩]

/-- The same candles for a strategy that decides on the closed ones. -/
def risingClosed : List SupertrendAdx.Event :=
  [.kline true (some 1700000900000), .scan (risingCandles.take 2),
    .kline true (some 1700001800000), .scan (risingCandles.take 3)]

def adx : SupertrendAdx where
  alphaId := "adx"
  version := "v1"
  minM15Bars := 1

theorem cash_until_flip_rising :
    Along (suplo.step typeDigest id quietEnv)
      (fun w e => FollowsFlips SuploXau.book w (suplo.step typeDigest id quietEnv w e))
      ({}, { dispatcher := {} }) (risingRun 4) ∧
    Along ((supertrendXauV2 minuteParams 5).step typeDigest id quietEnv)
      (fun w e => FollowsFlips MinuteTrailing.book w
        ((supertrendXauV2 minuteParams 5).step typeDigest id quietEnv w e))
      ({}, { dispatcher := {} }) risingMinutes ∧
    Along (adx.step typeDigest id quietEnv)
      (fun w e => FollowsFlips SupertrendAdx.book w (adx.step typeDigest id quietEnv w e))
      ({}, { dispatcher := {} }) risingClosed ∧
    Along (smooth3h.step typeDigest id quietEnv)
      (fun w e => FollowsFlips SmoothChan.book w (smooth3h.step typeDigest id quietEnv w e))
      ({}, { dispatcher := {} }) risingScans := by
  have hall := cash_until_flip typeDigest id quietEnv {} fun _ _ => rfl
  exact ⟨hall.1 suplo (risingRun 4) (by decide +kernel),
    hall.2.1 minuteParams 5 risingMinutes (by decide +kernel), hall.2.2.1 adx risingClosed,
    hall.2.2.2 smooth3h risingScans (by decide +kernel)⟩

end PaperTrade.Runner
