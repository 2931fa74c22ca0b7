import PaperTrade.Runtime.ExpAverage
import PaperTrade.Runtime.Window

/-!
# The V5 indicators

Three implementations of one tail indicator: `V5SymbolState` keeps running sums and windows and takes one
bar after another, `compute_v5_tail_indicators` goes through the whole history, and
`compute_v5_tail_indicators_numpy` does so with arrays.

The arithmetic is that of an ordered field; `None` and the NaNs of the arrays are `none`.
-/

namespace PaperTrade.Indicators

open PaperTrade.Runtime

variable {K : Type} [Field K] [LinearOrder K]

/-- A `(close, high, low)` triple. -/
structure V5Bar (K : Type) where
  close : K
  high : K
  low : K

/-- The four lengths. -/
structure V5Params where
  smaLen : ℕ
  atrLen : ℕ
  pocLen : ℕ
  normWindow : ℕ

/-- The result dict. -/
structure V5Result (K : Type) where
  acol : K
  acolPrev : K
  atr : K
  poc : K
  close : K
  high : K
  low : K
deriving DecidableEq

/-- `1e-12`. -/
def tiny : K := 1 / (10 : ℕ) ^ 12

/-- `max((abs(value) for value in values), default=0.0)`. -/
def absMax (values : List K) : K :=
  match values.map fun v => |v| with
  | [] => 0
  | v :: rest => rest.foldl max v

/-- The true range of a bar after a close. -/
def trueRange (prevClose high low : K) : K :=
  max (max (high - low) |high - prevClose|) |low - prevClose|

/-- `acol`: the last difference by the greatest one of the window. -/
def normalized (adiff : Option K) (window : List K) : Option K :=
  adiff.bind fun a => if tiny < absMax window then some (a / absMax window) else none

/-- The value in the middle of a sorted window, or the mean of the two. -/
def sortedMedian (sorted : List K) (period : ℕ) : K :=
  let mid := period / 2
  if period % 2 = 0 then (sorted.getD (mid - 1) 0 + sorted.getD mid 0) / (2 : ℕ) else sorted.getD mid 0

/-! ## `V5SymbolState` -/

structure V5SymbolState (K : Type) where
  params : V5Params
  close : List K := []
  high : List K := []
  low : List K := []
  smaSum : K
  smaValues : List (Option K) := []
  trSum : K
  trWindow : List K := []
  pocSorted : List K := []
  adiffWindow : List K := []
  lastAcol : Option K := none

namespace V5SymbolState

def new (params : V5Params) : V5SymbolState K where
  params := params
  smaSum := 0
  trSum := 0

/-- `l[-k]`. -/
def fromEnd {α : Type} (l : List α) (k : ℕ) : Option α := l[l.length - k]?

/-- `insort`: behind the values that are not greater. -/
def insort (l : List K) (x : K) : List K :=
  l.takeWhile (fun v => v ≤ x) ++ x :: l.dropWhile fun v => v ≤ x

variable (s : V5SymbolState K)

/-- `append`: the sum and the moving average, after the bar has been stored. -/
def addSma (close : K) : V5SymbolState K :=
  let smaSum := if s.params.smaLen < s.close.length then
      s.smaSum + close - (fromEnd s.close (s.params.smaLen + 1)).getD 0
    else s.smaSum + close
  { s with
    smaSum := smaSum
    smaValues := s.smaValues ++
      [if s.params.smaLen ≤ s.close.length then some (smaSum / s.params.smaLen) else none] }

/-- `append`: `adiff`, if there are two averages to compare. -/
def currentAdiff : Option K :=
  if s.smaValues.length ≤ 5 then none
  else do
    let currentSma ← (fromEnd s.smaValues 1).join
    let prevSma ← (fromEnd s.smaValues 6).join
    pure (currentSma - prevSma)

/-- `append`: the window of the differences. -/
def addAdiff : V5SymbolState K where
  __ := s
  adiffWindow := match s.currentAdiff with
    | none => s.adiffWindow
    | some adiff =>
      let window := s.adiffWindow ++ [adiff]
      if s.params.normWindow < window.length then window.tail else window

/-- `append`: the sum and the window of the true ranges. -/
def addTr (prevClose high low : K) : V5SymbolState K :=
  let tr := if 1 < s.close.length then trueRange prevClose high low else 0
  let window := s.trWindow ++ [tr]
  { s with
    trSum := if s.params.atrLen < window.length then s.trSum + tr - window.headD 0 else s.trSum + tr
    trWindow := if s.params.atrLen < window.length then window.tail else window }

/-- `append`: the sorted window of the closes; `none` is the `ValueError` of `index`. -/
def addPoc (close : K) : Option (V5SymbolState K) :=
  let sorted := insort s.pocSorted close
  if s.params.pocLen < s.close.length then do
    let old ← fromEnd s.close (s.params.pocLen + 1)
    if old ∈ sorted then pure { s with pocSorted := sorted.erase old } else none
  else pure { s with pocSorted := sorted }

/-- `append`: the result after all windows have moved. -/
def result (currentAcol : Option K) (close high low : K) : Option (V5Result K) :=
  if s.close.length < s.params.normWindow + s.params.smaLen + 10 then none
  else do
    let acol ← currentAcol
    let acolPrev ← s.lastAcol
    if s.trWindow.length < s.params.atrLen ∨ s.pocSorted.length < s.params.pocLen then none
    else
      let atr := s.trSum / s.params.atrLen
      if atr ≤ 0 then none
      else some ⟨acol, acolPrev, atr, sortedMedian s.pocSorted s.params.pocLen, close, high, low⟩

/-- `append`. -/
def append (b : V5Bar K) : Option (V5SymbolState K × Option (V5Result K)) := do
  let prevClose := s.close.getLast?.getD b.close
  let s := { s with close := s.close ++ [b.close], high := s.high ++ [b.high], low := s.low ++ [b.low] }
  let s := s.addSma b.close
  let adiff := s.currentAdiff
  let s := s.addAdiff
  let currentAcol := normalized adiff s.adiffWindow
  let s ← (s.addTr prevClose b.high b.low).addPoc b.close
  pure ({ s with lastAcol := currentAcol }, s.result currentAcol b.close b.high b.low)

/-- The bars of a list, one after another, with the result of the last one. -/
def feed (params : V5Params) (bars : List (V5Bar K)) : Option (V5SymbolState K × Option (V5Result K)) :=
  bars.foldlM (fun w b => append w.1 b) (new params, none)

end V5SymbolState

/-! ## `compute_v5_tail_indicators` -/

/-- `_prefix`. -/
def prefixSums (vals : List K) : List K := vals.scanl (· + ·) 0

/-- `_window_avg`. -/
def windowAvg (sums : List K) (endIndex : ℤ) (period : ℕ) : Option K :=
  let start := endIndex - period + 1
  if start < 0 then none
  else some ((sums.getD (endIndex + 1).toNat 0 - sums.getD start.toNat 0) / period)

/-- `_adiff_at`. -/
def adiffAt (sums : List K) (index : ℤ) (smaLen : ℕ) : Option K := do
  let avg ← windowAvg sums index smaLen
  let prev ← windowAvg sums (index - 5) smaLen
  pure (avg - prev)

/-- `_median_tail`. -/
def medianTail (vals : List K) (period : ℕ) : Option K :=
  if vals.length < period then none
  else some (sortedMedian ((lastOf period vals).insertionSort (· ≤ ·)) period)

/-- `_atr_tail`. -/
def atrTail (high low close : List K) (period : ℕ) : Option K :=
  let n := close.length
  if n ≤ period then none
  else some (((List.range' (n - period) period).map fun i =>
    trueRange (close.getD (i - 1) 0) (high.getD i 0) (low.getD i 0)).sum / period)

/-- `compute_v5_tail_indicators`: one element of `acol_values`. -/
def acolAt (sums : List K) (p : V5Params) (target : ℤ) : Option K :=
  let start := target - p.normWindow + 1
  let ds := (List.range p.normWindow).filterMap fun k : ℕ => adiffAt sums (start + k) p.smaLen
  normalized (adiffAt sums target p.smaLen) ds

/-- `compute_v5_tail_indicators`. -/
def computeV5TailIndicators (p : V5Params) (close high low : List K) : Option (V5Result K) :=
  let n := close.length
  if n < p.normWindow + p.smaLen + 10 then none
  else do
    let sums := prefixSums close
    let acolPrev ← acolAt sums p (n - 2)
    let acol ← acolAt sums p (n - 1)
    let atr ← atrTail high low close p.atrLen
    let poc ← medianTail close p.pocLen
    if atr ≤ 0 then none
    else some ⟨acol, acolPrev, atr, poc, close.getLastD 0, high.getLastD 0, low.getLastD 0⟩

/-! ## `compute_v5_tail_indicators_numpy` -/

/-- `sma`. -/
def smaArray (close : List K) (smaLen : ℕ) : List (Option K) :=
  let n := close.length
  let sums := prefixSums close
  let firstValid := smaLen - 1
  if firstValid < n then
    List.replicate firstValid none ++
      List.zipWith (fun a b : K => some ((a - b) / smaLen)) (sums.drop (firstValid + 1))
        (sums.take (n - firstValid))
  else List.replicate n none

/-- `a - b` of arrays with NaNs. -/
def optionSub (a b : Option K) : Option K := a.bind fun v => b.map fun w => v - w

/-- `adiff`. -/
def adiffArray (sma : List (Option K)) : List (Option K) :=
  let n := sma.length
  if 5 < n then List.replicate 5 none ++ List.zipWith optionSub (sma.drop 5) (sma.take (n - 5))
  else List.replicate n none

/-- `compute_v5_tail_indicators_numpy`: one element of `acol_values`. -/
def acolOfArray (adiff : List (Option K)) (normWindow target : ℕ) : Option K :=
  let start := target + 1 - normWindow
  let valid := ((adiff.take (target + 1)).drop start).filterMap id
  if valid.length = 0 then none else normalized (adiff.getD target none) valid

/-- `tr`. -/
def trArray (close high low : List K) : List K :=
  let prevClose := close.take 1 ++ close.dropLast
  List.zipWith max (List.zipWith (· - ·) high low)
    (List.zipWith max (List.zipWith (fun h p => |h - p|) high prevClose)
      (List.zipWith (fun l p => |l - p|) low prevClose))

/-- `compute_v5_tail_indicators_numpy`. -/
def computeV5TailIndicatorsNumpy (p : V5Params) (close high low : List K) : Option (V5Result K) :=
  let n := close.length
  if n < p.normWindow + p.smaLen + 10 then none
  else do
    let adiff := adiffArray (smaArray close p.smaLen)
    let acolPrev ← acolOfArray adiff p.normWindow (n - 2)
    let acol ← acolOfArray adiff p.normWindow (n - 1)
    if n ≤ p.atrLen then none
    else
      let last := lastOf p.atrLen (trArray close high low)
      let atr := last.sum / last.length
      if atr ≤ 0 then none
      else if n < p.pocLen then none
      else some ⟨acol, acolPrev, atr, middle (lastOf p.pocLen close), close.getLastD 0, high.getLastD 0,
        low.getLastD 0⟩

end PaperTrade.Indicators
