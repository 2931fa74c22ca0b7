import PaperTrade.Runtime.ExpAverage
import PaperTrade.Runtime.Series
import PaperTrade.Runtime.Window

/-!
# Higher timeframes without a look ahead

alpha-2 trades a base timeframe along the bias of a higher one, and short-btc-v1 enters when the daily
candles are in a downtrend. Both read series that may end with a candle that is still forming, or in which
later candles were corrected. What they decide at a bar depends on the candles that are closed by then:
alpha-2 decides the same whenever the bar is computed again (`decisions_stand`), and the daily gate of
short-btc-v1 is the same for all daily series that agree on the closed candles (`d1Gate_closed`).

The size of alpha-2 (`vol_target_scale`) has a square root and is left out. It is computed from the base
closes alone.
-/

namespace PaperTrade.Alphas.HigherTimeframes

open PaperTrade.Runtime

/-! ## pandas -/

/-- A window of floats that pandas aggregates: it is full, and all of it are numbers. -/
def windowValue (n : ℕ) (agg : List ℚ → ℚ) (p : List PyFloat) : PyFloat :=
  if p.length < n then .nan
  else if (lastOf n p).all PyFloat.isFinite then .fin (agg ((lastOf n p).map PyFloat.toRat))
  else .nan

/-- `rolling(n).apply(agg)`. -/
def rolling (n : ℕ) (agg : List ℚ → ℚ) : List PyFloat → List PyFloat := eachPrefix (windowValue n agg)

/-- `shift(k)`. -/
def shift (k : ℕ) : List PyFloat → List PyFloat := shiftBy k .nan

/-- `x / y` of numpy, which does not raise. -/
def npDiv : PyFloat → PyFloat → PyFloat
  | .fin p, .fin q => if q = 0 then if p = 0 then .nan else .inf (decide (p < 0)) else .fin (p / q)
  | x, y => x / y

/-- `.mean()`. -/
def meanOf (xs : List ℚ) : ℚ := xs.sum / xs.length

/-- `.max()`. -/
def maxOf : List ℚ → ℚ
  | [] => 0
  | x :: xs => xs.foldl max x

/-- `np.percentile(xs, pct)`: between the values around the place of the percentage. -/
def percentile (pct : ℚ) (xs : List ℚ) : ℚ :=
  let sorted := xs.insertionSort (· ≤ ·)
  let place := pct / 100 * (sorted.length - 1)
  let below := place.floor.toNat
  let low := sorted.getD below 0
  low + (sorted.getD (below + 1) low - low) * (place - below)

/-! ## alpha-2 -/

inductive Color
  | green
  | red
deriving DecidableEq

inductive Bias
  | long
  | short
deriving DecidableEq

/-- The settings that the signals read. -/
structure Settings where
  smaLen : ℕ := 85
  diffLag : ℕ := 5
  denomLen : ℕ := 500
  trendUp : ℚ := 1 / 10
  trendDn : ℚ := -1 / 10
  opiLen : ℕ := 85
  opiPct : ℚ := 65

/-- `"4h"` or `"1d"`: the number and the unit. -/
structure Interval where
  value : ℤ
  unit : Char

/-- `tf_delta`, in milliseconds. -/
def Interval.delta (i : Interval) : ℤ := if i.unit = 'h' then i.value * 3600000 else i.value * 86400000

/-- The open time of a candle, and its close. -/
abbrev Row := ℤ × PyFloat

section Signals

variable (s : Settings)

/-- `avg_col`. -/
def avgCol (close : List PyFloat) : List PyFloat :=
  let avg := rolling s.smaLen meanOf close
  let avgDiff := List.zipWith (· - ·) avg (shift s.diffLag avg)
  List.zipWith npDiv avgDiff (rolling s.denomLen maxOf avgDiff)

/-- `cross_up` and `cross_dn` of a value after the one before. -/
def crosses (prev cur : PyFloat) : Bool × Bool :=
  (decide (prev ≤ .fin s.trendUp ∧ .fin s.trendUp < cur), decide (.fin s.trendDn ≤ prev ∧ cur < .fin s.trendDn))

/-- The loop of `compute_greenred`. -/
def greenredStep (state : Option Bool) (cross : Bool × Bool) : Option Bool :=
  if cross.1 ∧ state ≠ some true then some true
  else if cross.2 ∧ state = some true then some false
  else state

/-- `"green" if state is True else "red" if state is False else None`. -/
def greenredColor (state : Option Bool) : Option Color :=
  state.map fun up => if up then Color.green else Color.red

/-- `compute_greenred`. -/
def computeGreenred (close : List PyFloat) : List (Option Color) :=
  (states greenredStep none
    (List.zipWith (crosses s) (shift 1 (avgCol s close)) (avgCol s close))).map greenredColor

/-- `sig_up`. -/
def sigUp (close : List PyFloat) : List Bool :=
  let poc := rolling s.opiLen middle close
  let upper := rolling s.opiLen (percentile (100 - (100 - s.opiPct) / 2)) close
  List.zipWith and (List.zipWith (fun src u => decide (u ≤ src)) close upper)
    (List.zipWith (fun cur prev => decide (prev ≤ cur)) poc (shift 1 poc))

/-- `sig_dn`. -/
def sigDn (close : List PyFloat) : List Bool :=
  let poc := rolling s.opiLen middle close
  let lower := rolling s.opiLen (percentile ((100 - s.opiPct) / 2)) close
  List.zipWith and (List.zipWith (fun src l => decide (src ≤ l)) close lower)
    (List.zipWith (fun cur prev => decide (cur ≤ prev)) poc (shift 1 poc))

/-- The loop of `compute_strategy`. -/
def strategyStep (cur : Option Color) (sig : Bool × Bool) : Option Color :=
  if sig.1 then some .green else if sig.2 then some .red else cur

/-- `compute_strategy`. -/
def computeStrategy (close : List PyFloat) : List (Option Color) :=
  states strategyStep none (List.zipWith Prod.mk (sigUp s close) (sigDn s close))

/-- `combined_state` of a bar; `none` is `"none"`. -/
def combine : Option Color → Option Color → Option Bias
  | some .green, some .green => some .long
  | some .red, some .red => some .short
  | _, _ => none

/-- `combined_state`. -/
def combinedState (close : List PyFloat) : List (Option Bias) :=
  List.zipWith combine (computeGreenred s close) (computeStrategy s close)

/-- `persistent_bias`. -/
def persistentBias : List (Option Bias) → List (Option Bias) := states (fun cur st => st.or cur) none

/-- `htf["bias"]`. -/
def htfBias (close : List PyFloat) : List (Option Bias) := persistentBias (combinedState s close)

/-- The close times of candles. -/
def closing {β : Type} (delta : ℤ) (rows : List (ℤ × β)) : List (ℤ × β) :=
  rows.map fun r => (r.1 + delta, r.2)

/-- `attach_htf_bias`; a bar before the first close of the higher timeframe has `none`, which is NaN. -/
def attachHtfBias (base htf : List Row) (htfInterval baseInterval : Interval) :
    List (Option (Option Bias)) :=
  let closed := closing htfInterval.delta htf
  let right := (((closed.map Prod.fst).zip (htfBias s (closed.map Prod.snd)))).insertionSort
    fun a b => a.1 ≤ b.1
  let left := ((closing baseInterval.delta base).map Prod.fst).insertionSort (· ≤ ·)
  left.map fun t => asof t right

/-- What `_compute_indicators` returns, but for the size. -/
structure Indicators where
  latestState : Option Bias
  latestHbias : Option (Option Bias)
  close : PyFloat
  signalOpenTimeMs : ℤ

/-- `_compute_indicators`; `latest_long_sig` and `latest_short_sig` are whether the state is the one or
the other. -/
def computeIndicators (htfInterval baseInterval : Interval) (base htf : List Row) : Option Indicators :=
  if base.length < s.denomLen ∨ htf.length < 5 then none
  else do
    let state ← (combinedState s (base.map Prod.snd)).getLast?
    let hbias ← (attachHtfBias s base htf htfInterval baseInterval).getLast?
    let last ← base.getLast?
    pure ⟨state, hbias, last.2, last.1⟩

end Signals

/-! ## No look ahead -/

section Causal

variable (s : Settings)

lemma causal_rolling (n : ℕ) (agg : List ℚ → ℚ) : Causal (rolling n agg) := causal_eachPrefix _

lemma causal_shift (k : ℕ) : Causal (shift k) := causal_shiftBy k _

lemma causal_id : Causal (fun close : List PyFloat => close) := ⟨fun _ => rfl, fun _ _ => rfl⟩

lemma causal_avgCol : Causal (avgCol s) := by
  have havg := causal_rolling s.smaLen meanOf
  have hdiff := havg.zipWith (· - ·) ((causal_shift s.diffLag).comp havg)
  exact hdiff.zipWith npDiv ((causal_rolling s.denomLen maxOf).comp hdiff)

lemma causal_computeGreenred : Causal (computeGreenred s) := by
  have hcol := causal_avgCol s
  have hcross := ((causal_shift 1).comp hcol).zipWith (crosses s) hcol
  exact (causal_map greenredColor).comp ((causal_states greenredStep none).comp hcross)

lemma causal_sigUp : Causal (sigUp s) := by
  have hpoc := causal_rolling s.opiLen middle
  have hupper := causal_rolling s.opiLen (percentile (100 - (100 - s.opiPct) / 2))
  have habove := causal_id.zipWith (fun src u => decide (u ≤ src)) hupper
  exact habove.zipWith and
    (hpoc.zipWith (fun cur prev => decide (prev ≤ cur)) ((causal_shift 1).comp hpoc))

lemma causal_sigDn : Causal (sigDn s) := by
  have hpoc := causal_rolling s.opiLen middle
  have hlower := causal_rolling s.opiLen (percentile ((100 - s.opiPct) / 2))
  have hbelow := causal_id.zipWith (fun src l => decide (src ≤ l)) hlower
  exact hbelow.zipWith and
    (hpoc.zipWith (fun cur prev => decide (cur ≤ prev)) ((causal_shift 1).comp hpoc))

lemma causal_computeStrategy : Causal (computeStrategy s) :=
  (causal_states strategyStep none).comp ((causal_sigUp s).zipWith Prod.mk (causal_sigDn s))

lemma causal_combinedState : Causal (combinedState s) :=
  (causal_computeGreenred s).zipWith combine (causal_computeStrategy s)

lemma causal_htfBias : Causal (htfBias s) := (causal_states _ none).comp (causal_combinedState s)

variable {s} {base htf : List Row} {htfInterval baseInterval : Interval}

lemma Ascending.closing {β : Type} {rows : List (ℤ × β)} (h : Ascending rows) (delta : ℤ) :
    Ascending (closing delta rows) := by
  unfold HigherTimeframes.closing Ascending
  rw [List.pairwise_map]
  exact h.imp fun hlt => by simpa using hlt

lemma map_closing {β γ : Type} (f : ℤ → γ) (delta : ℤ) (rows : List (ℤ × β)) :
    ((closing delta rows).map Prod.fst).map f = rows.map fun r => f (r.1 + delta) := by
  rw [closing, List.map_map, List.map_map]
  rfl

/-- Of ascending candles every bar has the bias of its close. -/
lemma attachHtfBias_eq (hbase : Ascending base) (hhtf : Ascending htf) :
    attachHtfBias s base htf htfInterval baseInterval = base.map fun r =>
      asof (r.1 + baseInterval.delta) (((closing htfInterval.delta htf).map Prod.fst).zip
        (htfBias s ((closing htfInterval.delta htf).map Prod.snd))) := by
  have hclosed := Ascending.closing hhtf htfInterval.delta
  have hleft : ((closing baseInterval.delta base).map Prod.fst).insertionSort (· ≤ ·) =
      (closing baseInterval.delta base).map Prod.fst := by
    apply List.Pairwise.insertionSort_eq
    rw [List.pairwise_map]
    exact (Ascending.closing hbase baseInterval.delta).imp fun hlt => le_of_lt hlt
  have hright := ascending_zip (causal_htfBias s) hclosed
  unfold attachHtfBias
  dsimp only
  rw [hleft, List.Pairwise.insertionSort_eq (hright.imp fun hlt => le_of_lt hlt)]
  exact map_closing ..

/-- What alpha-2 decides at the last bar it has seen stands: with more base candles, and with any candles
of the higher timeframe that close later, the state and the bias of this bar are the same. -/
theorem decisions_stand (s : Settings) {htfInterval baseInterval : Interval} {base base' htf htf' : List Row}
    (hbase : Ascending base') (hhtf : Ascending htf) (hhtf' : Ascending htf') (hbefore : base <+: base')
    (hclosed : ∀ last, base.getLast? = some last →
      rowsOf (last.1 + baseInterval.delta) (closing htfInterval.delta htf) =
        rowsOf (last.1 + baseInterval.delta) (closing htfInterval.delta htf'))
    {indicators : Indicators}
    (h : computeIndicators s htfInterval baseInterval base htf = some indicators) :
    (combinedState s (base'.map Prod.snd))[base.length - 1]? = some indicators.latestState ∧
      (attachHtfBias s base' htf' htfInterval baseInterval)[base.length - 1]? =
        some indicators.latestHbias := by
  obtain ⟨later, rfl⟩ := hbefore
  have hascending : Ascending base := (List.pairwise_append.mp hbase).1
  unfold computeIndicators at h
  split at h
  · cases h
  obtain ⟨state, hstate, h⟩ := Option.bind_eq_some_iff.mp h
  obtain ⟨hbias, hhbias, h⟩ := Option.bind_eq_some_iff.mp h
  obtain ⟨last, hlast, h⟩ := Option.bind_eq_some_iff.mp h
  obtain rfl := Option.some.inj h
  have hlength : 0 < base.length := by
    cases base with
    | nil => cases hlast
    | cons r rest => exact Nat.succ_pos _
  constructor
  · have hcausal := causal_combinedState s
    rw [← hstate, List.getLast?_eq_getElem?, hcausal.length, List.length_map]
    apply hcausal.getElem?_congr (n := base.length) _ (by omega)
    rw [List.map_append, List.take_left' (List.length_map _), List.take_of_length_le (List.length_map _).le]
  · rw [attachHtfBias_eq hascending hhtf, List.getLast?_map, hlast, Option.map_some, Option.some.injEq]
      at hhbias
    have hbar : (base ++ later)[base.length - 1]? = some last := by
      rw [List.getElem?_append_left (by omega), ← List.getLast?_eq_getElem?, hlast]
    rw [attachHtfBias_eq hbase hhtf', List.getElem?_map, hbar, Option.map_some, ← hhbias]
    exact congrArg some (asof_congr (causal_htfBias s) (Ascending.closing hhtf' _)
      (Ascending.closing hhtf _) (hclosed last hlast).symm)

end Causal

/-- Settings of which three base candles are enough. -/
def shortWindows : Settings := { smaLen := 1, diffLag := 1, denomLen := 2, opiLen := 2 }

/-- Candles of some hours from a time on. -/
def hourly (hours : ℤ) (closes : List ℚ) : List Row :=
  closes.mapIdx fun i close => (hours * 3600000 * i, .fin close)

/-- At the twelfth hour the last of five candles of three hours is still forming. -/
theorem decisions_stand_forming : ∃ indicators,
    computeIndicators shortWindows ⟨3, 'h'⟩ ⟨4, 'h'⟩ (hourly 4 [7, 8, 10]) (hourly 3 [1, 2, 4, 8, 1]) =
      some indicators ∧
    (combinedState shortWindows ((hourly 4 [7, 8, 10, 2]).map Prod.snd))[2]? = some indicators.latestState ∧
    (attachHtfBias shortWindows (hourly 4 [7, 8, 10, 2]) (hourly 3 [1, 2, 4, 8, 16, 3]) ⟨3, 'h'⟩ ⟨4, 'h'⟩)[2]? =
      some indicators.latestHbias := by
  have hsome : (computeIndicators shortWindows ⟨3, 'h'⟩ ⟨4, 'h'⟩ (hourly 4 [7, 8, 10])
      (hourly 3 [1, 2, 4, 8, 1])).isSome = true := by decide +kernel
  obtain ⟨indicators, h⟩ := Option.isSome_iff_exists.mp hsome
  have hbefore : hourly 4 [7, 8, 10] <+: hourly 4 [7, 8, 10, 2] := ⟨[(43200000, .fin 2)], rfl⟩
  refine ⟨indicators, h, decisions_stand shortWindows ?_ ?_ ?_ hbefore ?_ h⟩
  · unfold Ascending
    decide +kernel
  · unfold Ascending
    decide +kernel
  · unfold Ascending
    decide +kernel
  · rintro last ⟨⟩
    decide +kernel

/-! ## short-btc-v1 -/

section Daily

variable {K : Type} [Field K]

/-- The loop of `calc_ema`, from its first value on. -/
def emaFrom (k : K) : K → List K → List (Option K)
  | s, [] => [some s]
  | s, v :: vals => some s :: emaFrom k (v * k + s * (1 - k)) vals

/-- `calc_ema`. -/
def calcEma (p : ℕ) (vals : List K) : List (Option K) :=
  if vals.length < p then List.replicate vals.length none
  else List.replicate (p - 1) none ++
    emaFrom (((2 : ℕ) : K) / ((p : K) + 1)) ((vals.take p).sum / (p : K)) (vals.drop p)

/-- `bisect_right` of a sorted list. -/
def bisectRight (l : List ℤ) (t : ℤ) : ℕ := (l.takeWhile (· ≤ t)).length

section Gate

variable [LinearOrder K]

/-- The conditions of `passes_d1_downtrend` at one of the candles; `none` is an index out of range. -/
def downtrendAt (d1Closes : List K) (d1EmaFast d1EmaSlow : List (Option K)) (slopeLookback idx : ℕ) :
    Option Bool := do
  let fast ← d1EmaFast[idx]?
  let slow ← d1EmaSlow[idx]?
  let before ← d1EmaFast[idx - slopeLookback]?
  let close ← d1Closes[idx]?
  match fast, slow, before with
  | some fast, some slow, some before => some (close < slow ∧ fast < slow ∧ fast - before < 0)
  | _, _, _ => some false

/-- `passes_d1_downtrend`. -/
def passesD1Downtrend (d1Closes : List K) (d1EmaFast d1EmaSlow : List (Option K)) (d1OpenTimesMs : List ℤ)
    (signalTimeMs : ℤ) (slopeLookback : ℕ := 5) (periodMs : ℤ := 86400000) : Option Bool :=
  if d1OpenTimesMs = [] then some false
  else
    let idx : ℤ := bisectRight (d1OpenTimesMs.map (· + periodMs)) signalTimeMs - 1
    if idx < slopeLookback then some false
    else downtrendAt d1Closes d1EmaFast d1EmaSlow slopeLookback idx.toNat

/-- The daily gate of `_compute_indicators`. -/
def d1Gate (emaFast emaSlow slopeLookback : ℕ) (daily : List (ℤ × K)) (candleCloseMs : ℤ) : Option Bool :=
  let closes := daily.map Prod.snd
  passesD1Downtrend closes (calcEma emaFast closes) (calcEma emaSlow closes) (daily.map Prod.fst)
    candleCloseMs slopeLookback

end Gate

variable {daily : List (ℤ × K)} {t : ℤ}

lemma length_emaFrom (k s : K) (vals : List K) : (emaFrom k s vals).length = vals.length + 1 := by
  induction vals generalizing s with
  | nil => rfl
  | cons v vals ih => exact congrArg (· + 1) (ih _)

lemma emaFrom_take (k s : K) (vals : List K) (n : ℕ) :
    emaFrom k s (vals.take n) = (emaFrom k s vals).take (n + 1) := by
  induction vals generalizing s n with
  | nil => simp [emaFrom]
  | cons v vals ih =>
    cases n with
    | zero => rfl
    | succ n =>
      show some s :: emaFrom k _ (vals.take n) = some s :: (emaFrom k _ vals).take (n + 1)
      rw [ih]

lemma causal_calcEma {p : ℕ} (hp : 0 < p) : Causal (calcEma (K := K) p) where
  length vals := by
    unfold calcEma
    split
    · exact List.length_replicate
    · rw [List.length_append, List.length_replicate, length_emaFrom, List.length_drop]
      omega
  take vals n := by
    unfold calcEma
    rw [List.length_take]
    by_cases hall : vals.length < p
    · rw [if_pos hall, if_pos (by omega), List.take_replicate]
    rw [if_neg hall]
    by_cases hn : n < p
    · -- the prefix ends before the first value
      rw [if_pos (by omega), List.take_append_of_le_length (by rw [List.length_replicate]; omega),
        List.take_replicate]
      congr 1
      omega
    · have hsplit : (List.replicate (p - 1) (none : Option K)).length + (n - p + 1) = n := by
        rw [List.length_replicate]
        omega
      rw [if_neg (by omega), List.take_take, min_eq_left (by omega), List.drop_take, emaFrom_take, ← hsplit,
        List.take_length_add_append, hsplit]

lemma takeWhile_of_ascending {times : List ℤ} (h : times.Pairwise (· < ·)) :
    times.takeWhile (· ≤ t) = times.filter (· ≤ t) := by
  induction times with
  | nil => rfl
  | cons u times ih =>
    obtain ⟨hfirst, hrest⟩ := List.pairwise_cons.mp h
    by_cases hu : u ≤ t
    · rw [List.takeWhile_cons_of_pos (by simpa using hu), List.filter_cons_of_pos (by simpa using hu),
        ih hrest]
    · rw [List.takeWhile_cons_of_neg (by simpa using hu), List.filter_cons_of_neg (by simpa using hu)]
      refine (List.filter_eq_nil_iff.mpr fun w hw hwt => ?_).symm
      have hle : w ≤ t := of_decide_eq_true hwt
      have hlt := hfirst w hw
      omega

omit [Field K] in
/-- Of ascending candles, bisection finds those that are closed. -/
lemma bisectRight_closing (h : Ascending daily) (delta : ℤ) :
    bisectRight ((daily.map Prod.fst).map (· + delta)) t = (rowsOf t (closing delta daily)).length := by
  have htimes : (daily.map Prod.fst).map (· + delta) = (closing delta daily).map Prod.fst := by
    rw [closing, List.map_map, List.map_map]
    rfl
  have hsorted : ((closing delta daily).map Prod.fst).Pairwise (· < ·) := by
    rw [List.pairwise_map]
    exact Ascending.closing h delta
  rw [bisectRight, htimes, length_rowsOf, takeWhile_of_ascending hsorted]

variable [LinearOrder K]

/-- What the gate reads: the averages and the close of the last candle that is closed. -/
lemma d1Gate_eq (h : Ascending daily) (emaFast emaSlow slopeLookback : ℕ) :
    d1Gate emaFast emaSlow slopeLookback daily t =
      let idx : ℤ := (rowsOf t (closing 86400000 daily)).length - 1
      let closes := daily.map Prod.snd
      if idx < slopeLookback then some false
      else downtrendAt closes (calcEma emaFast closes) (calcEma emaSlow closes) slopeLookback idx.toNat := by
  unfold d1Gate passesD1Downtrend
  rw [bisectRight_closing h]
  split
  · rename_i hempty
    have hnil : daily = [] := List.map_eq_nil_iff.mp hempty
    subst hnil
    show some false = if ((0 : ℕ) : ℤ) - 1 < slopeLookback then some false else _
    rw [if_pos (by omega)]
  · rfl

/-- Daily series that agree on the candles that are closed by a time pass the gate at this time alike. -/
theorem d1Gate_closed {daily daily' : List (ℤ × K)} (h : Ascending daily) (h' : Ascending daily')
    {emaFast emaSlow : ℕ} (hfast : 0 < emaFast) (hslow : 0 < emaSlow) (slopeLookback : ℕ) (t : ℤ)
    (hclosed : rowsOf t (closing 86400000 daily) = rowsOf t (closing 86400000 daily')) :
    d1Gate emaFast emaSlow slopeLookback daily t = d1Gate emaFast emaSlow slopeLookback daily' t := by
  have htaken : daily.take (rowsOf t (closing 86400000 daily)).length =
      daily'.take (rowsOf t (closing 86400000 daily)).length := by
    have htake := rowsOf_eq_take (Ascending.closing h 86400000) t
    have htake' := rowsOf_eq_take (Ascending.closing h' 86400000) t
    rw [← hclosed] at htake'
    have hclosing := htake.symm.trans htake'
    rw [closing, closing, ← List.map_take, ← List.map_take] at hclosing
    refine (List.map_injective_iff.mpr fun a b hab => ?_) hclosing
    obtain ⟨htime, hvalue⟩ := Prod.mk.inj hab
    exact Prod.ext (add_right_cancel htime) hvalue
  rw [d1Gate_eq h, d1Gate_eq h', ← hclosed]
  set k := (rowsOf t (closing 86400000 daily)).length
  have hcloses : (daily.map Prod.snd).take k = (daily'.map Prod.snd).take k := by
    rw [← List.map_take, ← List.map_take, htaken]
  dsimp only
  split
  · rfl
  rename_i hidx
  have hlt : ((k : ℤ) - 1).toNat < k := by omega
  have hbefore : ((k : ℤ) - 1).toNat - slopeLookback < k := by omega
  have hclose : (daily.map Prod.snd)[((k : ℤ) - 1).toNat]? = (daily'.map Prod.snd)[((k : ℤ) - 1).toNat]? := by
    rw [← List.getElem?_take_of_lt hlt, hcloses, List.getElem?_take_of_lt hlt]
  unfold downtrendAt
  rw [(causal_calcEma hfast).getElem?_congr hcloses hlt, (causal_calcEma hslow).getElem?_congr hcloses hlt,
    (causal_calcEma hfast).getElem?_congr hcloses hbefore, hclose]

end Daily

/-- Daily candles from a time on. -/
def days (closes : List ℚ) : List (ℤ × ℚ) := closes.mapIdx fun i close => (86400000 * i, close)

/-- Seven falling days pass the gate at noon of the eighth, whatever it has come to. -/
theorem d1Gate_closed_noon :
    d1Gate 2 3 5 (days [90, 80, 70, 60, 50, 40, 30]) 648000000 = some true ∧
      d1Gate 2 3 5 (days [90, 80, 70, 60, 50, 40, 30]) 648000000 =
        d1Gate 2 3 5 (days [90, 80, 70, 60, 50, 40, 30, 99]) 648000000 := by
  have h : Ascending (days [90, 80, 70, 60, 50, 40, 30]) := by
    unfold Ascending
    decide +kernel
  have h' : Ascending (days [90, 80, 70, 60, 50, 40, 30, 99]) := by
    unfold Ascending
    decide +kernel
  exact ⟨by decide +kernel, d1Gate_closed h h' (by decide) (by decide) 5 648000000 (by decide +kernel)⟩

end PaperTrade.Alphas.HigherTimeframes
