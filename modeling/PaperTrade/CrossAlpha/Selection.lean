import Mathlib.Data.Rat.Sqrt
import PaperTrade.CrossAlpha.Spec
import PaperTrade.Runtime.Series

/-!
# Selecting positions

`select_positions` turns the last row of the signals of an alpha into a book. A row of scores is built
into a book by one of two constructions. `rank` takes the same number of names from both ends;
`winsor_cont` weighs every name by its clipped z-score, or the `top_k` names of each side by a power of
it. A pair of condition rows names the two sides itself and goes on as `rank` does. The construction is
then followed by the liquidity filter of `current_top_k` and by a cut of the longer side.

The signals themselves are an argument (`Signals`), as are the two functions of the numeric library
whose values need not be rational (`Numerics`). Of the panel only the closes and the volumes are read.
-/

namespace PaperTrade.CrossAlpha

open PaperTrade.Runtime

/-- `Series.std` and `Series.pow`, with what is documented of them: a standard deviation is not
negative and is a number only for finite values; a power of a positive number is positive, and it grows
with the base when the exponent is positive. -/
structure Numerics where
  std : List PyFloat → PyFloat
  pow : ℚ → ℚ → ℚ
  std_nonneg : ∀ {l : List PyFloat} {σ : ℚ}, std l = .fin σ → 0 ≤ σ
  std_finite : ∀ {l : List PyFloat} {σ : ℚ}, std l = .fin σ → ∀ x ∈ l, x.isFinite = true
  pow_pos : ∀ {x : ℚ} (p : ℚ), 0 < x → 0 < pow x p
  pow_lt_pow : ∀ {x y p : ℚ}, 0 < p → 0 < x → x < y → pow x p < pow y p

/-- The sample variance. -/
def variance (l : List ℚ) : ℚ :=
  let mean := l.sum / l.length
  (l.map fun x => (x - mean) ^ 2).sum / (l.length - 1)

/-- The numeric library where its values are rational: for variances that are squares and exponents
that are natural numbers. -/
def rationalNumerics : Numerics where
  std l :=
    if 2 ≤ l.length ∧ ∀ x ∈ l, x.isFinite = true then .fin (variance (l.map PyFloat.toRat)).sqrt
    else .nan
  pow x p := x ^ p.num.toNat
  std_nonneg := by
    intro l σ h
    split at h
    · exact PyFloat.fin.inj h ▸ Rat.sqrt_nonneg _
    · cases h
  std_finite := by
    intro l σ h
    split at h
    · rename_i hl
      exact hl.2
    · cases h
  pow_pos _ hx := pow_pos hx _
  pow_lt_pow hp hx hxy := by
    have hnum := Rat.num_pos.mpr hp
    exact pow_lt_pow_left₀ hxy hx.le (by omega)

/-- The closes and the volumes of every symbol, bar by bar. -/
abbrev Panel : Type := Dict String (List (PyFloat × PyFloat))

/-- The last row of what `compute_signal_details` returns: scores, or the two conditions. The book of an
ensemble with an overlay is made from the scores by the overlay and not by a construction. -/
inductive Signals
  | score (row : Series String)
  | conditions (long short : Dict String (Option Bool))
  | overlaid (row weights : Series String)

/-- `round(x)`: half to even. -/
def pyRound (x : ℚ) : ℤ :=
  if x - ⌊x⌋ < 1 / 2 then ⌊x⌋
  else if 1 / 2 < x - ⌊x⌋ then ⌊x⌋ + 1
  else if ⌊x⌋ % 2 = 0 then ⌊x⌋ else ⌊x⌋ + 1

/-- `sorted(names)`. -/
def sortedNames (names : List String) : List String := names.insertionSort (· ≤ ·)

/-! ## The liquidity filter -/

/-- `values.rolling(n, min_periods=1).mean().iloc[-1]`: what is not finite does not count. -/
def rollingMean (n : ℕ) (values : List PyFloat) : PyFloat :=
  let window := (values.drop (values.length - n)).filter PyFloat.isFinite
  window.foldl (· + ·) 0 / .fin window.length

/-- `liquidity`: the mean turnover of the last 30 bars. -/
def liquidity (panel : Panel) : Series String where
  rows := panel.rows.map fun e => (e.1, rollingMean 30 (e.2.map fun bar => bar.1 * bar.2))
  nodup_keys := by
    rw [List.map_map]
    exact panel.nodup_keys

/-- `liquidity_ranks[liquidity_ranks <= spec.universe_size].index`. -/
def eligible (spec : AlphaSpec) (panel : Panel) : List String :=
  (Series.keep (fun r => r ≤ .fin spec.universeSize) (Series.rankDescending (liquidity panel))).keys

/-- Whether the filter lets a name through; it runs under `current_top_k` only. -/
def passesFilter (spec : AlphaSpec) (panel : Panel) (name : String) : Bool :=
  spec.universeMode ≠ .currentTopK ∨ name ∈ eligible spec panel

/-! ## `winsor_cont` -/

/-- The names a book is long in. -/
def longsOf (weights : Series String) : List String := sortedNames (Series.keep (0 < ·) weights).keys

/-- The names a book is short in. -/
def shortsOf (weights : Series String) : List String := sortedNames (Series.keep (· < 0) weights).keys

section Winsor

variable (num : Numerics) (spec : AlphaSpec)

/-- `zscored`. -/
def zscored (latest : Series String) : Series String :=
  let std := num.std latest.values
  Series.map (fun x => (x - latest.mean) / (if std ≠ 0 then std else .nan)) latest

/-- `winsorized`; the clip takes its bounds in either order. -/
def winsorized (latest : Series String) : Series String :=
  Series.map (PyFloat.clip (min (-spec.winsorK) spec.winsorK) (max (-spec.winsorK) spec.winsorK))
    (zscored num latest)

/-- `pool.abs().pow(power)` -/
def powered (pool : Series String) : Series String :=
  Series.map (fun x => match x.abs with
    | .fin q => .fin (num.pow q spec.powerP)
    | y => y) pool

/-- `long_pool`. -/
def longPool (k : ℕ) (latest : Series String) : Series String :=
  Series.nlargest k (Series.keep (0 < ·) (winsorized num spec latest).dropna)

/-- `short_pool`. -/
def shortPool (k : ℕ) (latest : Series String) : Series String :=
  Series.nsmallest k (Series.keep (· < 0) (winsorized num spec latest).dropna)

/-- What is scaled to a gross of one. -/
def raw (latest : Series String) : Series String :=
  match spec.topK with
  | some k => Series.subtractFilled (powered num spec (longPool num spec k latest))
      (powered num spec (shortPool num spec k latest))
  | none => winsorized num spec latest

/-- `scaled`. -/
def scaled (latest : Series String) : Series String :=
  let gross := (raw num spec latest).abs.sum
  if 0 < gross then Series.map (fun w => w / gross) (raw num spec latest) else raw num spec latest

/-- `{str(s): float(w) for s, w in scaled.items() if w != 0}`, and of these what the filter lets
through. -/
def winsorWeights (panel : Panel) (latest : Series String) : Series String :=
  (Series.keep (· ≠ 0) (scaled num spec latest)).filter fun e => passesFilter spec panel e.1

end Winsor

/-- `sum(abs(w) for w in weights.values())`. -/
def grossOf (weights : Series String) : PyFloat := weights.abs.values.foldl (· + ·) 0

/-- `sum(weights.values())`. -/
def netOf (weights : Series String) : PyFloat := weights.values.foldl (· + ·) 0

/-- `weights[s]`. -/
def weightOf (weights : Series String) (name : String) : PyFloat := (weights.get? name).getD .nan

/-- `_drop`: of the longer side the names of the lowest weight, as many as it has more. -/
def surplus (weights : Series String) : List String :=
  let longs := longsOf weights
  let shorts := shortsOf weights
  let target := min longs.length shorts.length
  if longs.length > target then
    (sortedBy (fun s => (weightOf weights s).toExtended) longs).take (longs.length - target)
  else
    (sortedBy (fun s => (weightOf weights s).abs.toExtended) shorts).take (shorts.length - target)

/-- Whether the sides of a book are made equally long. -/
def IsTrimmed (spec : AlphaSpec) (weights : Series String) : Prop :=
  spec.balanced = true ∧ longsOf weights ≠ [] ∧ shortsOf weights ≠ [] ∧
    (longsOf weights).length ≠ (shortsOf weights).length

instance (spec : AlphaSpec) (weights : Series String) : Decidable (IsTrimmed spec weights) := by
  unfold IsTrimmed
  infer_instance

/-- Two sides and their weights. -/
structure Book where
  longs : List String
  shorts : List String
  weights : Series String

/-- The balance of `winsor_cont`: the longer side loses its lowest weights, and what is left is scaled
to a gross of one again. -/
def balanceSides (spec : AlphaSpec) (weights : Series String) : Book :=
  if IsTrimmed spec weights then
    let drop := surplus weights
    let kept := weights.filter fun e => e.1 ∉ drop
    let gross := grossOf kept
    { longs := (longsOf weights).filter (· ∉ drop)
      shorts := (shortsOf weights).filter (· ∉ drop)
      weights := if 0 < gross then Series.map (fun w => w / gross) kept else kept }
  else { longs := longsOf weights, shorts := shortsOf weights, weights := weights }

/-! ## `rank` and the conditions -/

/-- How many names `rank` takes from each end. -/
def rankCount (spec : AlphaSpec) (latest : Series String) : ℕ :=
  let n : ℚ := latest.rows.length
  (min (max 1 (pyRound (n * (1 - spec.longThreshold))))
    (max 1 (pyRound (n * spec.shortThreshold)))).toNat

/-- The names at both ends of the scores. -/
def rankPicks (spec : AlphaSpec) (latest : Series String) : List String × List String :=
  ((Series.nlargest (rankCount spec latest) latest).keys,
    (Series.nsmallest (rankCount spec latest) latest).keys)

/-- The names for which a condition holds. -/
def active (condition : Dict String (Option Bool)) : List String :=
  Dict.keys (condition.filter fun e => e.2 = some true)

/-- The names that are picked for one side only, of these what the filter lets through. -/
def candidates (spec : AlphaSpec) (panel : Panel) (side other : List String) : List String :=
  (sortedNames (side.filter (· ∉ other))).filter (passesFilter spec panel)

/-- `weights.update(...)` for both sides. -/
def equalWeights (longs shorts : List String) : Series String :=
  if longs ≠ [] ∧ shorts ≠ [] then
    let bought := longs.foldl (fun d s => Dict.set d s (.fin (1 / 2) / .fin longs.length)) .empty
    shorts.foldl (fun d s => Dict.set d s (-.fin (1 / 2) / .fin shorts.length)) bought
  else Table.empty

/-- Both sides cut to the length of the shorter one. -/
def equalSides (spec : AlphaSpec) (panel : Panel) (picks : List String × List String) : Book :=
  let longs := candidates spec panel picks.1 picks.2
  let shorts := candidates spec panel picks.2 picks.1
  let k := min longs.length shorts.length
  { longs := longs.take k
    shorts := shorts.take k
    weights := equalWeights (longs.take k) (shorts.take k) }

/-! ## The selection -/

/-- `Selection(...)`. -/
def selectionOf (panel : Panel) (scores ranks : Series String) (book : Book) : Selection where
  longs := book.longs
  shorts := book.shorts
  scores := scores
  ranks := ranks
  weights := book.weights
  targetWeights := (sortedNames panel.keys).map fun s => (s, (book.weights.get? s).getD 0)
  gross := grossOf book.weights
  net := netOf book.weights

/-- The book that a construction builds from a row of scores. -/
def construct (num : Numerics) (spec : AlphaSpec) (panel : Panel) (latest : Series String) : Book :=
  match spec.construction with
  | .winsorCont => balanceSides spec (winsorWeights num spec panel latest)
  | .rank => equalSides spec panel (rankPicks spec latest)

/-- `select_positions`. -/
def selectPositions (num : Numerics) (spec : AlphaSpec) (panel : Panel) : Signals → Selection
  | .score row =>
    let latest := row.dropna
    selectionOf panel latest latest.rankPct (construct num spec panel latest)
  | .conditions long short =>
    let book := match spec.construction with
      | .winsorCont => balanceSides spec Table.empty
      | .rank => equalSides spec panel (active long, active short)
    selectionOf panel .empty .empty book
  | .overlaid row weights =>
    let latest := row.dropna
    let weights := Series.keep (· ≠ 0) weights
    selectionOf panel latest latest.rankPct
      { longs := longsOf weights, shorts := shortsOf weights, weights := weights }

/-! ## Finite books -/

lemma grossOf_fin {weights : Series String} (h : weights.Finite) :
    grossOf weights = .fin (weights.rows.map fun e => |e.2.toRat|).sum := by
  rw [grossOf, Series.foldl_values h.abs, Series.toRat_abs h]

end PaperTrade.CrossAlpha
