import Mathlib.Data.Rat.Sqrt
import PaperTrade.CrossAlpha.Overlay

/-!
# The vote basket of top10_vote_combo

Each spec takes the latest cross-section of one transformed factor and votes on every symbol: the sign of
its z-score, winsorised at three deviations, times the sign of the spec. The votes of a symbol are added,
and the basket has the symbols whose sum is not zero, weighted by the sum.

The z-scores, the filled zeros and the clipping never change a sign (`crossSectionVotes_eq`), so the basket
is that of a plain majority: a spec votes on which side of the mean a symbol is (`plainMajority`).

The factors are a parameter: any value or none (NaN) for each symbol. The arithmetic is exact, and the square
root is a parameter of which only the sign is used.
-/

namespace PaperTrade.Runner.Top10

open PaperTrade.Runtime PaperTrade.CrossAlpha

/-! ## The source -/

/-- The keys of `compute_factors`. -/
inductive Factor
  | lowerShadow
  | upperShadow
  | body
  | clv
  | spreadAr
  | residualReturns
deriving DecidableEq

/-- The keys of `TRANSFORMS`. -/
inductive Transform
  | chg5
  | chg20
  | chg60
  | z20
  | z60
  | z120
deriving DecidableEq

structure Spec where
  name : String
  factor : Factor
  transform : Transform
  sign : ℤ

/-- `TOP10_SPECS`. -/
def top10Specs : List Spec :=
  [{ name := "lower_shadow|chg60|-", factor := .lowerShadow, transform := .chg60, sign := -1 },
    { name := "lower_shadow|chg20|-", factor := .lowerShadow, transform := .chg20, sign := -1 },
    { name := "lower_shadow|z60|-", factor := .lowerShadow, transform := .z60, sign := -1 },
    { name := "lower_shadow|z120|-", factor := .lowerShadow, transform := .z120, sign := -1 },
    { name := "body|chg60|-", factor := .body, transform := .chg60, sign := -1 },
    { name := "clv|chg5|-", factor := .clv, transform := .chg5, sign := -1 },
    { name := "upper_shadow|z120|-", factor := .upperShadow, transform := .z120, sign := -1 },
    { name := "clv|chg60|-", factor := .clv, transform := .chg60, sign := -1 },
    { name := "spread_ar|z120|+", factor := .spreadAr, transform := .z120, sign := 1 },
    { name := "residual_returns|chg60|-", factor := .residualReturns, transform := .chg60, sign := -1 }]

/-- The last rows of the transformed factors: all of them have the columns of the closes. -/
structure Panel (𝕜 : Type) where
  symbols : List String
  nodup : symbols.Nodup
  latest : Factor → Transform → String → Option 𝕜

/-- A value for each of some symbols. -/
def ofSymbols {α : Type} (symbols : List String) (nodup : symbols.Nodup) (f : String → α) : Dict String α where
  rows := symbols.map fun s => (s, f s)
  nodup_keys := by
    rw [List.map_map]
    simpa [Function.comp_def] using nodup

/-- `raw.iloc[-1]` -/
def Panel.crossSection {𝕜 : Type} (P : Panel 𝕜) (spec : Spec) : Dict String (Option 𝕜) :=
  ofSymbols P.symbols P.nodup (P.latest spec.factor spec.transform)

variable {𝕜 : Type} [Field 𝕜] [LinearOrder 𝕜]

/-- `std(ddof=1)`. -/
def stdOf (sqrt : 𝕜 → 𝕜) (values : List (Option 𝕜)) : Option 𝕜 := (varOf values).map sqrt

/-- `x.clip(lower, upper)`. -/
def clip (lower upper x : 𝕜) : 𝕜 := min (max x lower) upper

/-- `np.sign`. -/
def npSign (x : 𝕜) : ℤ := (SignType.sign x : SignType)

/-- `cross_section_votes`: the winsorised scores. -/
def winsorize (sqrt : 𝕜 → 𝕜) (csZ : Dict String 𝕜) : Dict String 𝕜 :=
  let scores := csZ.rows.map fun e => some e.2
  match meanOf scores, stdOf sqrt scores with
  | some wMean, some wStd =>
    if 0 < wStd then csZ.mapValues fun _ z => clip (wMean - 3 * wStd) (wMean + 3 * wStd) z else csZ
  | _, _ => csZ

/-- `(x - mean) / std`, with zeros for what is missing. -/
def standardize (mean std : 𝕜) (x : Option 𝕜) : 𝕜 := (x.map fun x => (x - mean) / std).getD 0

/-- `cross_section_votes`. -/
def crossSectionVotes (sqrt : 𝕜 → 𝕜) (rawRow : Dict String (Option 𝕜)) (sign : ℤ) : Dict String ℤ :=
  let values := rawRow.rows.map Prod.snd
  match meanOf values, stdOf sqrt values with
  | some mean, some std =>
    if std ≤ 0 then rawRow.mapValues fun _ _ => 0
    else
      let csZ := winsorize sqrt (rawRow.mapValues fun _ x => standardize mean std x)
      csZ.mapValues fun _ z => npSign (z * (sign : 𝕜))
  | _, _ => rawRow.mapValues fun _ _ => 0

/-- Rows by the name of a spec, columns by symbol. -/
structure VoteMatrix where
  symbols : List String
  nodup : symbols.Nodup
  rows : Dict String (Dict String ℤ)

/-- `"BTCUSDT" in P["close"].columns`, or the factor does not need it. -/
def Computable (P : Panel 𝕜) (spec : Spec) : Prop :=
  spec.factor = .residualReturns → "BTCUSDT" ∈ P.symbols

instance (P : Panel 𝕜) (spec : Spec) : Decidable (Computable P spec) :=
  inferInstanceAs (Decidable (_ → _))

/-- `build_vote_matrix`: `rows`. A name that comes again takes the place of the earlier one. -/
def voteRows (sqrt : 𝕜 → 𝕜) (P : Panel 𝕜) (specs : List Spec) : Dict String (Dict String ℤ) :=
  specs.foldl (fun rows spec =>
    if Computable P spec then rows.set spec.name (crossSectionVotes sqrt (P.crossSection spec) spec.sign)
    else rows) .empty

/-- `build_vote_matrix`. -/
def buildVoteMatrix (sqrt : 𝕜 → 𝕜) (P : Panel 𝕜) (specs : List Spec) : VoteMatrix :=
  let rows := voteRows sqrt P specs
  if rows.rows.isEmpty = true then { symbols := [], nodup := List.nodup_nil, rows }
  else { symbols := P.symbols, nodup := P.nodup, rows }

/-- A column of `vote_matrix.fillna(0.0)`. -/
def VoteMatrix.column (m : VoteMatrix) (symbol : String) : List ℤ :=
  m.rows.rows.map fun row => (row.2.get? symbol).getD 0

structure VoteSelection (𝕜 : Type) where
  weights : Dict String 𝕜 := .empty
  voteSums : Dict String ℤ := .empty
  upVotes : Dict String ℕ := .empty
  downVotes : Dict String ℕ := .empty
  scores : Dict String 𝕜 := .empty

/-- `vote_sum[vote_sum != 0]` -/
def traded (voteSum : Dict String ℤ) : Dict String 𝕜 :=
  Dict.mapValues (fun _ (value : ℤ) => (value : 𝕜)) (voteSum.filter fun e => e.2 ≠ 0)

/-- `aggregate_votes`: `weights`. -/
def basketWeights (voteSum : Dict String ℤ) : Dict String 𝕜 :=
  let gross := grossWeight (traded voteSum : Dict String 𝕜)
  if 0 < gross then (traded voteSum).mapValues fun _ value => value / gross else .empty

/-- `aggregate_votes`. -/
def aggregateVotes (m : VoteMatrix) : VoteSelection 𝕜 :=
  if m.symbols.isEmpty = true ∨ m.rows.rows.isEmpty = true then {}
  else
    let voteSum := ofSymbols m.symbols m.nodup fun s => (m.column s).sum
    let weights := basketWeights voteSum
    { weights
      voteSums := voteSum
      upVotes := ofSymbols m.symbols m.nodup fun s => (m.column s).countP fun v => 0 < v
      downVotes := ofSymbols m.symbols m.nodup fun s => (m.column s).countP fun v => v < 0
      scores := weights.mapValues fun s _ => ((voteSum.get? s).getD 0 : ℤ) / (m.rows.rows.length : 𝕜) }

/-- `select_top10_basket`. -/
def selectTop10Basket (sqrt : 𝕜 → 𝕜) (P : Panel 𝕜) (specs : List Spec) : VoteSelection 𝕜 :=
  aggregateVotes (buildVoteMatrix sqrt P specs)

/-! ## The plain majority -/

/-- A vote on a value: on which side of the mean of the values that are there it is. -/
def plainVote (values : List (Option 𝕜)) (sign : ℤ) : Option 𝕜 → ℤ
  | none => 0
  | some x => npSign (x - average (present values)) * sign.sign

/-- The specs that vote: the last one of each name, without those that need a missing BTCUSDT. -/
def voters (P : Panel 𝕜) (specs : List Spec) : Dict String Spec :=
  specs.foldl (fun voting spec => if Computable P spec then voting.set spec.name spec else voting) .empty

/-- The sum of the votes on a symbol. -/
def ballot (P : Panel 𝕜) (specs : List Spec) (symbol : String) : ℤ :=
  ((voters P specs).rows.map fun e => plainVote (P.symbols.map (P.latest e.2.factor e.2.transform)) e.2.sign
    (P.latest e.2.factor e.2.transform symbol)).sum

/-- The basket of a majority: the symbols whose votes do not cancel, in proportion to the sums. -/
structure MajorityBasket (symbols : List String) (sum : String → ℤ) (weights : Dict String 𝕜) : Prop where
  traded : ∀ symbol, weights.contains symbol = true ↔ symbol ∈ symbols ∧ sum symbol ≠ 0
  sign : ∀ e ∈ weights.rows, npSign e.2 = (sum e.1).sign
  proportional : ∃ c, 0 < c ∧ ∀ e ∈ weights.rows, e.2 = c * sum e.1
  gross : weights.rows = [] ∨ grossWeight weights = 1

/-! ## Signs -/

section Signs

variable [IsStrictOrderedRing 𝕜] {sqrt : 𝕜 → 𝕜}

omit [IsStrictOrderedRing 𝕜] in
lemma npSign_of_pos {x : 𝕜} (h : 0 < x) : npSign x = 1 := by
  rw [npSign, sign_pos h]
  rfl

omit [IsStrictOrderedRing 𝕜] in
lemma npSign_of_neg {x : 𝕜} (h : x < 0) : npSign x = -1 := by
  rw [npSign, sign_neg h]
  rfl

omit [IsStrictOrderedRing 𝕜] in
@[simp] lemma npSign_zero : npSign (0 : 𝕜) = 0 := by
  rw [npSign, sign_zero]
  rfl

lemma npSign_intCast (k : ℤ) : npSign (k : 𝕜) = k.sign := by
  obtain h | h | h := lt_trichotomy k 0
  · rw [npSign_of_neg (Int.cast_lt_zero.mpr h), Int.sign_eq_neg_one_of_neg h]
  · rw [h, Int.cast_zero, npSign_zero, Int.sign_zero]
  · rw [npSign_of_pos (Int.cast_pos.mpr h), Int.sign_eq_one_of_pos h]

lemma npSign_mul (x y : 𝕜) : npSign (x * y) = npSign x * npSign y := by
  unfold npSign
  rw [sign_mul, SignType.coe_mul]

lemma npSign_div {x y : 𝕜} (h : 0 < y) : npSign (x / y) = npSign x := by
  unfold npSign
  rw [sign_div_of_pos h]

omit [IsStrictOrderedRing 𝕜] in
/-- Clipping around zero. -/
lemma npSign_clip {lower upper : 𝕜} (hlower : lower < 0) (hupper : 0 < upper) (x : 𝕜) :
    npSign (clip lower upper x) = npSign x := by
  unfold clip
  obtain h | h | h := lt_trichotomy x 0
  · have hneg : min (max x lower) upper < 0 := (min_le_left _ _).trans_lt (max_lt h hlower)
    rw [npSign_of_neg hneg, npSign_of_neg h]
  · rw [h, max_eq_left hlower.le, min_eq_left hupper.le]
  · have hpos : 0 < min (max x lower) upper := lt_min (h.trans_le (le_max_left _ _)) hupper
    rw [npSign_of_pos hpos, npSign_of_pos h]

end Signs

/-! ## One vote -/

section Vote

variable [IsStrictOrderedRing 𝕜] {sqrt : 𝕜 → 𝕜}

omit [LinearOrder 𝕜] [IsStrictOrderedRing 𝕜] in
lemma sum_standardize (mean std : 𝕜) (values : List (Option 𝕜)) :
    (values.map (standardize mean std)).sum = ((present values).map fun x => (x - mean) / std).sum := by
  unfold present
  induction values with
  | nil => rfl
  | cons value values ih =>
    cases value with
    | none =>
      rw [List.map_cons, List.sum_cons, ih, List.filterMap_cons_none rfl]
      exact zero_add _
    | some x =>
      exact congrArg (fun sum => (x - mean) / std + sum) ih

/-- The distances to the mean cancel. -/
lemma sum_sub_average {xs : List 𝕜} (h : xs ≠ []) : (xs.map fun x => x - average xs).sum = 0 := by
  have hlength : (xs.length : 𝕜) ≠ 0 := Nat.cast_ne_zero.mpr (List.length_eq_zero_iff.not.mpr h)
  have hsub : ∀ (a : 𝕜) (l : List 𝕜), (l.map fun x => x - a).sum = l.sum - l.length * a := by
    intro a l
    induction l with
    | nil => simp
    | cons x l ih =>
      rw [List.map_cons, List.sum_cons, ih, List.sum_cons, List.length_cons]
      push_cast
      ring
  rw [hsub, average, mul_div_cancel₀ _ hlength, sub_self]

/-- The scores, with their zeros, have mean zero. -/
lemma average_standardize {values : List (Option 𝕜)} (h : present values ≠ []) (std : 𝕜) :
    average (values.map (standardize (average (present values)) std)) = 0 := by
  unfold average
  rw [sum_standardize]
  have hdiv : ((present values).map fun x => (x - average (present values)) / std).sum =
      ((present values).map fun x => x - average (present values)).sum * std⁻¹ := by
    rw [← List.sum_map_mul_right]
    simp only [div_eq_mul_inv]
  show ((present values).map fun x => (x - average (present values)) / std).sum / _ = 0
  rw [hdiv, sum_sub_average h, zero_mul, zero_div]

/-- Values without variance are all at their mean. -/
lemma eq_average_of_sampleVariance {xs : List 𝕜} (hlength : 2 ≤ xs.length) (h : sampleVariance xs = 0) :
    ∀ x ∈ xs, x = average xs := by
  have hcount : (xs.length : 𝕜) - 1 ≠ 0 := by
    have : (2 : 𝕜) ≤ xs.length := by exact_mod_cast hlength
    linarith
  have hsum : (xs.map fun v => (v - average xs) ^ 2).sum = 0 :=
    (div_eq_zero_iff.mp h).resolve_right hcount
  intro x hx
  have hle : (x - average xs) ^ 2 ≤ (xs.map fun v => (v - average xs) ^ 2).sum := by
    apply List.single_le_sum
    · intro q hq
      obtain ⟨v, -, rfl⟩ := List.mem_map.mp hq
      exact sq_nonneg _
    · exact List.mem_map_of_mem (f := fun v => (v - average xs) ^ 2) hx
  rw [hsum] at hle
  have hzero : x - average xs = 0 := pow_eq_zero_iff two_ne_zero |>.mp (le_antisymm hle (sq_nonneg _))
  exact sub_eq_zero.mp hzero

omit [IsStrictOrderedRing 𝕜] in
/-- A cross-section on whose mean every value lies has no votes. -/
lemma plainVote_eq_zero {values : List (Option 𝕜)} {sign : ℤ}
    (h : ∀ x ∈ present values, x = average (present values)) {value : Option 𝕜} (hv : value ∈ values) :
    plainVote values sign value = 0 := by
  cases value with
  | none => rfl
  | some x =>
    have hx : x ∈ present values := List.mem_filterMap.mpr ⟨some x, hv, rfl⟩
    have hzero : x - average (present values) = 0 := sub_eq_zero.mpr (h x hx)
    show npSign (x - average (present values)) * sign.sign = 0
    rw [hzero, npSign_zero, zero_mul]

/-- Winsorising scores of mean zero changes no sign. -/
lemma npSign_winsorize (sqrt : 𝕜 → 𝕜) {csZ : Dict String 𝕜} (h : average (csZ.rows.map Prod.snd) = 0)
    (f : ℤ → ℤ) : ((winsorize sqrt csZ).mapValues fun _ z => f (npSign z)) =
      csZ.mapValues fun _ z => f (npSign z) := by
  have hmean : ∀ mean, meanOf (csZ.rows.map fun e => some e.2) = some mean → mean = 0 := by
    intro mean hmean
    have hpresent : present (csZ.rows.map fun e => some e.2) = csZ.rows.map Prod.snd := by
      unfold present
      rw [List.filterMap_map]
      exact congrFun List.filterMap_eq_map csZ.rows
    unfold meanOf at hmean
    rw [hpresent, h] at hmean
    split at hmean
    · exact nomatch hmean
    · exact (Option.some.inj hmean).symm
  unfold winsorize
  dsimp only
  split
  · rename_i wMean wStd hm _
    rw [hmean wMean hm]
    split_ifs with hpos
    · have hlower : (0 : 𝕜) - 3 * wStd < 0 := by linarith
      have hupper : (0 : 𝕜) < 0 + 3 * wStd := by linarith
      apply Table.ext
      rw [Dict.rows_mapValues, Dict.rows_mapValues, Dict.rows_mapValues, List.map_map]
      apply List.map_congr_left
      intro e _
      show (e.1, f (npSign (clip _ _ e.2))) = (e.1, f (npSign e.2))
      rw [npSign_clip hlower hupper]
    · rfl
  · rfl

lemma plainVote_standardize {std : 𝕜} (hstd : 0 < std) (values : List (Option 𝕜)) (sign : ℤ)
    (value : Option 𝕜) :
    npSign (standardize (average (present values)) std value * (sign : 𝕜)) = plainVote values sign value := by
  rw [npSign_mul, npSign_intCast]
  cases value with
  | none =>
    show npSign (0 : 𝕜) * sign.sign = 0
    rw [npSign_zero, zero_mul]
  | some x =>
    show npSign ((x - average (present values)) / std) * sign.sign = _
    rw [npSign_div hstd]
    rfl

/-- A z-score that is winsorised, times the sign of the spec, votes on which side of the mean a value is. -/
theorem crossSectionVotes_eq (hzero : sqrt 0 = 0) (hpos : ∀ q, 0 < q → 0 < sqrt q)
    (rawRow : Dict String (Option 𝕜)) (sign : ℤ) :
    crossSectionVotes sqrt rawRow sign =
      rawRow.mapValues fun _ x => plainVote (rawRow.rows.map Prod.snd) sign x := by
  have habstain : (∀ x ∈ present (rawRow.rows.map Prod.snd), x = average (present (rawRow.rows.map Prod.snd))) →
      (rawRow.mapValues fun _ _ => (0 : ℤ)) =
        rawRow.mapValues fun _ x => plainVote (rawRow.rows.map Prod.snd) sign x := by
    intro hsame
    apply Table.ext
    rw [Dict.rows_mapValues, Dict.rows_mapValues]
    apply List.map_congr_left
    intro e he
    rw [plainVote_eq_zero hsame (List.mem_map_of_mem he)]
  unfold crossSectionVotes
  dsimp only
  generalize hvalues : rawRow.rows.map Prod.snd = values at habstain ⊢
  unfold meanOf stdOf varOf
  by_cases hnone : present values = []
  · rw [if_pos hnone]
    exact habstain (by simp [hnone])
  rw [if_neg hnone]
  by_cases hone : (present values).length ≤ 1
  · rw [if_pos hone]
    obtain ⟨x, hx⟩ : ∃ x, present values = [x] :=
      List.length_eq_one_iff.mp (by have := List.length_pos_iff.mpr hnone; omega)
    refine habstain ?_
    rw [hx]
    simp [average]
  rw [if_neg hone]
  dsimp only [Option.map_some]
  have hnonneg : 0 ≤ sampleVariance (present values) := sampleVariance_nonneg (by omega)
  obtain hvar | hvar := hnonneg.eq_or_lt'
  · -- the deviation is zero
    rw [hvar, hzero, if_pos le_rfl]
    exact habstain (eq_average_of_sampleVariance (by omega) hvar)
  · have hstd := hpos _ hvar
    rw [if_neg (not_le.mpr hstd)]
    have hmean : average ((rawRow.mapValues fun _ x =>
        standardize (average (present values)) (sqrt (sampleVariance (present values))) x).rows.map Prod.snd) = 0 := by
      rw [Dict.rows_mapValues, List.map_map]
      have hscores := average_standardize hnone (sqrt (sampleVariance (present values)))
      rw [← hvalues, List.map_map, hvalues] at hscores
      exact hscores
    have hsign : (fun (_ : String) (z : 𝕜) => npSign (z * (sign : 𝕜))) = fun _ z => npSign z * sign.sign := by
      funext _ z
      rw [npSign_mul, npSign_intCast]
    rw [hsign, npSign_winsorize sqrt hmean fun v => v * sign.sign]
    apply Table.ext
    rw [Dict.rows_mapValues, Dict.rows_mapValues, Dict.rows_mapValues, List.map_map]
    apply List.map_congr_left
    intro e _
    rw [← plainVote_standardize hstd, npSign_mul, npSign_intCast]
    rfl

end Vote

/-! ## The basket -/

section Basket

lemma mem_ofSymbols {α : Type} {symbols : List String} {nodup : symbols.Nodup} {f : String → α}
    {e : String × α} : e ∈ (ofSymbols symbols nodup f).rows ↔ e.1 ∈ symbols ∧ e.2 = f e.1 := by
  constructor
  · intro he
    obtain ⟨s, hs, rfl⟩ := List.mem_map.mp he
    exact ⟨hs, rfl⟩
  · rintro ⟨hs, hvalue⟩
    exact List.mem_map.mpr ⟨e.1, hs, by rw [← hvalue]⟩

lemma ofSymbols_congr {α : Type} {symbols : List String} {nodup : symbols.Nodup} {f g : String → α}
    (h : ∀ s ∈ symbols, f s = g s) : ofSymbols symbols nodup f = ofSymbols symbols nodup g := by
  apply Table.ext
  apply List.map_congr_left
  intro s hs
  rw [h s hs]

omit [LinearOrder 𝕜] in
lemma mem_traded {voteSum : Dict String ℤ} {e : String × 𝕜} :
    e ∈ (traded voteSum).rows ↔ ∃ value, value ≠ 0 ∧ (e.1, value) ∈ voteSum.rows ∧ e.2 = value := by
  constructor
  · intro he
    obtain ⟨row, hrow, rfl⟩ := List.mem_map.mp he
    obtain ⟨hmem, hne⟩ := List.mem_filter.mp hrow
    exact ⟨row.2, of_decide_eq_true hne, hmem, rfl⟩
  · rintro ⟨value, hne, hmem, hvalue⟩
    exact List.mem_map.mpr
      ⟨(e.1, value), List.mem_filter.mpr ⟨hmem, decide_eq_true hne⟩, Prod.ext rfl hvalue.symm⟩

variable [IsStrictOrderedRing 𝕜] {sqrt : 𝕜 → 𝕜}

/-- A book with a weight that is not zero has a gross. -/
lemma grossWeight_pos {weights : Dict String 𝕜} {e : String × 𝕜} (he : e ∈ weights.rows) (hne : e.2 ≠ 0) :
    0 < grossWeight weights := by
  by_contra hle
  exact hne (eq_zero_of_grossWeight (not_lt.mp hle) e he)

omit [IsStrictOrderedRing 𝕜] in
lemma not_mem_empty {α : Type} (e : String × α) : e ∉ (Table.empty : Dict String α).rows := List.not_mem_nil

/-- Votes that all cancel. -/
lemma majorityBasket_empty {symbols : List String} {sum : String → ℤ} (h : ∀ s ∈ symbols, sum s = 0) :
    MajorityBasket symbols sum (.empty : Dict String 𝕜) where
  traded := by
    intro symbol
    rw [Table.contains_iff]
    constructor
    · rintro ⟨e, he, -⟩
      exact absurd he (not_mem_empty e)
    · rintro ⟨hs, hne⟩
      exact absurd (h symbol hs) hne
  sign := fun e he => absurd he (not_mem_empty e)
  proportional := ⟨1, one_pos, fun e he => absurd he (not_mem_empty e)⟩
  gross := .inl rfl

/-- The weights of some sums are a majority basket. -/
lemma majorityBasket_basketWeights (symbols : List String) (nodup : symbols.Nodup) (sum : String → ℤ) :
    MajorityBasket symbols sum (basketWeights (ofSymbols symbols nodup sum) : Dict String 𝕜) := by
  have hmem : ∀ e : String × 𝕜, e ∈ (traded (ofSymbols symbols nodup sum)).rows ↔
      (e.1 ∈ symbols ∧ sum e.1 ≠ 0) ∧ e.2 = sum e.1 := by
    intro e
    rw [mem_traded]
    constructor
    · rintro ⟨value, hne, hrow, hvalue⟩
      obtain ⟨hs, hsum⟩ := mem_ofSymbols.mp hrow
      replace hsum : value = sum e.1 := hsum
      subst hsum
      exact ⟨⟨hs, hne⟩, hvalue⟩
    · rintro ⟨⟨hs, hne⟩, hvalue⟩
      exact ⟨sum e.1, hne, mem_ofSymbols.mpr ⟨hs, rfl⟩, hvalue⟩
  unfold basketWeights
  dsimp only
  generalize (traded (ofSymbols symbols nodup sum) : Dict String 𝕜) = book at hmem ⊢
  split_ifs with hgross
  · have hrow : ∀ e ∈ (book.mapValues fun _ value => value / grossWeight book).rows,
        (e.1 ∈ symbols ∧ sum e.1 ≠ 0) ∧ e.2 = (grossWeight book)⁻¹ * sum e.1 := by
      intro e he
      obtain ⟨row, hrow, rfl⟩ := List.mem_map.mp he
      obtain ⟨hs, hvalue⟩ := (hmem row).mp hrow
      refine ⟨hs, ?_⟩
      show row.2 / grossWeight book = _
      rw [hvalue, div_eq_inv_mul]
    exact {
      traded := by
        intro symbol
        rw [Table.contains_iff]
        constructor
        · rintro ⟨e, he, rfl⟩
          exact (hrow e he).1
        · intro hs
          exact ⟨_, List.mem_map_of_mem ((hmem (symbol, (sum symbol : 𝕜))).mpr ⟨hs, rfl⟩), rfl⟩
      sign := by
        intro e he
        rw [(hrow e he).2, npSign_mul, npSign_of_pos (inv_pos.mpr hgross), one_mul, npSign_intCast]
      proportional := ⟨_, inv_pos.mpr hgross, fun e he => (hrow e he).2⟩
      gross := .inr (grossWeight_div hgross) }
  · apply majorityBasket_empty
    intro symbol hs
    by_contra hne
    have hrow := (hmem (symbol, (sum symbol : 𝕜))).mpr ⟨⟨hs, hne⟩, rfl⟩
    exact hgross (grossWeight_pos hrow (Int.cast_ne_zero.mpr hne))

end Basket

/-! ## The matrix -/

section Matrix

variable {α β : Type}

lemma get?_mapValues (f : α → β) (d : Dict String α) (k : String) :
    (d.mapValues fun _ v => f v).get? k = (d.get? k).map f := by
  unfold Dict.get? Table.find?
  rw [Dict.rows_mapValues, List.find?_map, Option.map_map, Option.map_map]
  rfl

lemma contains_mapValues (f : α → β) (d : Dict String α) (k : String) :
    (d.mapValues fun _ v => f v).contains k = d.contains k := by
  unfold Table.contains
  rw [Dict.rows_mapValues, List.any_map]
  rfl

lemma set_mapValues (f : α → β) (d : Dict String α) (k : String) (v : α) :
    (d.mapValues fun _ v => f v).set k (f v) = (d.set k v).mapValues fun _ v => f v := by
  apply Table.ext
  unfold Dict.set
  rw [contains_mapValues]
  by_cases h : d.contains k = true
  · rw [if_pos h, if_pos h]
    unfold Table.modify Dict.mapValues
    dsimp only
    rw [List.map_map, List.map_map]
    apply List.map_congr_left
    intro e _
    show (if e.1 = k then (e.1, f v) else (e.1, f e.2)) = _
    by_cases hk : e.1 = k
    · rw [Function.comp_apply, if_pos hk, if_pos hk]
    · rw [Function.comp_apply, if_neg hk, if_neg hk]
  · have hd : d.contains k = false := Bool.eq_false_iff.mpr h
    rw [if_neg h, if_neg h, Dict.rows_mapValues,
      Table.rows_insertOrIgnore_of_not_contains (r := (k, v)) hd,
      Table.rows_insertOrIgnore_of_not_contains (r := (k, f v)) ((contains_mapValues f d k).trans hd),
      List.map_append]
    rfl

/-- The rows of the matrix are the votes of the voters. -/
lemma voteRows_eq (sqrt : 𝕜 → 𝕜) (P : Panel 𝕜) (specs : List Spec) : voteRows sqrt P specs =
    (voters P specs).mapValues fun _ spec => crossSectionVotes sqrt (P.crossSection spec) spec.sign := by
  unfold voteRows voters
  have hfold : ∀ voting : Dict String Spec,
      specs.foldl (fun rows spec => if Computable P spec then
          rows.set spec.name (crossSectionVotes sqrt (P.crossSection spec) spec.sign) else rows)
        (voting.mapValues fun _ spec => crossSectionVotes sqrt (P.crossSection spec) spec.sign) =
      (specs.foldl (fun voting spec => if Computable P spec then voting.set spec.name spec else voting)
        voting).mapValues fun _ spec => crossSectionVotes sqrt (P.crossSection spec) spec.sign := by
    induction specs with
    | nil => exact fun _ => rfl
    | cons spec specs ih =>
      intro voting
      rw [List.foldl_cons, List.foldl_cons]
      by_cases h : Computable P spec
      · rw [if_pos h, if_pos h,
          set_mapValues (fun spec => crossSectionVotes sqrt (P.crossSection spec) spec.sign)]
        exact ih _
      · rw [if_neg h, if_neg h]
        exact ih _
  exact hfold .empty

omit [Field 𝕜] [LinearOrder 𝕜] in
lemma get?_crossSection {P : Panel 𝕜} {symbol : String} (h : symbol ∈ P.symbols) (spec : Spec) :
    (P.crossSection spec).get? symbol = some (P.latest spec.factor spec.transform symbol) :=
  (Dict.get?_some_iff _ _ _).mpr (mem_ofSymbols.mpr ⟨h, rfl⟩)

variable [IsStrictOrderedRing 𝕜] {sqrt : 𝕜 → 𝕜}

/-- The votes on a symbol add up to its ballot. -/
lemma sum_column (hzero : sqrt 0 = 0) (hpos : ∀ q, 0 < q → 0 < sqrt q) (P : Panel 𝕜) (specs : List Spec)
    {symbol : String} (h : symbol ∈ P.symbols) :
    ((voteRows sqrt P specs).rows.map fun row => (row.2.get? symbol).getD 0).sum = ballot P specs symbol := by
  unfold ballot
  rw [voteRows_eq, Dict.rows_mapValues, List.map_map]
  congr 1
  apply List.map_congr_left
  intro e _
  show (((crossSectionVotes sqrt (P.crossSection e.2) e.2.sign)).get? symbol).getD 0 = _
  rw [crossSectionVotes_eq hzero hpos, get?_mapValues, get?_crossSection h, Option.map_some, Option.getD_some]
  unfold Panel.crossSection ofSymbols
  rw [List.map_map]
  rfl

/-- The basket is that of a plain majority: every vote is the sign of the value over the mean times that of
the spec, a missing value and a cross-section without a deviation abstain, and the weights are the sums of
the votes over their gross. -/
theorem plainMajority (hzero : sqrt 0 = 0) (hpos : ∀ q, 0 < q → 0 < sqrt q) :
    (∀ (rawRow : Dict String (Option 𝕜)) (sign : ℤ), crossSectionVotes sqrt rawRow sign =
      rawRow.mapValues fun _ x => plainVote (rawRow.rows.map Prod.snd) sign x) ∧
    ∀ (P : Panel 𝕜) (specs : List Spec),
      MajorityBasket P.symbols (ballot P specs) (selectTop10Basket sqrt P specs).weights := by
  refine ⟨crossSectionVotes_eq hzero hpos, fun P specs => ?_⟩
  have hsum := fun s (hs : s ∈ P.symbols) => sum_column hzero hpos P specs hs
  unfold selectTop10Basket aggregateVotes buildVoteMatrix VoteMatrix.column
  dsimp only
  by_cases hrows : (voteRows sqrt P specs).rows.isEmpty = true
  · -- no spec votes
    rw [if_pos hrows, if_pos (.inl rfl)]
    apply majorityBasket_empty
    intro symbol hs
    rw [← hsum symbol hs, List.isEmpty_iff.mp hrows]
    rfl
  rw [if_neg hrows]
  dsimp only
  by_cases hsymbols : P.symbols.isEmpty = true
  · rw [if_pos (.inl hsymbols)]
    apply majorityBasket_empty
    intro symbol hs
    rw [List.isEmpty_iff.mp hsymbols] at hs
    exact absurd hs List.not_mem_nil
  rw [if_neg (not_or.mpr ⟨hsymbols, hrows⟩)]
  dsimp only
  rw [ofSymbols_congr hsum]
  exact majorityBasket_basketWeights P.symbols P.nodup (ballot P specs)

end Matrix

/-! ## A basket -/

/-- Two symbols with a lower shadow, and one without. -/
def twoShadows : Panel ℚ where
  symbols := ["BTCUSDT", "ETHUSDT", "SOLUSDT"]
  nodup := by decide
  latest factor _ symbol := if factor = .lowerShadow then
      if symbol = "BTCUSDT" then some 1 else if symbol = "ETHUSDT" then some 3 else none
    else none

lemma ratSqrt_pos {q : ℚ} (h : 0 < q) : 0 < Rat.sqrt q := by
  unfold Rat.sqrt
  rw [Rat.mkRat_eq_div]
  have hnum : 0 < q.num.toNat := by
    have := Rat.num_pos.mpr h
    omega
  apply div_pos
  · exact Int.cast_pos.mpr (Int.natCast_pos.mpr (Nat.sqrt_pos.mpr hnum))
  · exact Nat.cast_pos.mpr (Nat.sqrt_pos.mpr q.den_pos)

theorem plainMajority_twoShadows :
    MajorityBasket twoShadows.symbols (ballot twoShadows top10Specs)
        (selectTop10Basket Rat.sqrt twoShadows top10Specs).weights ∧
      (selectTop10Basket Rat.sqrt twoShadows top10Specs).weights.rows =
        [("BTCUSDT", 1 / 2), ("ETHUSDT", -1 / 2)] :=
  ⟨(plainMajority (by decide +kernel) fun _ => ratSqrt_pos).2 twoShadows top10Specs, by decide +kernel⟩

end PaperTrade.Runner.Top10
