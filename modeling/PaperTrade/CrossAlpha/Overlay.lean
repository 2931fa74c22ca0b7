import Mathlib.Data.Sign.Basic
import PaperTrade.Runtime.Table

/-!
# The portfolio overlay: `risk_parity` and `beta_neutralize`

`risk_parity` divides a signal by the volatility of each symbol and scales the result to gross one.
`beta_neutralize` takes the share of the book that lies along the betas of its symbols out of it: a
projection, against the equally weighted market of the symbols that are held.

Everything is exact arithmetic over an ordered field; a missing value (NaN in pandas) is `none`, and
statistics skip it. The square root is a parameter.
-/

namespace PaperTrade.Runtime.Dict

variable {κ α β : Type}

/-- `{k: f(k, v) for k, v in d.items()}`. -/
def mapValues (f : κ → α → β) (d : Dict κ α) : Dict κ β where
  rows := d.rows.map fun e => (e.1, f e.1 e.2)
  nodup_keys := by
    rw [List.map_map]
    exact d.nodup_keys

/-- The entries for which `f` has a value. -/
def filterMapValues (f : κ → α → Option β) (d : Dict κ α) : Dict κ β where
  rows := d.rows.filterMap fun e => (f e.1 e.2).map fun v => (e.1, v)
  nodup_keys := by
    have hsub : ∀ rows : List (κ × α),
        ((rows.filterMap fun e => (f e.1 e.2).map fun v => (e.1, v)).map Prod.fst).Sublist
          (rows.map Prod.fst) := by
      intro rows
      induction rows with
      | nil => exact List.Sublist.slnil
      | cons e rows ih =>
        rw [List.filterMap_cons]
        cases f e.1 e.2 with
        | none => exact ih.cons _
        | some v => exact ih.cons₂ _
    exact d.nodup_keys.sublist (hsub d.rows)

@[simp] lemma rows_mapValues (f : κ → α → β) (d : Dict κ α) :
    (d.mapValues f).rows = d.rows.map fun e => (e.1, f e.1 e.2) := rfl

@[simp] lemma keys_mapValues (f : κ → α → β) (d : Dict κ α) : (d.mapValues f).keys = d.keys := by
  unfold keys
  rw [rows_mapValues, List.map_map]
  rfl

lemma mem_filterMapValues {f : κ → α → Option β} {d : Dict κ α} {e : κ × β}
    (h : e ∈ (d.filterMapValues f).rows) : ∃ v, (e.1, v) ∈ d.rows ∧ f e.1 v = some e.2 := by
  obtain ⟨⟨k, v⟩, he, hf⟩ := List.mem_filterMap.mp h
  obtain ⟨b, hb, rfl⟩ := Option.map_eq_some_iff.mp hf
  exact ⟨v, he, hb⟩

end PaperTrade.Runtime.Dict

namespace PaperTrade.CrossAlpha

open PaperTrade.Runtime

section Overlay

variable {ι 𝕜 : Type} [DecidableEq ι] [Field 𝕜] [LinearOrder 𝕜]

/-! ## Statistics that skip what is missing -/

/-- The values that are there. -/
def present (values : List (Option 𝕜)) : List 𝕜 := values.filterMap id

/-- The mean of some values. -/
def average (values : List 𝕜) : 𝕜 := values.sum / values.length

/-- `mean()`: of no value it is missing. -/
def meanOf (values : List (Option 𝕜)) : Option 𝕜 :=
  if present values = [] then none else some (average (present values))

/-- The sample variance. -/
def sampleVariance (values : List 𝕜) : 𝕜 :=
  (values.map fun v => (v - average values) ^ 2).sum / (values.length - 1)

/-- `var()`: of less than two values it is missing. -/
def varOf (values : List (Option 𝕜)) : Option 𝕜 :=
  if (present values).length ≤ 1 then none else some (sampleVariance (present values))

/-- `a.cov(b)`, over the rows in which both are there. -/
def covOf (a b : List (Option 𝕜)) : Option 𝕜 :=
  let pairs := (a.zip b).filterMap fun p => p.1.bind fun u => p.2.map fun v => (u, v)
  if pairs.length ≤ 1 then none
  else
    let meanA := average (pairs.map Prod.fst)
    let meanB := average (pairs.map Prod.snd)
    some ((pairs.map fun p => (p.1 - meanA) * (p.2 - meanB)).sum / (pairs.length - 1))

/-! ## The panel -/

/-- A `DataFrame` of returns: columns of the same length by symbol. -/
structure ReturnsPanel (ι 𝕜 : Type) where
  rows : ℕ
  columns : Dict ι (List (Option 𝕜))
  length_column : ∀ e ∈ columns.rows, e.2.length = rows

/-- `l.tail(n)`: the last `n` rows, and for a negative `n` all but the first `-n`. -/
def tailRows {α : Type} (n : ℤ) (l : List α) : List α :=
  if n = 0 then []
  else if 0 < n then l.drop (l.length - n.toNat)
  else l.drop (-n).toNat

/-- What `rolling` and `iloc` raise. -/
inductive OverlayError
  /-- `min_periods 2 must be <= window` -/
  | badWindow
  /-- `single positional indexer is out-of-bounds` -/
  | noRow
deriving DecidableEq

/-! ## `risk_parity` -/

/-- The last row of `ts_std`, of one column. -/
def lastStd (sqrt : 𝕜 → 𝕜) (d : ℕ) (column : List (Option 𝕜)) : Option 𝕜 :=
  let values := present (tailRows d column)
  if values.length < max 2 (d / 2) then none else some (sqrt (sampleVariance values))

/-- `signal[common] / vol.replace(0, nan)`, of one symbol. -/
def tilt (sqrt : 𝕜 → 𝕜) (returns : ReturnsPanel ι 𝕜) (d : ℕ) (symbol : ι) (signal : Option 𝕜) :
    Option 𝕜 :=
  (returns.columns.get? symbol).bind fun column =>
    signal.bind fun s =>
      (lastStd sqrt d column).bind fun vol => if vol = 0 then none else some (s / vol)

/-- The sum of the absolute weights. -/
def grossWeight (weights : Dict ι 𝕜) : 𝕜 := (weights.rows.map fun e => |e.2|).sum

/-- `risk_parity`. -/
def riskParity (sqrt : 𝕜 → 𝕜) (signal : Dict ι (Option 𝕜)) (returns : ReturnsPanel ι 𝕜)
    (volLookback : ℤ) : Except OverlayError (Dict ι 𝕜) :=
  if volLookback < 2 then .error .badWindow
  else if returns.rows = 0 then .error .noRow
  else
    let tilted := signal.filterMapValues (tilt sqrt returns volLookback.toNat)
    let gross := grossWeight tilted
    .ok (if gross ≤ 0 then tilted.mapValues fun _ v => v * 0 else tilted.mapValues fun _ v => v / gross)

/-! ## `beta_neutralize` -/

/-- The market: the equally weighted average of the columns, row by row. -/
def marketOf (rows : ℕ) (columns : List (List (Option 𝕜))) : List (Option 𝕜) :=
  (List.range rows).map fun i => meanOf (columns.map fun column => (column[i]?).join)

/-- `beta` of `beta_neutralize` over the index of the weights; `none` where it returns before. -/
def betas (index : List ι) (returns : ReturnsPanel ι 𝕜) (window : ℤ) : Option (ι → 𝕜) :=
  let symbols := index.filter fun s => returns.columns.contains s
  let columnOf := fun s => tailRows window ((returns.columns.get? s).getD [])
  let market := marketOf (tailRows window (List.range returns.rows)).length (symbols.map columnOf)
  if symbols = [] then none
  else match varOf market with
    | none => none
    | some marketVar =>
      if marketVar = 0 then none
      else some fun s =>
        if s ∈ symbols then ((covOf (columnOf s) market).map (· / marketVar)).getD 0 else 0

/-- `(weights * beta).sum()`. -/
def portfolioBeta (weights : Dict ι 𝕜) (beta : ι → 𝕜) : 𝕜 :=
  (weights.rows.map fun e => e.2 * beta e.1).sum

/-- `(beta ** 2).sum()`. -/
def betaSqSum (index : List ι) (beta : ι → 𝕜) : 𝕜 := (index.map fun s => beta s ^ 2).sum

/-- `beta_neutralize`. -/
def betaNeutralize (weights : Dict ι 𝕜) (returns : ReturnsPanel ι 𝕜) (window : ℤ) : Dict ι 𝕜 :=
  match betas weights.keys returns window with
  | none => weights
  | some beta =>
    if betaSqSum weights.keys beta = 0 then weights
    else weights.mapValues fun s v =>
      v - beta s * (portfolioBeta weights beta / betaSqSum weights.keys beta)

/-! ## Gross one -/

variable [IsStrictOrderedRing 𝕜]

lemma sampleVariance_nonneg {values : List 𝕜} (h : 1 ≤ values.length) : 0 ≤ sampleVariance values := by
  have hsum : 0 ≤ (values.map fun v => (v - average values) ^ 2).sum := by
    apply List.sum_nonneg
    intro q hq
    obtain ⟨v, -, rfl⟩ := List.mem_map.mp hq
    exact sq_nonneg _
  have hcount : (0 : 𝕜) ≤ values.length - 1 := by
    rw [sub_nonneg, Nat.one_le_cast]
    exact h
  exact div_nonneg hsum hcount

/-- A volatility that divides is positive. -/
lemma lastStd_pos {sqrt : 𝕜 → 𝕜} (hsqrt : ∀ q, 0 ≤ q → 0 ≤ sqrt q) {d : ℕ}
    {column : List (Option 𝕜)} {vol : 𝕜} (h : lastStd sqrt d column = some vol) (hne : vol ≠ 0) :
    0 < vol := by
  unfold lastStd at h
  dsimp only at h
  split at h
  · exact nomatch h
  · rename_i hmany
    have htwo : 2 ≤ max 2 (d / 2) := le_max_left _ _
    have hvol := Option.some.inj h
    have hnonneg : 0 ≤ vol := by
      rw [← hvol]
      exact hsqrt _ (sampleVariance_nonneg (by omega))
    exact lt_of_le_of_ne hnonneg hne.symm

lemma sign_div_of_pos {s vol : 𝕜} (h : 0 < vol) : SignType.sign (s / vol) = SignType.sign s := by
  rw [div_eq_mul_inv, sign_mul, sign_pos (inv_pos.mpr h), mul_one]

/-- The tilted weight of a symbol has the sign of its signal. -/
lemma sign_tilt {sqrt : 𝕜 → 𝕜} (hsqrt : ∀ q, 0 ≤ q → 0 ≤ sqrt q) {returns : ReturnsPanel ι 𝕜} {d : ℕ}
    {symbol : ι} {signal : Option 𝕜} {v : 𝕜} (h : tilt sqrt returns d symbol signal = some v) :
    ∃ s, signal = some s ∧ SignType.sign v = SignType.sign s := by
  obtain ⟨column, -, h⟩ := Option.bind_eq_some_iff.mp h
  obtain ⟨s, hs, h⟩ := Option.bind_eq_some_iff.mp h
  obtain ⟨vol, hvol, h⟩ := Option.bind_eq_some_iff.mp h
  split at h
  · exact nomatch h
  · rename_i hne
    refine ⟨s, hs, ?_⟩
    rw [← Option.some.inj h]
    exact sign_div_of_pos (lastStd_pos hsqrt hvol hne)

omit [DecidableEq ι] in
lemma grossWeight_nonneg (weights : Dict ι 𝕜) : 0 ≤ grossWeight weights := by
  apply List.sum_nonneg
  intro q hq
  obtain ⟨e, -, rfl⟩ := List.mem_map.mp hq
  exact abs_nonneg _

omit [DecidableEq ι] in
/-- Weights without gross are zero. -/
lemma eq_zero_of_grossWeight {weights : Dict ι 𝕜} (h : grossWeight weights ≤ 0) :
    ∀ e ∈ weights.rows, e.2 = 0 := by
  intro e he
  have hle : |e.2| ≤ grossWeight weights := by
    apply List.single_le_sum
    · intro q hq
      obtain ⟨e', -, rfl⟩ := List.mem_map.mp hq
      exact abs_nonneg _
    · exact List.mem_map_of_mem he
  exact abs_nonpos_iff.mp (hle.trans h)

omit [DecidableEq ι] in
/-- Weights over their gross have gross one. -/
lemma grossWeight_div {weights : Dict ι 𝕜} (h : 0 < grossWeight weights) :
    grossWeight (weights.mapValues fun _ v => v / grossWeight weights) = 1 := by
  have hmap : ((weights.mapValues fun _ v => v / grossWeight weights).rows.map fun e => |e.2|) =
      weights.rows.map fun e => |e.2| * (grossWeight weights)⁻¹ := by
    rw [Dict.rows_mapValues, List.map_map]
    apply List.map_congr_left
    intro e _
    show |e.2 / grossWeight weights| = |e.2| * (grossWeight weights)⁻¹
    rw [abs_div, abs_of_pos h, div_eq_mul_inv]
  rw [grossWeight, hmap, List.sum_map_mul_right]
  exact mul_inv_cancel₀ h.ne'

/-- The law of `risk_parity`: every weight has the sign of its signal, and the gross is one unless all
weights are zero. -/
lemma riskParity_law {sqrt : 𝕜 → 𝕜} (hsqrt : ∀ q, 0 ≤ q → 0 ≤ sqrt q) {signal : Dict ι (Option 𝕜)}
    {returns : ReturnsPanel ι 𝕜} {volLookback : ℤ} {weights : Dict ι 𝕜}
    (h : riskParity sqrt signal returns volLookback = .ok weights) :
    (∀ e ∈ weights.rows, ∃ s, (e.1, some s) ∈ signal.rows ∧ SignType.sign e.2 = SignType.sign s) ∧
      (grossWeight weights = 1 ∨ ∀ e ∈ weights.rows, e.2 = 0) := by
  unfold riskParity at h
  split at h
  · exact nomatch h
  · split at h
    · exact nomatch h
    · dsimp only at h
      -- the signal and the sign of a tilted weight
      have hsign : ∀ e ∈ (signal.filterMapValues (tilt sqrt returns volLookback.toNat)).rows,
          ∃ s, (e.1, some s) ∈ signal.rows ∧ SignType.sign e.2 = SignType.sign s := by
        intro e he
        obtain ⟨v, hv, htilt⟩ := Dict.mem_filterMapValues he
        obtain ⟨s, rfl, hs⟩ := sign_tilt hsqrt htilt
        exact ⟨s, hv, hs⟩
      generalize signal.filterMapValues (tilt sqrt returns volLookback.toNat) = tilted at h hsign
      split at h
      · rename_i hgross
        have hzero := eq_zero_of_grossWeight hgross
        cases h
        refine ⟨fun e he => ?_, .inr fun e he => ?_⟩
        · obtain ⟨e', he', rfl⟩ := List.mem_map.mp he
          obtain ⟨s, hs, hsgn⟩ := hsign e' he'
          refine ⟨s, hs, ?_⟩
          show SignType.sign (e'.2 * 0) = SignType.sign s
          rw [← hsgn, hzero e' he', mul_zero]
        · obtain ⟨e', -, rfl⟩ := List.mem_map.mp he
          exact mul_zero e'.2
      · rename_i hgross
        have hpos : 0 < grossWeight tilted := not_le.mp hgross
        cases h
        refine ⟨fun e he => ?_, .inl (grossWeight_div hpos)⟩
        obtain ⟨e', he', rfl⟩ := List.mem_map.mp he
        obtain ⟨s, hs, hsgn⟩ := hsign e' he'
        refine ⟨s, hs, ?_⟩
        rw [← hsgn]
        exact sign_div_of_pos hpos

/-! ## The projection -/

omit [DecidableEq ι] [LinearOrder 𝕜] [IsStrictOrderedRing 𝕜] in
/-- Without its share along the betas a book has no portfolio beta. -/
lemma portfolioBeta_neutralized (weights : Dict ι 𝕜) {beta : ι → 𝕜}
    (h : betaSqSum weights.keys beta ≠ 0) :
    portfolioBeta (weights.mapValues fun s v =>
      v - beta s * (portfolioBeta weights beta / betaSqSum weights.keys beta)) beta = 0 := by
  generalize hshare : portfolioBeta weights beta / betaSqSum weights.keys beta = share
  have hrows : ∀ rows : List (ι × 𝕜),
      (rows.map fun e => (e.2 - beta e.1 * share) * beta e.1).sum =
        (rows.map fun e => e.2 * beta e.1).sum - share * (rows.map fun e => beta e.1 ^ 2).sum := by
    intro rows
    induction rows with
    | nil => simp
    | cons e rows ih =>
      rw [List.map_cons, List.sum_cons, ih, List.map_cons, List.sum_cons, List.map_cons, List.sum_cons]
      ring
  have hsq : (weights.rows.map fun e => beta e.1 ^ 2).sum = betaSqSum weights.keys beta := by
    rw [betaSqSum, Dict.keys, List.map_map]
    rfl
  unfold portfolioBeta
  rw [Dict.rows_mapValues, List.map_map]
  refine (hrows weights.rows).trans ?_
  rw [hsq, ← hshare, div_mul_cancel₀ _ h]
  exact sub_self _

omit [IsStrictOrderedRing 𝕜] in
@[simp] lemma keys_betaNeutralize (weights : Dict ι 𝕜) (returns : ReturnsPanel ι 𝕜) (window : ℤ) :
    (betaNeutralize weights returns window).keys = weights.keys := by
  unfold betaNeutralize
  split
  · rfl
  · split
    · rfl
    · exact Dict.keys_mapValues _ _

omit [IsStrictOrderedRing 𝕜] in
/-- A book that `beta_neutralize` changes has no portfolio beta afterwards. -/
lemma portfolioBeta_betaNeutralize {weights : Dict ι 𝕜} {returns : ReturnsPanel ι 𝕜} {window : ℤ}
    {beta : ι → 𝕜} (hbeta : betas weights.keys returns window = some beta)
    (hchanged : betaNeutralize weights returns window ≠ weights) :
    portfolioBeta (betaNeutralize weights returns window) beta = 0 := by
  unfold betaNeutralize at hchanged ⊢
  rw [hbeta] at hchanged ⊢
  dsimp only at hchanged ⊢
  split at hchanged
  · exact absurd rfl hchanged
  · rename_i hsq
    rw [if_neg hsq]
    exact portfolioBeta_neutralized weights hsq

omit [IsStrictOrderedRing 𝕜] in
/-- Without portfolio beta there is nothing to take out. -/
lemma betaNeutralize_of_portfolioBeta {weights : Dict ι 𝕜} {returns : ReturnsPanel ι 𝕜} {window : ℤ}
    {beta : ι → 𝕜} (hbeta : betas weights.keys returns window = some beta)
    (hzero : portfolioBeta weights beta = 0) : betaNeutralize weights returns window = weights := by
  unfold betaNeutralize
  rw [hbeta]
  dsimp only
  split
  · rfl
  · apply Table.ext
    rw [Dict.rows_mapValues, hzero, zero_div]
    refine (List.map_congr_left fun e _ => ?_).trans (List.map_id _)
    show (e.1, e.2 - beta e.1 * 0) = e
    rw [mul_zero, sub_zero]

omit [IsStrictOrderedRing 𝕜] in
lemma betaNeutralize_idem (weights : Dict ι 𝕜) (returns : ReturnsPanel ι 𝕜) (window : ℤ) :
    betaNeutralize (betaNeutralize weights returns window) returns window =
      betaNeutralize weights returns window := by
  by_cases hchanged : betaNeutralize weights returns window = weights
  · rw [hchanged, hchanged]
  · cases hbeta : betas weights.keys returns window with
    | none =>
      apply absurd _ hchanged
      rw [betaNeutralize, hbeta]
    | some beta =>
      have hzero := portfolioBeta_betaNeutralize hbeta hchanged
      rw [← keys_betaNeutralize weights returns window] at hbeta
      exact betaNeutralize_of_portfolioBeta hbeta hzero

/-- The algebra of the overlay. -/
theorem overlay_algebra {sqrt : 𝕜 → 𝕜} (hsqrt : ∀ q, 0 ≤ q → 0 ≤ sqrt q) (signal : Dict ι (Option 𝕜))
    (weights : Dict ι 𝕜) (returns : ReturnsPanel ι 𝕜) (volLookback window : ℤ) :
    (∀ tilted, riskParity sqrt signal returns volLookback = .ok tilted →
      (∀ e ∈ tilted.rows, ∃ s, (e.1, some s) ∈ signal.rows ∧ SignType.sign e.2 = SignType.sign s) ∧
        (grossWeight tilted = 1 ∨ ∀ e ∈ tilted.rows, e.2 = 0)) ∧
    (∀ beta, betas weights.keys returns window = some beta →
      betaNeutralize weights returns window ≠ weights →
      portfolioBeta (betaNeutralize weights returns window) beta = 0) ∧
    betaNeutralize (betaNeutralize weights returns window) returns window =
      betaNeutralize weights returns window :=
  ⟨fun _ h => riskParity_law hsqrt h, fun _ hbeta h => portfolioBeta_betaNeutralize hbeta h,
    betaNeutralize_idem weights returns window⟩

end Overlay

/-! ## Two symbols -/

/-- Three rows of returns of two symbols, with the volatilities 3 and 1 and the betas 1.5 and 0.5. -/
def twoSymbols : ReturnsPanel String ℚ where
  rows := 3
  columns := ⟨[("A", [some 3, some 0, some (-3)]), ("B", [some 1, some 0, some (-1)])], by decide⟩
  length_column := by decide

/-- A signal that is long and short. -/
def longShort : Dict String (Option ℚ) := ⟨[("A", some 1), ("B", some (-1)), ("C", none)], by decide⟩

/-- Half of the book in either symbol. -/
def halves : Dict String ℚ := ⟨[("A", 1 / 2), ("B", 1 / 2)], by decide⟩

theorem overlay_algebra_twoSymbols :
    (∃ tilted, riskParity Rat.sqrt longShort twoSymbols 3 = .ok tilted ∧
      (grossWeight tilted = 1 ∨ ∀ e ∈ tilted.rows, e.2 = 0)) ∧
    (∃ beta, betas halves.keys twoSymbols 3 = some beta ∧
      portfolioBeta (betaNeutralize halves twoSymbols 3) beta = 0) ∧
    (betaNeutralize halves twoSymbols 3).rows = [("A", -1 / 10), ("B", 3 / 10)] ∧
    betaNeutralize (betaNeutralize halves twoSymbols 3) twoSymbols 3 =
      betaNeutralize halves twoSymbols 3 := by
  have hlaw := @overlay_algebra String ℚ _ _ _ _ Rat.sqrt (fun q _ => Rat.sqrt_nonneg q) longShort halves
    twoSymbols 3 3
  have htilted : (riskParity Rat.sqrt longShort twoSymbols 3).toOption.isSome = true := by
    decide +kernel
  have hbetas : (betas halves.keys twoSymbols 3).isSome = true := by decide +kernel
  have hrows : (betaNeutralize halves twoSymbols 3).rows = [("A", -1 / 10), ("B", 3 / 10)] := by
    decide +kernel
  obtain ⟨beta, hbeta⟩ := Option.isSome_iff_exists.mp hbetas
  refine ⟨?_, ⟨beta, hbeta, hlaw.2.1 beta hbeta fun h => ?_⟩, hrows, hlaw.2.2⟩
  · cases hok : riskParity Rat.sqrt longShort twoSymbols 3 with
    | error e => rw [hok] at htilted; exact nomatch htilted
    | ok tilted => exact ⟨tilted, rfl, (hlaw.1 tilted hok).2⟩
  · rw [h] at hrows
    exact absurd hrows (by decide +kernel)

end PaperTrade.CrossAlpha
