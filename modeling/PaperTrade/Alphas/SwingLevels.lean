import Mathlib.Algebra.Order.Field.Basic
import Mathlib.Data.List.GetD
import Mathlib.Tactic

/-!
# Swing points, trailing levels and zones

`compute_swing_points` marks the bar `p` where, seen from `L` bars later, the market has turned: its high is
above or its low below all of the `L` bars after it, and the leg goes the other way. `compute_trailing_levels`
starts the upper level anew at a marked high and the lower level at a marked low, with a leg of its own, and
`compute_zones` cuts the range between the levels.

`none` is NaN in the arrays of swing points, and the infinity of a level that has not seen a bar.
-/

namespace PaperTrade.Alphas

/-! ## The source -/

inductive Leg
  | bearish
  | bullish
deriving DecidableEq

/-- The extreme value of `l[a:b]`, where `f` is `max` or `min`. -/
def extreme {K : Type} [Zero K] (f : K → K → K) (l : List K) (a b : ℕ) : K :=
  ((l.take b).drop (a + 1)).foldl f (l.getD a 0)

section Levels

variable {K : Type} [Zero K] [LinearOrder K]

/-- `compute_swing_points`: `is_pivot_high` or `is_pivot_low` of the candidate `p`. -/
def pivot (high low : List K) (L p : ℕ) : Option Leg :=
  if extreme max high (p + 1) (p + L + 1) < high.getD p 0 then some .bearish
  else if low.getD p 0 < extreme min low (p + 1) (p + L + 1) then some .bullish
  else none

structure Swings (K : Type) where
  swingHigh : List (Option K)
  swingLow : List (Option K)
  leg : Leg := .bearish

/-- `compute_swing_points`: the body of the loop. -/
def swingStep (high low : List K) (L : ℕ) (s : Swings K) (i : ℕ) : Swings K :=
  let p := i - L
  let leg := (pivot high low L p).getD s.leg
  if leg ≠ s.leg then
    match leg with
    | .bearish => { s with swingHigh := s.swingHigh.set p (some (high.getD p 0)), leg := leg }
    | .bullish => { s with swingLow := s.swingLow.set p (some (low.getD p 0)), leg := leg }
  else s

/-- `compute_swing_points`. -/
def computeSwingPoints (high low : List K) (L : ℕ) : List (Option K) × List (Option K) :=
  let n := high.length
  let s := (List.range' L (n - L)).foldl (swingStep high low L)
    { swingHigh := List.replicate n none, swingLow := List.replicate n none }
  (s.swingHigh, s.swingLow)

structure Trail (K : Type) where
  leg : Leg := .bearish
  curUp : Option K := none
  curDn : Option K := none
  trailUp : List K := []
  trailDn : List K := []

/-- `max(cur_up, x)` or `min(cur_dn, x)`. -/
def expand (f : K → K → K) (cur : Option K) (x : K) : K :=
  match cur with
  | none => x
  | some c => f c x

/-- `compute_trailing_levels`: the swing at `p` resets its level, if the leg flips. -/
def resetUp (swingHigh : List (Option K)) (s : Trail K) (p : ℕ) : Trail K :=
  match swingHigh.getD p none with
  | some v => if s.leg ≠ .bearish then { s with curUp := some v, leg := .bearish } else s
  | none => s

/-- The same of a swing low. -/
def resetDn (swingLow : List (Option K)) (s : Trail K) (p : ℕ) : Trail K :=
  match swingLow.getD p none with
  | some v => if s.leg ≠ .bullish then { s with curDn := some v, leg := .bullish } else s
  | none => s

/-- `compute_trailing_levels`: the body of the loop. -/
def trailStep (swingHigh swingLow : List (Option K)) (high low : List K) (L : ℕ) (s : Trail K) (i : ℕ) :
    Trail K :=
  let s := if L ≤ i then resetDn swingLow (resetUp swingHigh s (i - L)) (i - L) else s
  let up := expand max s.curUp (high.getD i 0)
  let dn := expand min s.curDn (low.getD i 0)
  { s with curUp := some up, curDn := some dn, trailUp := s.trailUp ++ [up], trailDn := s.trailDn ++ [dn] }

/-- `compute_trailing_levels`. -/
def computeTrailingLevels (swingHigh swingLow : List (Option K)) (high low : List K) (L : ℕ) :
    List K × List K :=
  let s := (List.range high.length).foldl (trailStep swingHigh swingLow high low L) {}
  (s.trailUp, s.trailDn)

/-- Both passes over one series. -/
def trailingLevels (high low : List K) (L : ℕ) : List K × List K :=
  let (swingHigh, swingLow) := computeSwingPoints high low L
  computeTrailingLevels swingHigh swingLow high low L

end Levels

/-- The result of `compute_zones`. -/
structure Zones (K : Type) where
  greenLow : K
  greenHigh : K
  redLow : K
  redHigh : K
deriving DecidableEq

/-- `compute_zones`. -/
def computeZones {K : Type} [Field K] [LinearOrder K] (trailUp trailDn : K) : Option (Zones K) :=
  if trailDn < trailUp then
    some ⟨trailDn, trailDn * (95 / 100) + trailUp * (5 / 100), trailUp * (95 / 100) + trailDn * (5 / 100),
      trailUp⟩
  else none

/-! ## Extremes -/

section Extremes

variable {K : Type} [Zero K] (f : K → K → K) (l : List K)

lemma extreme_self (a : ℕ) : extreme f l a (a + 1) = l.getD a 0 := by
  have hnone : (l.take (a + 1)).drop (a + 1) = [] := by simp
  rw [extreme, hnone, List.foldl_nil]

lemma extreme_succ {a b : ℕ} (hab : a < b) (hb : b < l.length) :
    extreme f l a (b + 1) = f (extreme f l a b) (l.getD b 0) := by
  have htake : l.take (b + 1) = l.take b ++ [l.getD b 0] := by
    rw [List.take_add_one, List.getElem?_eq_getElem hb, List.getD_eq_getElem _ _ hb]
    rfl
  rw [extreme, htake, List.drop_append_of_le_length (by simp; omega), List.foldl_append]
  rfl

/-- A first value that `f` prefers to all others is the extreme one. -/
lemma extreme_eq_first {a b : ℕ} (hab : a < b) (hb : b ≤ l.length)
    (h : ∀ j, a < j → j < b → f (l.getD a 0) (l.getD j 0) = l.getD a 0) :
    extreme f l a b = l.getD a 0 := by
  induction b with
  | zero => omega
  | succ b ih =>
    by_cases hlast : a = b
    · subst hlast
      exact extreme_self f l a
    · rw [extreme_succ f l (by omega) (by omega), ih (by omega) (by omega) fun j haj hjb => h j haj (by omega)]
      exact h b (by omega) (by omega)

end Extremes

section Bounds

variable {K : Type} [Zero K] [LinearOrder K] {l : List K}

lemma le_extreme {a b j : ℕ} (haj : a ≤ j) (hjb : j < b) (hb : b ≤ l.length) :
    l.getD j 0 ≤ extreme max l a b := by
  induction b with
  | zero => omega
  | succ b ih =>
    by_cases hlast : a = b
    · have hj : j = a := by omega
      rw [hj, ← hlast, extreme_self]
    · rw [extreme_succ max l (by omega) (by omega)]
      by_cases hj : j = b
      · rw [hj]
        exact le_max_right _ _
      · exact (ih (by omega) (by omega)).trans (le_max_left _ _)

lemma extreme_le {a b j : ℕ} (haj : a ≤ j) (hjb : j < b) (hb : b ≤ l.length) :
    extreme min l a b ≤ l.getD j 0 := by
  induction b with
  | zero => omega
  | succ b ih =>
    by_cases hlast : a = b
    · have hj : j = a := by omega
      rw [hj, ← hlast, extreme_self]
    · rw [extreme_succ min l (by omega) (by omega)]
      by_cases hj : j = b
      · rw [hj]
        exact min_le_right _ _
      · exact (min_le_left _ _).trans (ih (by omega) (by omega))

end Bounds

/-! ## The legs -/

section Legs

variable {K : Type} [Zero K] [LinearOrder K] (high low : List K) (L : ℕ)

/-- The leg after the first `k` candidates. -/
def legAt : ℕ → Leg
  | 0 => .bearish
  | k + 1 => (pivot high low L k).getD (legAt k)

/-- The leg that begins at the candidate `p`, if one does. -/
def flip (p : ℕ) : Option Leg :=
  if legAt high low L (p + 1) ≠ legAt high low L p then some (legAt high low L (p + 1)) else none

/-- The array of the swings of one kind. -/
def marks (leg : Leg) (values : List K) : List (Option K) :=
  (List.range high.length).map fun p =>
    if p + L < high.length ∧ flip high low L p = some leg then some (values.getD p 0) else none

/-- A flip comes from a pivot. -/
lemma pivot_of_flip {p : ℕ} {leg : Leg} (h : flip high low L p = some leg) : pivot high low L p = some leg := by
  unfold flip at h
  split at h
  · rename_i hne
    rw [← Option.some.inj h, legAt]
    cases hpivot : pivot high low L p with
    | none =>
      rw [legAt, hpivot] at hne
      exact absurd rfl hne
    | some leg' => rfl
  · cases h

/-- The array of one kind after `m` candidates of the loop. -/
def marksUpTo (m : ℕ) (leg : Leg) (values : List K) : List (Option K) :=
  (List.range high.length).map fun p =>
    if p < m ∧ flip high low L p = some leg then some (values.getD p 0) else none

lemma marksUpTo_zero (leg : Leg) (values : List K) :
    marksUpTo high low L 0 leg values = List.replicate high.length none := by
  simp [marksUpTo]

lemma marksUpTo_succ_of_ne {m : ℕ} {leg : Leg} (h : flip high low L m ≠ some leg) (values : List K) :
    marksUpTo high low L (m + 1) leg values = marksUpTo high low L m leg values := by
  refine List.map_congr_left fun p _ => ?_
  by_cases hp : p = m
  · subst hp
    rw [if_neg fun hand => h hand.2, if_neg fun hand => h hand.2]
  · have hlt : p < m + 1 ↔ p < m := by omega
    simp only [hlt]

lemma marksUpTo_succ_of_eq {m : ℕ} {leg : Leg} (h : flip high low L m = some leg) (values : List K) :
    marksUpTo high low L (m + 1) leg values =
      (marksUpTo high low L m leg values).set m (some (values.getD m 0)) := by
  apply List.ext_getElem
  · simp [marksUpTo]
  · intro p hp hp'
    rw [List.getElem_set]
    by_cases hpm : m = p
    · subst hpm
      simp [marksUpTo, h]
    · have hlt : p < m + 1 ↔ p < m := by omega
      simp only [marksUpTo, List.getElem_map, List.getElem_range, hlt, if_neg hpm]

/-- The first pass after `m` candidates. -/
lemma foldl_swingStep (m : ℕ) :
    (List.range' L m).foldl (swingStep high low L)
        { swingHigh := List.replicate high.length none, swingLow := List.replicate high.length none } =
      { swingHigh := marksUpTo high low L m .bearish high, swingLow := marksUpTo high low L m .bullish low,
        leg := legAt high low L m } := by
  induction m with
  | zero => simp [marksUpTo_zero, legAt]
  | succ m ih =>
    rw [List.range'_1_concat, List.foldl_append, ih, List.foldl_cons, List.foldl_nil]
    have hp : L + m - L = m := by omega
    have hleg : (pivot high low L m).getD (legAt high low L m) = legAt high low L (m + 1) := rfl
    unfold swingStep
    dsimp only
    rw [hp, hleg]
    by_cases hflip : legAt high low L (m + 1) ≠ legAt high low L m
    · have hflip' : flip high low L m = some (legAt high low L (m + 1)) := if_pos hflip
      rw [if_pos hflip]
      cases hnext : legAt high low L (m + 1) with
      | bearish =>
        rw [hnext] at hflip'
        have hother : flip high low L m ≠ some .bullish := by
          rw [hflip']
          simp
        rw [marksUpTo_succ_of_eq high low L hflip', marksUpTo_succ_of_ne high low L hother]
      | bullish =>
        rw [hnext] at hflip'
        have hother : flip high low L m ≠ some .bearish := by
          rw [hflip']
          simp
        rw [marksUpTo_succ_of_eq high low L hflip', marksUpTo_succ_of_ne high low L hother]
    · have hnone : flip high low L m = none := if_neg hflip
      rw [if_neg hflip, marksUpTo_succ_of_ne high low L (by simp [hnone]),
        marksUpTo_succ_of_ne high low L (by simp [hnone]), not_not.mp hflip]

lemma computeSwingPoints_eq :
    computeSwingPoints high low L = (marks high low L .bearish high, marks high low L .bullish low) := by
  have hbound : ∀ p, p < high.length - L ↔ p + L < high.length := fun p => by omega
  unfold computeSwingPoints
  dsimp only
  rw [foldl_swingStep]
  simp only [marksUpTo, marks, hbound]

end Legs

/-! ## The levels -/

/-- The latest marked bar before `k`, or the first bar. -/
def latestMark {K : Type} (marks : List (Option K)) : ℕ → ℕ
  | 0 => 0
  | k + 1 => if (marks.getD k none).isSome then k else latestMark marks k

lemma latestMark_le {K : Type} (marks : List (Option K)) (k : ℕ) : latestMark marks k ≤ k - 1 := by
  induction k with
  | zero => simp [latestMark]
  | succ k ih =>
    unfold latestMark
    split <;> omega

section Trailing

variable {K : Type} [Zero K] [LinearOrder K] (high low : List K) (L : ℕ)

lemma getD_marks (leg : Leg) (values : List K) (p : ℕ) :
    (marks high low L leg values).getD p none =
      if p + L < high.length ∧ flip high low L p = some leg then some (values.getD p 0) else none := by
  by_cases hp : p < high.length
  · rw [List.getD_eq_getElem _ _ (by simpa [marks] using hp)]
    simp [marks]
  · rw [List.getD_eq_default _ _ (by simpa [marks] using hp), if_neg (by omega)]

/-- The bar from which on the level of one kind has been expanded, after `m` bars. -/
def start (leg : Leg) (values : List K) (m : ℕ) : ℕ := latestMark (marks high low L leg values) (m - L)

/-- The second pass after `m` bars. -/
def trailAfter (m : ℕ) : Trail K where
  leg := legAt high low L (m - L)
  curUp := if m = 0 then none else some (extreme max high (start high low L .bearish high m) m)
  curDn := if m = 0 then none else some (extreme min low (start high low L .bullish low m) m)
  trailUp := (List.range m).map fun i => extreme max high (start high low L .bearish high (i + 1)) (i + 1)
  trailDn := (List.range m).map fun i => extreme min low (start high low L .bullish low (i + 1)) (i + 1)

variable {high low L}

lemma start_succ_of_lt {m : ℕ} (h : m < L) (leg : Leg) (values : List K) :
    start high low L leg values (m + 1) = start high low L leg values m := by
  have hm : m - L = 0 := by omega
  have hm' : m + 1 - L = 0 := by omega
  rw [start, start, hm, hm']

/-- A level goes on from where it is, unless the candidate is marked. -/
lemma start_succ {p : ℕ} (hp : p + L < high.length) (leg : Leg) (values : List K) :
    start high low L leg values (p + L + 1) =
      if flip high low L p = some leg then p else start high low L leg values (p + L) := by
  have hm : p + L - L = p := by omega
  have hm' : p + L + 1 - L = p + 1 := by omega
  rw [start, start, hm, hm', latestMark, getD_marks]
  by_cases hflip : flip high low L p = some leg
  · simp [hp, hflip]
  · simp [hflip]

lemma start_lt (hL : 0 < L) (leg : Leg) (values : List K) {m : ℕ} (hm : 0 < m) :
    start high low L leg values m < m := by
  have hle := latestMark_le (marks high low L leg values) (m - L)
  unfold start
  omega

/-- A level expands with the bar. -/
lemma expand_eq (f : K → K → K) {l : List K} {a m : ℕ} (ha : a < m ∨ m = 0 ∧ a = 0) (hm : m < l.length) :
    expand f (if m = 0 then none else some (extreme f l a m)) (l.getD m 0) = extreme f l a (m + 1) := by
  by_cases hzero : m = 0
  · obtain rfl : a = 0 := by omega
    subst hzero
    exact (extreme_self f l 0).symm
  · rw [if_neg hzero, extreme_succ f l (by omega) hm]
    rfl

/-- A marked high is above the bars after it. -/
lemma extreme_of_flip_bearish {p : ℕ} (hp : p + L < high.length)
    (hflip : flip high low L p = some .bearish) :
    ∀ j, p < j → j < p + L + 1 → max (high.getD p 0) (high.getD j 0) = high.getD p 0 := by
  have hpivot := pivot_of_flip high low L hflip
  unfold pivot at hpivot
  split at hpivot
  · rename_i habove
    intro j hpj hj
    exact max_eq_left ((le_extreme (by omega) hj (by omega)).trans habove.le)
  · split at hpivot
    · cases hpivot
    · cases hpivot

lemma extreme_of_flip_bullish {p : ℕ} (hlow : low.length = high.length) (hp : p + L < high.length)
    (hflip : flip high low L p = some .bullish) :
    ∀ j, p < j → j < p + L + 1 → min (low.getD p 0) (low.getD j 0) = low.getD p 0 := by
  have hpivot := pivot_of_flip high low L hflip
  unfold pivot at hpivot
  split at hpivot
  · cases hpivot
  · split at hpivot
    · rename_i hbelow
      intro j hpj hj
      exact min_eq_left (hbelow.le.trans (extreme_le (by omega) hj (by omega)))
    · cases hpivot

lemma legAt_of_flip_none {p : ℕ} (h : flip high low L p = none) :
    legAt high low L (p + 1) = legAt high low L p := by
  unfold flip at h
  split at h
  · cases h
  · rename_i hsame
    exact not_not.mp hsame

lemma legAt_of_flip {p : ℕ} {leg : Leg} (h : flip high low L p = some leg) :
    legAt high low L (p + 1) = leg ∧ legAt high low L p ≠ leg := by
  unfold flip at h
  split at h
  · rename_i hne
    have hleg := Option.some.inj h
    rw [hleg] at hne
    exact ⟨hleg, hne.symm⟩
  · cases h

variable (high low) in
/-- The level before a bar has seen the bars from its start on, or there are none. -/
lemma start_cases (hL : 0 < L) (leg : Leg) (values : List K) (m : ℕ) :
    start high low L leg values m < m ∨ m = 0 ∧ start high low L leg values m = 0 := by
  by_cases hzero : m = 0
  · right
    subst hzero
    simp [start, latestMark]
  · exact .inl (start_lt hL leg values (by omega))

variable (low) in
/-- A level that is reset at a marked candidate, or goes on, and expands with the bar. -/
lemma expand_reset (f : K → K → K) (values : List K) (leg : Leg) (hL : 0 < L)
    (hlength : values.length = high.length) {p : ℕ} (hp : p + L < high.length)
    (hfirst : flip high low L p = some leg →
      ∀ j, p < j → j < p + L + 1 → f (values.getD p 0) (values.getD j 0) = values.getD p 0) :
    expand f (if flip high low L p = some leg then some (values.getD p 0)
        else if p + L = 0 then none else some (extreme f values (start high low L leg values (p + L)) (p + L)))
      (values.getD (p + L) 0) =
    extreme f values (start high low L leg values (p + L + 1)) (p + L + 1) := by
  rw [start_succ hp]
  by_cases hflip : flip high low L p = some leg
  · rw [if_pos hflip, if_pos hflip, extreme_eq_first f values (by omega) (by omega) (hfirst hflip)]
    exact hfirst hflip (p + L) (by omega) (by omega)
  · rw [if_neg hflip, if_neg hflip]
    exact expand_eq f (start_cases high low hL leg values (p + L)) (by omega)

/-- The resets of a candidate. Both passes are in the same leg, so a marked swing resets its level. -/
lemma reset_eq {p : ℕ} (hp : p + L < high.length) :
    resetDn (marks high low L .bullish low) (resetUp (marks high low L .bearish high)
        (trailAfter high low L (p + L)) p) p =
      { trailAfter high low L (p + L) with
        leg := legAt high low L (p + 1)
        curUp := if flip high low L p = some .bearish then some (high.getD p 0)
          else (trailAfter high low L (p + L)).curUp
        curDn := if flip high low L p = some .bullish then some (low.getD p 0)
          else (trailAfter high low L (p + L)).curDn } := by
  have hindex : p + L - L = p := by omega
  have hleg : (trailAfter high low L (p + L)).leg = legAt high low L p := by simp [trailAfter]
  unfold resetDn resetUp
  rw [getD_marks, getD_marks]
  cases hflip : flip high low L p with
  | none =>
    have hsame := legAt_of_flip_none hflip
    simp [hsame, ← hleg]
  | some leg =>
    obtain ⟨hnext, hne⟩ := legAt_of_flip hflip
    rw [← hleg] at hne
    cases leg with
    | bearish => simp [hp, hnext, hne]
    | bullish => simp [hp, hnext, hne]

/-- One bar of the second pass. -/
lemma trailStep_trailAfter (hL : 0 < L) (hlow : low.length = high.length) {m : ℕ} (hm : m < high.length) :
    trailStep (marks high low L .bearish high) (marks high low L .bullish low) high low L
        (trailAfter high low L m) m = trailAfter high low L (m + 1) := by
  unfold trailStep
  by_cases hcandidate : L ≤ m
  · obtain ⟨p, rfl⟩ : ∃ p, m = p + L := ⟨m - L, by omega⟩
    have hindex : p + L - L = p := by omega
    have hindex' : p + L + 1 - L = p + 1 := by omega
    have hup := expand_reset low max high .bearish hL rfl hm (extreme_of_flip_bearish hm)
    have hdn := expand_reset low min low .bullish hL hlow hm (extreme_of_flip_bullish hlow hm)
    rw [if_pos hcandidate, hindex, reset_eq hm]
    simp only [trailAfter, hup, hdn, hindex', List.range_succ, List.map_append, List.map_singleton,
      Nat.add_one_ne_zero, if_false]
  · have hlt : m < L := not_le.mp hcandidate
    have hleg : m - L = m + 1 - L := by omega
    have hup := expand_eq max (start_cases high low hL .bearish high m) hm
    have hdn := expand_eq min (start_cases high low hL .bullish low m) (hm.trans_eq hlow.symm)
    rw [if_neg hcandidate]
    simp only [trailAfter, hup, hdn, hleg, start_succ_of_lt hlt, List.range_succ, List.map_append,
      List.map_singleton, Nat.add_one_ne_zero, if_false]

/-- Both passes: a level is the extreme value since its latest mark. -/
theorem trailingLevels_eq (hL : 0 < L) (hlow : low.length = high.length) :
    trailingLevels high low L =
      ((List.range high.length).map fun i =>
          extreme max high (latestMark (computeSwingPoints high low L).1 (i + 1 - L)) (i + 1),
        (List.range high.length).map fun i =>
          extreme min low (latestMark (computeSwingPoints high low L).2 (i + 1 - L)) (i + 1)) := by
  have hrun : ∀ m ≤ high.length, (List.range m).foldl
      (trailStep (marks high low L .bearish high) (marks high low L .bullish low) high low L) {} =
      trailAfter high low L m := by
    intro m hm
    induction m with
    | zero => simp [trailAfter, legAt]
    | succ m ih =>
      rw [List.range_succ, List.foldl_append, ih (by omega), List.foldl_cons, List.foldl_nil]
      exact trailStep_trailAfter hL hlow (by omega)
  unfold trailingLevels computeTrailingLevels
  rw [computeSwingPoints_eq]
  dsimp only
  rw [hrun _ le_rfl]
  rfl

end Trailing

/-! ## The marks -/

/-- The kinds of the marked bars, in their order. -/
def kinds {K : Type} (swingHigh swingLow : List (Option K)) : List Leg :=
  (List.range swingHigh.length).filterMap fun p =>
    if (swingHigh.getD p none).isSome then some .bearish
    else if (swingLow.getD p none).isSome then some .bullish
    else none

section Marks

variable {K : Type} [Zero K] [LinearOrder K] {high low : List K} {L : ℕ}

variable (high low L) in
/-- The legs that begin go to and fro, the first one up. -/
lemma alternating_flips (m : ℕ) :
    ((List.range m).filterMap (flip high low L)).IsChain (· ≠ ·) ∧
      ((List.range m).filterMap (flip high low L)).head? ≠ some .bearish ∧
      ((List.range m).filterMap (flip high low L)).getLast?.getD .bearish = legAt high low L m := by
  induction m with
  | zero => simp [legAt]
  | succ m ih =>
    obtain ⟨hchain, hhead, hlast⟩ := ih
    rw [List.range_succ, List.filterMap_append]
    cases hflip : flip high low L m with
    | none =>
      rw [List.filterMap_cons_none hflip, List.filterMap_nil, List.append_nil, legAt_of_flip_none hflip]
      exact ⟨hchain, hhead, hlast⟩
    | some leg =>
      obtain ⟨hnext, hne⟩ := legAt_of_flip hflip
      rw [List.filterMap_cons_some hflip, List.filterMap_nil, hnext]
      rw [← hlast] at hne
      refine ⟨?_, ?_, by simp⟩
      · refine List.isChain_append.mpr ⟨hchain, List.isChain_singleton _, fun a ha b hb => ?_⟩
        rw [Option.mem_def.mp ha, Option.getD_some] at hne
        simp only [List.head?_cons, Option.mem_some_iff] at hb
        exact hb ▸ hne
      · cases hkinds : (List.range m).filterMap (flip high low L) with
        | nil =>
          rw [hkinds] at hne
          simpa using hne.symm
        | cons a rest =>
          rw [hkinds] at hhead
          simpa using hhead

lemma kinds_computeSwingPoints :
    kinds (computeSwingPoints high low L).1 (computeSwingPoints high low L).2 =
      (List.range (high.length - L)).filterMap (flip high low L) := by
  rw [computeSwingPoints_eq]
  unfold kinds
  have hlength : (marks high low L .bearish high).length = high.length := by simp [marks]
  have hsplit : List.range high.length =
      List.range (high.length - L) ++ List.range' (high.length - L) (high.length - (high.length - L)) := by
    have happend := List.range'_append_1 (s := 0) (m := high.length - L) (n := high.length - (high.length - L))
    rw [Nat.zero_add, Nat.add_sub_cancel' (Nat.sub_le _ _)] at happend
    rw [List.range_eq_range', List.range_eq_range', happend]
  have hkind (p : ℕ) : (if ((marks high low L .bearish high).getD p none).isSome then some Leg.bearish
      else if ((marks high low L .bullish low).getD p none).isSome then some .bullish else none) =
      if p + L < high.length then flip high low L p else none := by
    rw [getD_marks, getD_marks]
    by_cases hp : p + L < high.length
    · cases hflip : flip high low L p with
      | none => simp
      | some leg => cases leg <;> simp [hp]
    · simp [hp]
  dsimp only
  simp only [hkind]
  rw [hlength, hsplit, List.filterMap_append]
  have hlate : (List.range' (high.length - L) (high.length - (high.length - L))).filterMap
      (fun p => if p + L < high.length then flip high low L p else none) = [] := by
    refine List.filterMap_eq_nil_iff.mpr fun p hp => if_neg ?_
    rw [List.mem_range'_1] at hp
    omega
  rw [hlate, List.append_nil]
  refine List.filterMap_congr fun p hp => if_pos ?_
  rw [List.mem_range] at hp
  omega

end Marks

/-! ## Prefixes -/

section Prefix

variable {K : Type} [Zero K]

lemma getD_take {α : Type} {l : List α} {m j : ℕ} (hj : j < m) (d : α) : (l.take m).getD j d = l.getD j d := by
  rw [List.getD_eq_getElem?_getD, List.getD_eq_getElem?_getD, List.getElem?_take_of_lt hj]

lemma extreme_take (f : K → K → K) (l : List K) {a b m : ℕ} (ha : a < m) (hb : b ≤ m) :
    extreme f (l.take m) a b = extreme f l a b := by
  rw [extreme, extreme, List.take_take, min_eq_left hb, getD_take ha]

variable [LinearOrder K] {high low : List K} {L m : ℕ}

lemma pivot_take (hL : 0 < L) {p : ℕ} (hp : p + L < m) :
    pivot (high.take m) (low.take m) L p = pivot high low L p := by
  unfold pivot
  rw [extreme_take max high (by omega) (by omega), extreme_take min low (by omega) (by omega),
    getD_take (by omega), getD_take (by omega)]

lemma legAt_take (hL : 0 < L) {k : ℕ} (hk : k + L ≤ m) :
    legAt (high.take m) (low.take m) L k = legAt high low L k := by
  induction k with
  | zero => rfl
  | succ k ih => rw [legAt, legAt, pivot_take hL (by omega), ih (by omega)]

lemma flip_take (hL : 0 < L) {p : ℕ} (hp : p + L < m) :
    flip (high.take m) (low.take m) L p = flip high low L p := by
  unfold flip
  rw [legAt_take hL (by omega), legAt_take hL (by omega)]

/-- The latest mark of a bar needs the bars up to it only. -/
lemma latestMark_take (hL : 0 < L) (hm : m ≤ high.length) (leg : Leg) (values : List K) {k : ℕ}
    (hk : k + L ≤ m) :
    latestMark (marks (high.take m) (low.take m) L leg (values.take m)) k =
      latestMark (marks high low L leg values) k := by
  have hlength : (high.take m).length = m := List.length_take_of_le hm
  induction k with
  | zero => rfl
  | succ k ih =>
    have hbound : k + L < high.length := by omega
    have hbound' : k + L < m := by omega
    unfold latestMark
    rw [getD_marks, getD_marks, hlength, flip_take hL hbound', getD_take (by omega), ih (by omega)]
    simp only [hbound, hbound', true_and]

/-- The levels of a prefix are the first levels of the series. -/
theorem trailingLevels_take (hL : 0 < L) (hlow : low.length = high.length) (hm : m ≤ high.length) :
    trailingLevels (high.take m) (low.take m) L =
      ((trailingLevels high low L).1.take m, (trailingLevels high low L).2.take m) := by
  have hhigh' : (high.take m).length = m := List.length_take_of_le hm
  have hlow' : (low.take m).length = m := List.length_take_of_le (by omega)
  have hprefix : (List.range high.length).take m = List.range m := by
    rw [List.take_range, min_eq_left hm]
  rw [trailingLevels_eq hL (hlow'.trans hhigh'.symm), trailingLevels_eq hL hlow, hhigh']
  dsimp only
  rw [← List.map_take, ← List.map_take, hprefix, computeSwingPoints_eq, computeSwingPoints_eq]
  refine Prod.ext (List.map_congr_left fun i hi => ?_) (List.map_congr_left fun i hi => ?_)
  · rw [List.mem_range] at hi
    have hstart := latestMark_le (marks high low L .bearish high) (i + 1 - L)
    by_cases hcandidate : L ≤ i + 1
    · rw [latestMark_take hL hm .bearish high (by omega), extreme_take max high (by omega) (by omega)]
    · have hzero : i + 1 - L = 0 := by omega
      rw [hzero]
      exact extreme_take max high (by simp only [latestMark]; omega) (by omega)
  · rw [List.mem_range] at hi
    have hstart := latestMark_le (marks high low L .bullish low) (i + 1 - L)
    by_cases hcandidate : L ≤ i + 1
    · rw [latestMark_take hL hm .bullish low (by omega), extreme_take min low (by omega) (by omega)]
    · have hzero : i + 1 - L = 0 := by omega
      rw [hzero]
      exact extreme_take min low (by simp only [latestMark]; omega) (by omega)

end Prefix

/-! ## Zones -/

/-- The zones lie in the range, the green one below the red one. -/
lemma zones_ordered {K : Type} [Field K] [LinearOrder K] [IsStrictOrderedRing K] {up dn : K} {z : Zones K}
    (h : computeZones up dn = some z) :
    z.greenLow ≤ z.greenHigh ∧ z.greenHigh < z.redLow ∧ z.redLow ≤ z.redHigh := by
  unfold computeZones at h
  split at h
  · rename_i hrange
    rw [← Option.some.inj h]
    refine ⟨?_, ?_, ?_⟩
    · show dn ≤ dn * (95 / 100) + up * (5 / 100)
      linarith
    · show dn * (95 / 100) + up * (5 / 100) < up * (95 / 100) + dn * (5 / 100)
      linarith
    · show up * (95 / 100) + dn * (5 / 100) ≤ up
      linarith
  · cases h

/-- What the two passes and the zones say of a series. -/
structure BracketsMarket {K : Type} [Field K] [LinearOrder K] (high low : List K) (L : ℕ) : Prop where
  up : (trailingLevels high low L).1 = (List.range high.length).map fun i =>
    extreme max high (latestMark (computeSwingPoints high low L).1 (i + 1 - L)) (i + 1)
  dn : (trailingLevels high low L).2 = (List.range high.length).map fun i =>
    extreme min low (latestMark (computeSwingPoints high low L).2 (i + 1 - L)) (i + 1)
  alternate : (kinds (computeSwingPoints high low L).1 (computeSwingPoints high low L).2).IsChain (· ≠ ·)
  lowFirst : (kinds (computeSwingPoints high low L).1 (computeSwingPoints high low L).2).head? ≠ some .bearish
  single : ∀ p, (computeSwingPoints high low L).1.getD p none = none ∨
    (computeSwingPoints high low L).2.getD p none = none
  causal : ∀ m ≤ high.length, trailingLevels (high.take m) (low.take m) L =
    ((trailingLevels high low L).1.take m, (trailingLevels high low L).2.take m)
  zones : ∀ i z, computeZones ((trailingLevels high low L).1.getD i 0)
    ((trailingLevels high low L).2.getD i 0) = some z →
      z.greenLow ≤ z.greenHigh ∧ z.greenHigh < z.redLow ∧ z.redLow ≤ z.redHigh

/-- The levels are the extremes since the latest confirmed swings, the swings alternate, no level looks ahead,
and the zones do not meet. -/
theorem bracketsMarket {K : Type} [Field K] [LinearOrder K] [IsStrictOrderedRing K] {high low : List K} {L : ℕ}
    (hL : 0 < L) (hlow : low.length = high.length) : BracketsMarket high low L := by
  have hlevels := trailingLevels_eq hL hlow
  obtain ⟨hchain, hhead, -⟩ := alternating_flips high low L (high.length - L)
  rw [← kinds_computeSwingPoints] at hchain hhead
  refine ⟨congrArg Prod.fst hlevels, congrArg Prod.snd hlevels, hchain, hhead, fun p => ?_,
    fun m hm => trailingLevels_take hL hlow hm, fun i z hz => zones_ordered hz⟩
  rw [computeSwingPoints_eq]
  dsimp only
  rw [getD_marks, getD_marks]
  by_cases hflip : flip high low L p = some .bearish
  · right
    simp [hflip]
  · left
    simp [hflip]

/-- Ten bars with a low and a high. -/
theorem bracketsMarket_wave :
    BracketsMarket ([5, 3, 2, 4, 6, 9, 8, 7, 5, 6] : List ℚ) [4, 2, 1, 3, 5, 7, 6, 5, 4, 5] 2 :=
  bracketsMarket (by decide) rfl

example : computeSwingPoints ([5, 3, 2, 4, 6, 9, 8, 7, 5, 6] : List ℚ) [4, 2, 1, 3, 5, 7, 6, 5, 4, 5] 2 =
    ([none, none, none, none, none, some 9, none, none, none, none],
      [none, none, some 1, none, none, none, none, none, none, none]) := by decide +kernel

end PaperTrade.Alphas
