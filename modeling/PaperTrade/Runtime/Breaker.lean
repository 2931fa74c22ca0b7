import Mathlib.Algebra.Order.Group.Defs
import Mathlib.Tactic

/-!
# Circuit breakers

A caller whose attempts keep failing is kept from trying: once `threshold` attempts in a row have
failed, the next one has to wait for `cooldown` from the last failure. All that counts of the past is
the streak of failures since the last success. A log that obeys the rule has its attempts spaced by
the cooldown from the end of the threshold to the next success (`Obeys.spaced`).
-/

namespace PaperTrade.Runtime.Breaker

/-- How a call ended: kept from trying, tried and failed, tried and succeeded. -/
inductive Outcome
  | skipped
  | failed
  | succeeded
deriving DecidableEq, Repr

/-- A call, between two readings of a clock. -/
structure Attempt (T : Type*) where
  started : T
  ended : T
  outcome : Outcome
deriving DecidableEq, Repr

variable {T : Type*}

/-! ## The streak -/

/-- What a call does to the streak. -/
def Attempt.extend (streak : List T) (a : Attempt T) : List T :=
  match a.outcome with
  | .skipped => streak
  | .failed => a.ended :: streak
  | .succeeded => []

/-- The ends of the failures since the last success, the last one first. -/
def streak (log : List (Attempt T)) : List T := log.foldl Attempt.extend []

@[simp] lemma streak_nil : streak ([] : List (Attempt T)) = [] := rfl

@[simp] lemma streak_snoc (log : List (Attempt T)) (a : Attempt T) :
    streak (log ++ [a]) = a.extend (streak log) := by
  simp only [streak, List.foldl_append, List.foldl_cons, List.foldl_nil]

/-- Until a success the streak only grows, by the failures. -/
lemma streak_append (before : List (Attempt T)) {log : List (Attempt T)}
    (hlog : ∀ a ∈ log, a.outcome ≠ .succeeded) :
    streak (before ++ log) =
      ((log.filter (·.outcome = .failed)).map (·.ended)).reverse ++ streak before := by
  induction log using List.reverseRecOn with
  | nil => simp
  | append_singleton log a ih =>
    have hbefore := ih fun b hb => hlog b (List.mem_append_left _ hb)
    have ha : a.outcome ≠ .succeeded := hlog a (by simp)
    rw [← List.append_assoc, streak_snoc, hbefore, Attempt.extend]
    match h : a.outcome with
    | .skipped => simp [h]
    | .failed => simp [h]
    | .succeeded => exact absurd h ha

/-! ## The rule -/

section

variable [LE T] [Add T]

/-- A breaker lets a call through. -/
def Admits (threshold : ℤ) (cooldown : T) (streak : List T) (now : T) : Prop :=
  streak.length < threshold ∨ ∀ last ∈ streak.head?, last + cooldown ≤ now

instance [DecidableLE T] (threshold : ℤ) (cooldown : T) (streak : List T) (now : T) :
    Decidable (Admits threshold cooldown streak now) :=
  inferInstanceAs (Decidable (_ ∨ ∀ last ∈ streak.head?, last + cooldown ≤ now))

/-- Every call of the log is tried exactly when the breaker lets it through. -/
def Obeys (threshold : ℤ) (cooldown : T) (log : List (Attempt T)) : Prop :=
  ∀ before a after, log = before ++ a :: after →
    (a.outcome ≠ .skipped ↔ Admits threshold cooldown (streak before) a.started)

/-- One call after the other, on a clock that does not go back. -/
def InOrder (log : List (Attempt T)) : Prop :=
  (∀ a ∈ log, a.started ≤ a.ended) ∧ log.Pairwise (·.ended ≤ ·.started)

instance [DecidableLE T] (log : List (Attempt T)) : Decidable (InOrder log) :=
  inferInstanceAs (Decidable (_ ∧ _))

lemma obeys_nil (threshold : ℤ) (cooldown : T) : Obeys threshold cooldown [] :=
  fun before _ _ h => absurd h (by simp)

/-- The rule is kept call by call. -/
lemma Obeys.snoc {threshold : ℤ} {cooldown : T} {log : List (Attempt T)} {a : Attempt T}
    (hlog : Obeys threshold cooldown log)
    (ha : a.outcome ≠ .skipped ↔ Admits threshold cooldown (streak log) a.started) :
    Obeys threshold cooldown (log ++ [a]) := by
  intro before b after h
  rcases List.eq_nil_or_concat after with rfl | ⟨after', c, rfl⟩
  · obtain ⟨rfl, hab⟩ := List.append_inj' h rfl
    rw [List.singleton_inj] at hab
    exact hab ▸ ha
  · rw [List.concat_eq_append, ← List.cons_append, ← List.append_assoc] at h
    exact hlog before b after' (List.append_inj' h rfl).1

end

/-! ## The spacing -/

variable [LinearOrder T]

lemma InOrder.ended_le {before mid after : List (Attempt T)} {a b : Attempt T}
    (horder : InOrder (before ++ a :: mid ++ b :: after)) {c : Attempt T} (hc : c ∈ a :: mid) :
    a.ended ≤ c.ended := by
  have hpairs : (a :: mid).Pairwise (·.ended ≤ ·.started) :=
    horder.2.sublist (by simp)
  rcases List.mem_cons.mp hc with rfl | hmid
  · exact le_rfl
  · exact (List.rel_of_pairwise_cons hpairs hmid).trans (horder.1 c (by simp [hmid]))

variable [AddCommGroup T] [IsOrderedAddMonoid T]

/-- From `threshold` failures in a row to the next success, at most one attempt for each cooldown. -/
theorem Obeys.spaced {threshold : ℤ} {cooldown : T} {before mid after : List (Attempt T)}
    {a b : Attempt T} (hobeys : Obeys threshold cooldown (before ++ a :: mid ++ b :: after))
    (horder : InOrder (before ++ a :: mid ++ b :: after))
    (hthreshold : threshold ≤ (streak before).length) (ha : a.outcome ≠ .skipped)
    (hb : b.outcome ≠ .skipped) (hfailing : ∀ c ∈ a :: mid, c.outcome ≠ .succeeded) :
    a.started + cooldown ≤ b.started := by
  have hadmits := (hobeys _ b after rfl).mp hb
  rw [streak_append before hfailing] at hadmits
  have hfailed : a.outcome = .failed := by
    match h : a.outcome with
    | .skipped => exact absurd h ha
    | .failed => rfl
    | .succeeded => exact absurd h (hfailing a (by simp))
  -- the last failure is that of `a` or a later one
  set failures := ((a :: mid).filter (·.outcome = .failed)).map (·.ended) with hfailures
  have hne : failures.reverse ≠ [] := by simp [hfailures, hfailed]
  obtain ⟨last, hlast⟩ : ∃ last, (failures.reverse ++ streak before).head? = some last := by
    rw [List.head?_append_of_ne_nil _ hne]
    exact ⟨_, List.head?_eq_some_head hne⟩
  have hlater : a.ended ≤ last := by
    rw [List.head?_append_of_ne_nil _ hne] at hlast
    have hmem : last ∈ failures := List.mem_reverse.mp (List.mem_of_head? hlast)
    obtain ⟨c, hc, rfl⟩ := List.mem_map.mp hmem
    exact horder.ended_le (List.mem_filter.mp hc).1
  rcases hadmits with hshort | hwaits
  · rw [List.length_append] at hshort
    omega
  · calc a.started + cooldown
        ≤ a.ended + cooldown := by gcongr; exact horder.1 a (by simp)
      _ ≤ last + cooldown := by gcongr
      _ ≤ b.started := hwaits last hlast

end PaperTrade.Runtime.Breaker
