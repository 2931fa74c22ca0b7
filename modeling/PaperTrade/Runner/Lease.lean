import PaperTrade.Runtime.Expiring

/-!
# Leases

`LeaseManager` of the runner. An alpha has one key in Redis, whose value is the runner that holds the
lease; renewal and release are scripts that compare the value first.
-/

namespace PaperTrade.Runner

open PaperTrade.Runtime

/-- The keys of the leases. -/
abbrev LeaseKeys := Expiring String String

structure LeaseManager where
  runnerId : String
  ttlSec : ℕ := 20

namespace LeaseManager

/-- `key`. -/
def key (alphaId : String) : String := "runner:alpha:lease:" ++ alphaId

variable (l : LeaseManager) (keys : LeaseKeys) (alphaId : String)

/-- `acquire`. -/
def acquire : Bool × LeaseKeys := keys.setNx (key alphaId) l.runnerId l.ttlSec

/-- `renew`. -/
def renew : Bool × LeaseKeys := keys.expireIf (key alphaId) l.runnerId l.ttlSec

/-- `release`. -/
def release : Bool × LeaseKeys := keys.deleteIf (key alphaId) l.runnerId

/-- `is_valid`. -/
def isValid : Bool := keys.get (key alphaId) == some l.runnerId

/-- The runner that holds the lease of an alpha. -/
def holder (keys : LeaseKeys) (alphaId : String) : Option String := keys.get (key alphaId)

lemma key_injective : Function.Injective key := fun _ _ h => (String.append_right_inj _).mp h

variable {l keys alphaId} {a r : String}

lemma isValid_iff : l.isValid keys a = true ↔ holder keys a = some l.runnerId := by
  simp [isValid, holder]

/-- An `acquire` that succeeds takes a free lease. One that fails changes nothing. -/
lemma acquire_cases (l : LeaseManager) (keys : LeaseKeys) (a : String) :
    (holder keys a = none ∧ 0 < l.ttlSec ∧ (l.acquire keys a).1 = true ∧
      ∀ a', holder (l.acquire keys a).2 a' = if a' = a then some l.runnerId else holder keys a') ∨
    ((l.acquire keys a).1 = false ∧ (l.acquire keys a).2 = keys) := by
  refine (keys.setNx_cases (key a) l.runnerId l.ttlSec).imp_left ?_
  intro ⟨hfree, httl, htrue, hget⟩
  refine ⟨hfree, httl, htrue, fun a' => ?_⟩
  have hkey : key a' = key a ↔ a' = a := key_injective.eq_iff
  have h := hget (key a')
  simp only [hkey] at h
  exact h

/-- A renewal changes no holder when the time is above zero, and otherwise that of no runner but its
own. -/
lemma holder_renew (h : holder keys a = some l.runnerId → 0 < l.ttlSec) (a' : String) :
    holder (l.renew keys a).2 a' = holder keys a' := by
  by_cases hheld : holder keys a = some l.runnerId
  · exact Expiring.get_expireIf (h hheld)
  · have hsame : l.renew keys a = (false, keys) := Expiring.expireIf_of_ne hheld
    rw [hsame]

lemma holder_release (l : LeaseManager) (keys : LeaseKeys) (a a' : String) :
    holder (l.release keys a).2 a' =
      if a' = a ∧ holder keys a = some l.runnerId then none else holder keys a' := by
  have hkey : key a' = key a ↔ a' = a := key_injective.eq_iff
  have h : (keys.deleteIf (key a) l.runnerId).2.get (key a') =
      if key a' = key a ∧ keys.get (key a) = some l.runnerId then none else keys.get (key a') :=
    Expiring.get_deleteIf
  simp only [hkey] at h
  exact h

lemma holder_of_tick {d : ℕ} (h : holder (keys.tick d) a = some r) : holder keys a = some r :=
  Expiring.get_of_get_tick h

end LeaseManager

end PaperTrade.Runner
