import PaperTrade.Runtime.Float
import PaperTrade.Runtime.Weights

/-!
# Allocation and overlays

`fixed_allocator` and the overlays of the portfolio manager. The weights of a book are finite from
its construction on, so they are rationals here; the numbers of a configuration are floats, which
every function checks as its source does.
-/

namespace PaperTrade.PortfolioManager

open PaperTrade.Runtime

/-- What the portfolio manager raises. -/
inductive ManagerError
  /-- `{sleeve_id}: on_stale={on_stale!r} is not implemented (supported: ['drop_to_flat'])` -/
  | onStale (sleeveId onStale : String)
  /-- `store.read`: Redis, or what is stored is no target book -/
  | read
  /-- `Invalid isoformat string` of a book's `generated_at` -/
  | generatedAt
  /-- `int(overlay["ema_span"])` of NaN or an infinity -/
  | emaSpanInt
  /-- `max_staleness_sec[sleeve_id]` -/
  | key (sleeveId : String)
  /-- `allocation contains unknown sleeves: …` -/
  | unknownSleeves (sleeves : List String)
  /-- `allocation weights must be finite and non-negative` -/
  | allocation
  /-- `fixed allocation must sum to 1.0, got …` -/
  | allocationSum (total : ℚ)
  /-- `cap must be finite and non-negative` -/
  | cap
  /-- `target gross must be finite and non-negative` -/
  | grossTarget
  /-- `EMA span must be positive` -/
  | emaSpan
  /-- `downtrend_multiplier must be between 0 and 1` -/
  | downtrendMultiplier
deriving DecidableEq

/-! ## `fixed_allocator` -/

/-- A finite, non-negative float. -/
def nonNegative : PyFloat → Option ℚ
  | .fin q => if 0 ≤ q then some q else none
  | _ => none

/-- `result[sleeve]`, checked. -/
def fixedAllocation (configured : Dict String PyFloat) (sleeve : String) : Except ManagerError ℚ :=
  match nonNegative ((configured.get? sleeve).getD 0) with
  | some q => .ok q
  | none => .error .allocation

/-- `fixed_allocator`. -/
def fixedAllocator (sleeves : List String) (configured : Dict String PyFloat) :
    Except ManagerError (Dict String ℚ) := do
  let unknown := configured.keys.filter fun sleeve => sleeve ∉ sleeves
  if unknown ≠ [] then throw (.unknownSleeves unknown)
  let result ← sleeves.foldlM (fun (result : Dict String ℚ) sleeve =>
    return result.set sleeve (← fixedAllocation configured sleeve)) .empty
  let total := (result.rows.map Prod.snd).sum
  if 1 / 10 ^ 9 < |total - 1| then throw (.allocationSum total)
  pure result

lemma ok_of_bind {α β : Type} {x : Except ManagerError α} {f : α → Except ManagerError β} {b : β}
    (h : x >>= f = .ok b) : ∃ a, x = .ok a ∧ f a = .ok b := by
  cases x with
  | error e => cases h
  | ok a => exact ⟨a, rfl, h⟩

/-- The nominal allocation of a sleeve. -/
def nominal (x : PyFloat) : ℚ := (nonNegative x).getD 0

lemma foldlM_set_rows {β : Type} {f : String → Except ManagerError β} {v : String → β}
    (hv : ∀ k b, f k = .ok b → v k = b) (ks : List String) (acc : Dict String β) {out : Dict String β}
    (h : ks.foldlM (fun (acc : Dict String β) k => return acc.set k (← f k)) acc = .ok out)
    (hks : ks.Nodup) (hacc : ∀ k ∈ ks, acc.contains k = false) :
    out.rows = acc.rows ++ ks.map fun k => (k, v k) := by
  induction ks generalizing acc with
  | nil =>
    cases h
    rw [List.map_nil, List.append_nil]
  | cons k ks ih =>
    rw [List.foldlM_cons] at h
    obtain ⟨acc', hset, hrest⟩ := ok_of_bind h
    obtain ⟨b, hb, hset⟩ := ok_of_bind hset
    cases hset
    obtain ⟨hk, hks⟩ := List.nodup_cons.mp hks
    have hnew : (acc.set k b).rows = acc.rows ++ [(k, b)] :=
      Dict.rows_set_of_not_contains (hacc k List.mem_cons_self) b
    have hdisjoint : ∀ k' ∈ ks, (acc.set k b).contains k' = false := by
      intro k' hk'
      rw [← Bool.not_eq_true, Dict.contains_set, not_or, Bool.not_eq_true]
      exact ⟨fun heq => hk (heq ▸ hk'), hacc k' (List.mem_cons_of_mem k hk')⟩
    rw [ih _ hrest hks hdisjoint, hnew, List.map_cons, hv k b hb, List.append_assoc]
    rfl

lemma fixedAllocator_rows {configured : Dict String PyFloat} {fixed : Dict String ℚ}
    (h : fixedAllocator configured.keys configured = .ok fixed) :
    fixed.rows = configured.rows.map fun row => (row.1, nominal row.2) := by
  have hvalue : ∀ k q, fixedAllocation configured k = .ok q →
      nominal ((configured.get? k).getD 0) = q := by
    intro k q hq
    unfold fixedAllocation at hq
    unfold nominal
    split at hq
    · rename_i hsome
      cases hq
      rw [hsome]
      rfl
    · cases hq
  have hfold : configured.keys.foldlM (fun (acc : Dict String ℚ) k =>
      return acc.set k (← fixedAllocation configured k)) .empty = .ok fixed := by
    unfold fixedAllocator at h
    dsimp only at h
    split at h
    · cases h
    · obtain ⟨result, hresult, h⟩ := ok_of_bind h
      split at h
      · cases h
      · cases h
        exact hresult
  have hrows := foldlM_set_rows hvalue configured.keys .empty hfold (Dict.nodup_keys configured)
    fun _ _ => rfl
  rw [hrows, Dict.keys, List.map_map]
  refine List.map_congr_left fun row hrow => ?_
  have hget := (configured.get?_some_iff row.1 row.2).mpr hrow
  show (row.1, nominal ((configured.get? row.1).getD 0)) = (row.1, nominal row.2)
  rw [hget]
  rfl

/-! ## The overlays -/

/-- `per_coin_cap`. -/
def perCoinCap (weights : Dict String ℚ) : PyFloat → Except ManagerError (Dict String ℚ)
  | .fin cap =>
    if cap < 0 then .error .cap
    else .ok (weights.mapNonzero fun w => max (-cap) (min cap w))
  | _ => .error .cap

/-- `gross_target`. -/
def grossTarget (weights : Dict String ℚ) : PyFloat → Except ManagerError (Dict String ℚ)
  | .fin target =>
    if target < 0 then .error .grossTarget
    else
      let gross := (weights.rows.map fun e => |e.2|).sum
      if gross = 0 then .ok .empty
      else .ok (weights.mapNonzero fun w => w * (target / gross))
  | _ => .error .grossTarget

/-- `alpha * weights.get(symbol, 0.0) + (1.0 - alpha) * previous.get(symbol, 0.0)`. -/
def emaWeight (alpha : ℚ) (weights previous : Dict String ℚ) (symbol : String) : ℚ :=
  alpha * (weights.get? symbol).getD 0 + (1 - alpha) * (previous.get? symbol).getD 0

/-- `ema_smooth`. The order in which Python goes through a set of symbols is left open there; here
the symbols of the new book come first. -/
def emaSmooth (weights : Dict String ℚ) (previous : Option (Dict String ℚ)) (span : ℤ) :
    Except ManagerError (Dict String ℚ) :=
  if span < 1 then .error .emaSpan
  else
    let previous := previous.getD .empty
    if previous.rows = [] then .ok (weights.mapNonzero id)
    else
      let alpha : ℚ := 2 / (span + 1)
      .ok (.collect (fun symbol =>
        if emaWeight alpha weights previous symbol ≠ 0 then
          some (symbol, emaWeight alpha weights previous symbol)
        else none) (weights.keys ++ previous.keys))

/-- A value of a regime state. -/
inductive StateValue
  | float (x : PyFloat)
  | bool (b : Bool)
deriving DecidableEq

/-- `bool(value)`. -/
def StateValue.truthy : StateValue → Bool
  | .float x => x.truthy
  | .bool b => b

/-- `regime_throttle`. -/
def regimeThrottle (weights : Dict String ℚ) (state : Dict String StateValue) :
    PyFloat → Except ManagerError (Dict String ℚ)
  | .fin multiplier =>
    if 0 ≤ multiplier ∧ multiplier ≤ 1 then
      let downtrend := ((state.get? "downtrend").getD (.bool false)).truthy
      let factor := if downtrend then multiplier else 1
      .ok (weights.mapNonzero fun w => w * factor)
    else .error .downtrendMultiplier
  | _ => .error .downtrendMultiplier

/-! ## What the overlays do to a book -/

section Weights

open Weights

variable {weights out : Dict String ℚ}

lemma perCoinCap_ok {cap : PyFloat} (h : perCoinCap weights cap = .ok out) :
    ∃ (c : ℚ) (hc : 0 ≤ c), cap = .fin c ∧ out.weights = clip c hc weights.weights := by
  cases cap with
  | nan => cases h
  | inf s => cases h
  | fin c =>
    by_cases hc : c < 0
    · rw [perCoinCap, if_pos hc] at h
      cases h
    · rw [perCoinCap, if_neg hc] at h
      cases h
      exact ⟨c, not_lt.mp hc, rfl, Dict.weights_mapNonzero weights _ _⟩

lemma gross_weights (d : Dict String ℚ) : (d.rows.map fun e => |e.2|).sum = gross d.weights :=
  Dict.sum_items d (fun _ x => |x|) fun _ => abs_zero

lemma grossTarget_ok {target : PyFloat} (h : grossTarget weights target = .ok out) :
    ∃ G : ℚ, target = .fin G ∧ 0 ≤ G ∧ out.weights = scaledTo G weights.weights := by
  cases target with
  | nan => cases h
  | inf s => cases h
  | fin G =>
    by_cases hG : G < 0
    · rw [grossTarget, if_pos hG] at h
      cases h
    · rw [grossTarget, if_neg hG] at h
      dsimp only at h
      refine ⟨G, rfl, not_lt.mp hG, ?_⟩
      rw [gross_weights] at h
      by_cases hzero : gross weights.weights = 0
      · rw [if_pos hzero] at h
        cases h
        have hw := (gross_eq_zero_iff _).mp hzero
        rw [scaledTo, hw, smul_zero, Dict.weights_empty]
      · rw [if_neg hzero] at h
        cases h
        exact Dict.weights_mapNonzero_mul weights _

/-- The smoothed book is the new one, or a mixture with the previous one. -/
lemma emaSmooth_ok {previous : Option (Dict String ℚ)} {span : ℤ}
    (h : emaSmooth weights previous span = .ok out) :
    out.weights = weights.weights ∨
      ∃ p α, previous = some p ∧ p.rows ≠ [] ∧ 0 ≤ α ∧ α ≤ 1 ∧
        out.weights = mix α weights.weights p.weights := by
  by_cases hspan : span < 1
  · rw [emaSmooth, if_pos hspan] at h
    cases h
  rw [emaSmooth, if_neg hspan] at h
  dsimp only at h
  by_cases hempty : (previous.getD .empty).rows = []
  · left
    rw [if_pos hempty] at h
    cases h
    rw [Dict.weights_mapNonzero weights id rfl]
    exact Finsupp.mapRange_id _
  · right
    rw [if_neg hempty] at h
    cases h
    cases previous with
    | none => exact absurd rfl hempty
    | some p =>
      have hspan' : (1 : ℚ) ≤ span := by exact_mod_cast not_lt.mp hspan
      have hα0 : (0 : ℚ) ≤ 2 / (span + 1) := by positivity
      have hα1 : (2 : ℚ) / (span + 1) ≤ 1 := (div_le_one (by linarith)).mpr (by linarith)
      refine ⟨p, 2 / (span + 1), rfl, hempty, hα0, hα1, ?_⟩
      refine Dict.weights_collect (mix _ weights.weights p.weights) _ fun symbol hne => ?_
      by_contra hmem
      rw [List.mem_append, not_or] at hmem
      have hw : weights.weights symbol = 0 := by
        by_contra hw
        exact hmem.1 (List.mem_map_of_mem (f := Prod.fst) (Dict.mem_of_weights_ne_zero hw))
      have hp : p.weights symbol = 0 := by
        by_contra hp
        exact hmem.2 (List.mem_map_of_mem (f := Prod.fst) (Dict.mem_of_weights_ne_zero hp))
      apply hne
      show 2 / (span + 1) * weights.weights symbol + (1 - 2 / (span + 1)) * p.weights symbol = 0
      rw [hw, hp]
      ring

lemma regimeThrottle_ok {state : Dict String StateValue} {multiplier : PyFloat}
    (h : regimeThrottle weights state multiplier = .ok out) :
    ∃ factor : ℚ, 0 ≤ factor ∧ factor ≤ 1 ∧ out.weights = factor • weights.weights := by
  cases multiplier with
  | nan => cases h
  | inf s => cases h
  | fin m =>
    by_cases hm : 0 ≤ m ∧ m ≤ 1
    · rw [regimeThrottle, if_pos hm] at h
      dsimp only at h
      cases h
      generalize ((state.get? "downtrend").getD (.bool false)).truthy = downtrend
      refine ⟨if downtrend then m else 1, ?_, ?_, ?_⟩
      · cases downtrend
        · exact zero_le_one
        · exact hm.1
      · cases downtrend
        · exact le_rfl
        · exact hm.2
      · exact Dict.weights_mapNonzero_mul weights _
    · rw [regimeThrottle, if_neg hm] at h
      cases h

end Weights

end PaperTrade.PortfolioManager
