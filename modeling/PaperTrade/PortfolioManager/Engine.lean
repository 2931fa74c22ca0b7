import PaperTrade.PortfolioManager.Blend

/-!
# `PortfolioEngine`

A cycle reads the books of its sleeves and blends them; its baseline is the previous one of the next
cycle. A cycle that raises leaves the previous baseline as it was.
-/

namespace PaperTrade.PortfolioManager

open PaperTrade.Runtime

/-! ## The configuration -/

/-- An item of `config["sleeves"]`. -/
structure SleeveItem where
  id : String
  weight : PyFloat
  maxStalenessSec : PyFloat
  onStale : String := "drop_to_flat"

/-- `SleeveConfig`: no other `on_stale` is implemented. -/
structure SleeveConfig where
  sleeveId : String
  weight : PyFloat
  maxStalenessSec : PyFloat
  onStale : String
  supported : onStale = "drop_to_flat"

/-- `SleeveConfig(…)`. -/
def SleeveItem.config (item : SleeveItem) : Except ManagerError SleeveConfig :=
  if h : item.onStale = "drop_to_flat" then
    .ok ⟨item.id, item.weight, item.maxStalenessSec, item.onStale, h⟩
  else .error (.onStale item.id item.onStale)

/-- `config["overlay"]`. -/
structure Overlay where
  perCoinCap : PyFloat := 1
  grossTarget : PyFloat := 1
  downtrendMultiplier : PyFloat := 1
  emaSpan : Option PyFloat := none

/-- `int(overlay["ema_span"]) if overlay.get("ema_span") else None`. -/
def Overlay.span (overlay : Overlay) : Except ManagerError (Option ℤ) :=
  match overlay.emaSpan with
  | none => .ok none
  | some x =>
    if x.truthy then
      match x.toInt? with
      | some n => .ok (some n)
      | none => .error .emaSpanInt
    else .ok none

/-! ## The engine -/

/-- `PortfolioEngine`. -/
structure PortfolioEngine where
  sleeves : List SleeveConfig
  overlay : Overlay
  previous : Dict String ℚ

namespace PortfolioEngine

/-- `PortfolioEngine(config, redis_client)`. -/
def init (items : List SleeveItem) (overlay : Overlay) : Except ManagerError PortfolioEngine := do
  return ⟨← items.mapM SleeveItem.config, overlay, .empty⟩

/-- What a cycle reads. -/
structure CycleReads where
  read : String → Except ManagerError (Option TargetBook)
  regimeState : Option (Dict String StateValue)
  clock : Clock

/-- One item of `books`. -/
def readBook (read : String → Except ManagerError (Option TargetBook))
    (books : Dict String (Option TargetBook)) (sleeve : SleeveConfig) :
    Except ManagerError (Dict String (Option TargetBook)) := do
  return books.set sleeve.sleeveId (← read sleeve.sleeveId)

/-- `{sleeve.sleeve_id: self.store.read(sleeve.sleeve_id) for sleeve in self.sleeves}`. -/
def readBooks (read : String → Except ManagerError (Option TargetBook)) (sleeves : List SleeveConfig) :
    Except ManagerError (Dict String (Option TargetBook)) :=
  sleeves.foldlM (readBook read) .empty

/-- `{sleeve.sleeve_id: sleeve.weight for sleeve in self.sleeves}`. -/
def allocations (e : PortfolioEngine) : Dict String PyFloat :=
  .collect (fun sleeve => some (sleeve.sleeveId, sleeve.weight)) e.sleeves

/-- `{sleeve.sleeve_id: sleeve.max_staleness_sec for sleeve in self.sleeves}`. -/
def maxStaleness (e : PortfolioEngine) : Dict String PyFloat :=
  .collect (fun sleeve => some (sleeve.sleeveId, sleeve.maxStalenessSec)) e.sleeves

/-- `cycle`, up to its assignment of `self.previous`. -/
def cycle (e : PortfolioEngine) (i : CycleReads) : Except ManagerError BlendResult := do
  let books ← readBooks i.read e.sleeves
  let span ← e.overlay.span
  buildBlendOutputs books e.allocations e.maxStaleness
    ⟨e.overlay.perCoinCap, e.overlay.grossTarget, e.overlay.downtrendMultiplier, span⟩
    i.regimeState (some e.previous) i.clock

/-- The engine after a cycle. -/
def next (e : PortfolioEngine) (i : CycleReads) : PortfolioEngine :=
  match e.cycle i with
  | .ok result => { e with previous := result.baseline }
  | .error _ => e

/-- The engine after cycles, one after the other. -/
def run (e : PortfolioEngine) (is : List CycleReads) : PortfolioEngine := is.foldl next e

variable {e : PortfolioEngine} {i : CycleReads} {r : BlendResult}

/-! ## What a cycle reads -/

lemma readBooks_get? {read : String → Except ManagerError (Option TargetBook)}
    {sleeves : List SleeveConfig} {books : Dict String (Option TargetBook)}
    (h : readBooks read sleeves = .ok books) {sleeveId : String}
    (hid : ∃ sleeve ∈ sleeves, sleeve.sleeveId = sleeveId) :
    ∃ book, read sleeveId = .ok book ∧ books.get? sleeveId = some book := by
  have hfold : ∀ (sleeves : List SleeveConfig) (acc : Dict String (Option TargetBook)),
      sleeves.foldlM (readBook read) acc = .ok books →
      (∃ sleeve ∈ sleeves, sleeve.sleeveId = sleeveId) ∨
        (∃ book, read sleeveId = .ok book ∧ acc.get? sleeveId = some book) →
      ∃ book, read sleeveId = .ok book ∧ books.get? sleeveId = some book := by
    intro sleeves
    induction sleeves with
    | nil =>
      intro acc hacc hmem
      cases hacc
      exact hmem.resolve_left (by simp)
    | cons sleeve sleeves ih =>
      intro acc hacc hmem
      rw [List.foldlM_cons] at hacc
      obtain ⟨acc', hset, hrest⟩ := ok_of_bind hacc
      obtain ⟨book, hread, hset⟩ := ok_of_bind hset
      cases hset
      by_cases hsame : sleeve.sleeveId = sleeveId
      · subst hsame
        refine ih _ hrest (.inr ⟨book, hread, ?_⟩)
        rw [Dict.get?_set, if_pos rfl]
      · refine ih _ hrest ?_
        rw [Dict.get?_set, if_neg fun h => hsame h.symm]
        refine hmem.imp_left fun hmem => ?_
        obtain ⟨other, hother, hid⟩ := hmem
        rcases List.mem_cons.mp hother with rfl | hother
        · exact absurd hid hsame
        · exact ⟨other, hother, hid⟩
  exact hfold sleeves .empty h (.inl hid)

/-! ## Runs -/

/-- What a cycle changes of the engine: the previous baseline, if anything. -/
lemma next_cases (e : PortfolioEngine) (i : CycleReads) :
    e.next i = e ∨ ∃ r, e.cycle i = .ok r ∧ e.next i = { e with previous := r.baseline } := by
  unfold next
  cases h : e.cycle i with
  | error err => exact .inl rfl
  | ok r => exact .inr ⟨r, rfl, rfl⟩

/-- A property of the previous baseline that every cycle keeps holds after every run. -/
lemma run_previous {P : Dict String ℚ → Prop} {Q : CycleReads → Prop}
    (step : ∀ (p : Dict String ℚ) i r, P p → Q i → { e with previous := p }.cycle i = .ok r →
      P r.baseline)
    (h0 : P e.previous) (is : List CycleReads) (hQ : ∀ i ∈ is, Q i) :
    ∃ p, P p ∧ e.run is = { e with previous := p } := by
  induction is using List.reverseRecOn with
  | nil => exact ⟨e.previous, h0, rfl⟩
  | append_singleton is i ih =>
    obtain ⟨p, hp, hrun⟩ := ih fun j hj => hQ j (List.mem_append_left _ hj)
    have hlast : e.run (is ++ [i]) = (e.run is).next i := by
      unfold run
      rw [List.foldl_append, List.foldl_cons, List.foldl_nil]
    rw [hlast, hrun]
    rcases next_cases { e with previous := p } i with hsame | ⟨r, hr, hnext⟩
    · exact ⟨p, hp, hsame⟩
    · exact ⟨r.baseline, step p i r hp (hQ i (by simp)) hr, hnext⟩

lemma init_ok {items : List SleeveItem} {overlay : Overlay} (h : init items overlay = .ok e) :
    e.overlay = overlay ∧ e.previous = .empty := by
  obtain ⟨sleeves, -, h⟩ := ok_of_bind h
  cases h
  exact ⟨rfl, rfl⟩

/-! ## A single sleeve -/

/-- A sleeve with the whole allocation. -/
def soleItems : List SleeveItem := [{ id := "a", weight := 1, maxStalenessSec := 60 }]

/-- The portfolio of one sleeve. -/
def soleEngine (overlay : Overlay) : PortfolioEngine where
  sleeves := [⟨"a", 1, 60, "drop_to_flat", rfl⟩]
  overlay := overlay
  previous := .empty

lemma init_soleItems (overlay : Overlay) : init soleItems overlay = .ok (soleEngine overlay) := rfl

/-- Its book holds one coin. -/
def soleReads : CycleReads where
  read _ := .ok (some ⟨"2024-01-01T00:00:00+00:00", ⟨[("BTCUSDT", 1)], List.nodup_singleton _⟩⟩)
  regimeState := some .empty
  clock := { now := fun _ => 1704067200, zone := fun _ => 0 }

end PortfolioEngine

end PaperTrade.PortfolioManager
