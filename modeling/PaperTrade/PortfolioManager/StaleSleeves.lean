import PaperTrade.PortfolioManager.Engine

/-!
# A stale sleeve has no influence

Two portfolios with the same configuration whose sleeve `s` published other weights: in a cycle in
which `s` is stale or has no book, both publish the same. What `s` fed into the previous baseline
while it was fresh stays out, since a blend with a stale sleeve does not look at it.
-/

namespace PaperTrade.PortfolioManager

open PaperTrade.Runtime

/-- Whether a book is stale depends on its time only. -/
lemma TargetBook.isStale_congr {b b' : TargetBook} (h : b.generatedAt = b'.generatedAt) (limit : PyFloat)
    (clock : Clock) (sleeveId : String) :
    b.isStale limit clock sleeveId = b'.isStale limit clock sleeveId := by
  unfold isStale ageSeconds
  rw [h]

namespace PortfolioEngine

/-- What two cycles read of a sleeve: the same times, but other weights. -/
def SameTimes (book book' : Option TargetBook) : Prop :=
  book.map TargetBook.generatedAt = book'.map TargetBook.generatedAt

/-- Two cycles that read the same but for the weights of the book of `s`. -/
structure DifferIn (s : String) (i i' : CycleReads) : Prop where
  read : ∀ sleeveId, sleeveId ≠ s → i.read sleeveId = i'.read sleeveId
  sleeve : ∃ book book', i.read s = .ok book ∧ i'.read s = .ok book' ∧ SameTimes book book'
  regimeState : i.regimeState = i'.regimeState
  clock : i.clock = i'.clock

/-- The sleeve `s` is missing or stale. -/
def Dropped (e : PortfolioEngine) (s : String) (i : CycleReads) : Prop :=
  i.read s = .ok none ∨ ∃ book limit, i.read s = .ok (some book) ∧ e.maxStaleness.get? s = some limit ∧
    book.isStale limit i.clock s = .ok true

variable {e : PortfolioEngine} {s : String} {i i' : CycleReads}

/-! ## The books of the two cycles -/

/-- Both read the same of every sleeve but `s`. -/
def SameBut (s : String) (books books' : Dict String (Option TargetBook)) : Prop :=
  ∀ sleeveId, sleeveId ≠ s → books.get? sleeveId = books'.get? sleeveId

/-- Both cycles fail on the same read, or none does. -/
lemma readBooks_differ (h : DifferIn s i i') (sleeves : List SleeveConfig) :
    (∃ err, readBooks i.read sleeves = .error err ∧ readBooks i'.read sleeves = .error err) ∨
      ∃ books books', readBooks i.read sleeves = .ok books ∧ readBooks i'.read sleeves = .ok books' ∧
        SameBut s books books' := by
  have hfold : ∀ acc acc' : Dict String (Option TargetBook), SameBut s acc acc' →
      (∃ err, sleeves.foldlM (readBook i.read) acc = .error err ∧
        sleeves.foldlM (readBook i'.read) acc' = .error err) ∨
      ∃ books books', sleeves.foldlM (readBook i.read) acc = .ok books ∧
        sleeves.foldlM (readBook i'.read) acc' = .ok books' ∧ SameBut s books books' := by
    induction sleeves with
    | nil => exact fun acc acc' hacc => .inr ⟨acc, acc', rfl, rfl, hacc⟩
    | cons sleeve sleeves ih =>
      intro acc acc' hacc
      have hset : ∀ book book' : Option TargetBook, (sleeve.sleeveId ≠ s → book = book') →
          SameBut s (acc.set sleeve.sleeveId book) (acc'.set sleeve.sleeveId book') := by
        intro book book' hbook sleeveId hne
        rw [Dict.get?_set, Dict.get?_set]
        by_cases hsame : sleeveId = sleeve.sleeveId
        · rw [if_pos hsame, if_pos hsame, hbook (hsame ▸ hne)]
        · rw [if_neg hsame, if_neg hsame, hacc sleeveId hne]
      rw [List.foldlM_cons, List.foldlM_cons]
      by_cases hs : sleeve.sleeveId = s
      · obtain ⟨book, book', hread, hread', -⟩ := h.sleeve
        rw [← hs] at hread hread'
        rw [show readBook i.read acc sleeve = .ok (acc.set sleeve.sleeveId book) by
            unfold readBook; rw [hread]; rfl,
          show readBook i'.read acc' sleeve = .ok (acc'.set sleeve.sleeveId book') by
            unfold readBook; rw [hread']; rfl]
        exact ih _ _ (hset book book' fun hne => absurd hs hne)
      · have hread := h.read sleeve.sleeveId hs
        unfold readBook
        rw [← hread]
        cases hbook : i.read sleeve.sleeveId with
        | error err => exact .inl ⟨err, rfl, rfl⟩
        | ok book => exact ih _ _ (hset book book fun _ => rfl)
  exact hfold .empty .empty fun _ _ => rfl

/-! ## The blend of the two cycles -/

/-- A sleeve that is dropped is not taken in. -/
lemma currentBook_of_dropped {books : Dict String (Option TargetBook)}
    (hs : ∃ sleeve ∈ e.sleeves, sleeve.sleeveId = s) (hbooks : readBooks i.read e.sleeves = .ok books)
    (h : e.Dropped s i) : currentBook books e.maxStaleness i.clock s = .ok none := by
  obtain ⟨book, hread, hget⟩ := readBooks_get? hbooks hs
  unfold currentBook
  rw [hget]
  rcases h with hnone | ⟨book', limit, hsome, hlimit, hstale⟩
  · rw [hread] at hnone
    cases hnone
    rfl
  · rw [hread] at hsome
    cases hsome
    simp only [Option.join_some, hlimit, hstale]
    rfl

/-- The loop keeps what is stale, and puts a sleeve that is dropped there. -/
lemma stale_of_dropped {books : Dict String (Option TargetBook)} {maxStalenessSec : Dict String PyFloat}
    {clock : Clock} (h : currentBook books maxStalenessSec clock s = .ok none)
    (rows : List (String × ℚ)) (acc : Blend) {blend : Blend}
    (hblend : rows.foldlM (blendSleeve books maxStalenessSec clock) acc = .ok blend)
    (hs : s ∈ acc.stale ∨ ∃ row ∈ rows, row.1 = s) : s ∈ blend.stale := by
  induction rows generalizing acc with
  | nil =>
    cases hblend
    exact hs.resolve_right (by simp)
  | cons row rows ih =>
    rw [List.foldlM_cons] at hblend
    obtain ⟨acc', hadd, hrest⟩ := ok_of_bind hblend
    obtain ⟨book?, hbook, hadd⟩ := ok_of_bind hadd
    cases hadd
    refine ih _ hrest ?_
    by_cases hrow : row.1 = s
    · left
      rw [hrow, h] at hbook
      cases hbook
      rw [hrow]
      exact List.mem_append_right _ (List.mem_singleton_self s)
    · have hkeep : s ∈ acc.stale → s ∈ (acc.add row.1 row.2 book?).stale := by
        intro hmem
        cases book? with
        | none => exact List.mem_append_left _ hmem
        | some book => exact hmem
      refine hs.imp hkeep fun hs => ?_
      obtain ⟨row', hrow', hkey⟩ := hs
      rcases List.mem_cons.mp hrow' with rfl | hrow'
      · exact absurd hkey hrow
      · exact ⟨row', hrow', hkey⟩

lemma blendBooks_stale {books : Dict String (Option TargetBook)} {blend : Blend}
    (hs : ∃ sleeve ∈ e.sleeves, sleeve.sleeveId = s)
    (h : currentBook books e.maxStaleness i.clock s = .ok none)
    (hblend : blendBooks books e.allocations e.maxStaleness i.clock = .ok blend) : s ∈ blend.stale := by
  obtain ⟨fixed, hfixed, hfold⟩ := ok_of_bind hblend
  refine stale_of_dropped h fixed.rows _ hfold (.inr ?_)
  obtain ⟨sleeve, hsleeve, hid⟩ := hs
  have hcontains : e.allocations.contains s = true :=
    (Dict.contains_collect _ _ _).mpr ⟨sleeve, hsleeve, sleeve.weight, by rw [hid]⟩
  obtain ⟨row, hrow, hkey⟩ := (Table.contains_iff _ _).mp hcontains
  rw [fixedAllocator_rows hfixed]
  exact ⟨(row.1, nominal row.2), List.mem_map_of_mem hrow, hkey⟩

/-- Both cycles take in the same of every sleeve. -/
lemma blendBooks_eq {books books' : Dict String (Option TargetBook)} (hdiffer : SameBut s books books')
    {maxStalenessSec allocations : Dict String PyFloat} {clock : Clock}
    (h : currentBook books maxStalenessSec clock s = .ok none)
    (h' : currentBook books' maxStalenessSec clock s = .ok none) :
    blendBooks books allocations maxStalenessSec clock =
      blendBooks books' allocations maxStalenessSec clock := by
  have hsame : ∀ sleeveId, currentBook books maxStalenessSec clock sleeveId =
      currentBook books' maxStalenessSec clock sleeveId := by
    intro sleeveId
    by_cases hs : sleeveId = s
    · rw [hs, h, h']
    · unfold currentBook
      rw [hdiffer sleeveId hs]
  have hstep : blendSleeve books maxStalenessSec clock = blendSleeve books' maxStalenessSec clock := by
    funext blend row
    unfold blendSleeve
    rw [hsame]
  unfold blendBooks
  rw [hstep]

/-- With a stale sleeve the previous baseline does not matter. -/
lemma smoothed_of_stale {args : OverlayArgs} {stale : List String} (h : s ∈ stale)
    (previous : Option (Dict String ℚ)) (baseline : Dict String ℚ) :
    smoothed args previous stale baseline = .ok baseline := by
  unfold smoothed
  cases args.emaSpan with
  | none => rfl
  | some span => exact if_neg fun hempty => List.ne_nil_of_mem h hempty.2

lemma buildBlendOutputs_eq {books books' : Dict String (Option TargetBook)}
    (hs : ∃ sleeve ∈ e.sleeves, sleeve.sleeveId = s) (hdiffer : SameBut s books books')
    (h : currentBook books e.maxStaleness i.clock s = .ok none)
    (h' : currentBook books' e.maxStaleness i.clock s = .ok none) (args : OverlayArgs)
    (regimeState : Option (Dict String StateValue)) (previous previous' : Option (Dict String ℚ)) :
    buildBlendOutputs books e.allocations e.maxStaleness args regimeState previous i.clock =
      buildBlendOutputs books' e.allocations e.maxStaleness args regimeState previous' i.clock := by
  unfold buildBlendOutputs
  rw [← blendBooks_eq hdiffer h h']
  cases hblend : blendBooks books e.allocations e.maxStaleness i.clock with
  | error err => rfl
  | ok blend =>
    have hstale : s ∈ blend.stale := blendBooks_stale hs h hblend
    have hbind : ∀ f : Blend → Except ManagerError BlendResult, (Except.ok blend >>= f) = f blend :=
      fun _ => rfl
    simp only [hbind, smoothed_of_stale hstale]

lemma cycle_eq_of_dropped (hs : ∃ sleeve ∈ e.sleeves, sleeve.sleeveId = s) (hdiffer : DifferIn s i i')
    (h : e.Dropped s i) (h' : e.Dropped s i') (p p' : Dict String ℚ) :
    { e with previous := p }.cycle i = { e with previous := p' }.cycle i' := by
  unfold cycle
  dsimp only
  rcases readBooks_differ hdiffer e.sleeves with ⟨err, herr, herr'⟩ | ⟨books, books', hok, hok', hbooks⟩
  · rw [herr, herr']
    rfl
  have hnone := currentBook_of_dropped hs hok h
  have hnone' := currentBook_of_dropped hs hok' h'
  rw [← hdiffer.clock] at hnone'
  rw [hok, hok', ← hdiffer.regimeState, ← hdiffer.clock]
  cases e.overlay.span with
  | error err => rfl
  | ok span => exact buildBlendOutputs_eq hs hbooks hnone hnone' _ _ _ _

/-- Two runs of one configuration: in a cycle in which they read the same but for the weights of the
sleeve `s`, and `s` is missing or stale in both, they publish the same, whatever `s` or another sleeve
had published in the cycles before. -/
theorem stale_sleeve_no_influence (hs : ∃ sleeve ∈ e.sleeves, sleeve.sleeveId = s)
    (before before' : List CycleReads) (hdiffer : DifferIn s i i') (h : e.Dropped s i)
    (h' : e.Dropped s i') : (e.run before).cycle i = (e.run before').cycle i' := by
  have hrun : ∀ is, ∃ p, e.run is = { e with previous := p } := by
    intro is
    obtain ⟨p, -, hp⟩ := run_previous (e := e) (P := fun _ => True) (Q := fun _ => True)
      (fun _ _ _ _ _ _ => trivial) trivial is fun _ _ => trivial
    exact ⟨p, hp⟩
  obtain ⟨p, hp⟩ := hrun before
  obtain ⟨p', hp'⟩ := hrun before'
  rw [hp, hp']
  exact cycle_eq_of_dropped hs hdiffer h h' p p'

/-- A book with all of its weight on a coin. -/
def coinBook (symbol : String) : TargetBook :=
  ⟨"2024-01-01T00:00:00+00:00", ⟨[(symbol, 1)], List.nodup_singleton _⟩⟩

/-- The sole sleeve with such a book, `age` seconds old. -/
def coinReads (symbol : String) (age : ℚ) : CycleReads where
  read sleeveId := if sleeveId = "a" then .ok (some (coinBook symbol)) else .ok none
  regimeState := some .empty
  clock := { now := fun _ => .fin (1704067200 + age), zone := fun _ => 0 }

lemma dropped_coinReads (overlay : Overlay) (symbol : String) :
    (soleEngine overlay).Dropped "a" (coinReads symbol 300) := by
  refine .inr ⟨coinBook symbol, 60, rfl, rfl, ?_⟩
  have htime : (coinBook symbol).generatedAt = (coinBook "").generatedAt := rfl
  have hsame : (coinBook symbol).isStale 60 (coinReads symbol 300).clock "a" =
      (coinBook "").isStale 60 (coinReads "" 300).clock "a" :=
    TargetBook.isStale_congr htime 60 (coinReads symbol 300).clock "a"
  have hstale : ((coinBook "").isStale 60 (coinReads "" 300).clock "a").toOption = some true := by
    decide +kernel
  rw [hsame]
  cases h : (coinBook "").isStale 60 (coinReads "" 300).clock "a" with
  | error err =>
    rw [h] at hstale
    cases hstale
  | ok stale =>
    rw [h] at hstale
    cases hstale
    rfl

theorem stale_sleeve_no_influence_sole :
    ((soleEngine { emaSpan := some 5 }).run [coinReads "BTCUSDT" 0]).cycle (coinReads "BTCUSDT" 300) =
      ((soleEngine { emaSpan := some 5 }).run [coinReads "ETHUSDT" 0]).cycle
        (coinReads "ETHUSDT" 300) := by
  have hdiffer : DifferIn "a" (coinReads "BTCUSDT" 300) (coinReads "ETHUSDT" 300) := by
    refine ⟨fun sleeveId hne => ?_, ⟨_, _, rfl, rfl, rfl⟩, rfl, rfl⟩
    exact (if_neg hne).trans (if_neg hne).symm
  exact stale_sleeve_no_influence (s := "a") ⟨_, List.mem_singleton_self _, rfl⟩ _ _ hdiffer
    (dropped_coinReads _ _) (dropped_coinReads _ _)

end PortfolioEngine

end PaperTrade.PortfolioManager
