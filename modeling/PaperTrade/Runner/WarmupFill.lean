import PaperTrade.Runner.Warmup

/-!
# What a warm-up fills

The cache of every reachable manager holds the map of each key (`Reachable.tame`). A request whose
snapshot or backend returns enough candles leaves the requirement met (`request_warmup_satisfies`) when
the symbol is not excluded, when the candles that are needed are not older than the baseline, and when
the older candles that stay in the cache join up with them.
-/

namespace PaperTrade.Runner

open PaperTrade.Runtime

/-! ## Contiguous candles -/

/-- Times a step apart: between two of them the next one is within a step. -/
lemma next_of_isChain {step : ℤ} (hstep : 0 < step) {times : List ℤ}
    (h : times.IsChain fun a b => b = a + step) {x : ℤ} (hlow : ∃ a ∈ times, a ≤ x)
    (hhigh : ∃ z ∈ times, x < z) : ∃ y ∈ times, x < y ∧ y ≤ x + step := by
  induction times with
  | nil =>
    obtain ⟨a, ha, -⟩ := hlow
    exact absurd ha List.not_mem_nil
  | cons a times ih =>
    obtain ⟨low, hlow, hlowx⟩ := hlow
    obtain ⟨high, hhigh, hxhigh⟩ := hhigh
    cases times with
    | nil =>
      rw [List.mem_singleton] at hlow hhigh
      omega
    | cons b times =>
      obtain ⟨hab, htail⟩ := List.isChain_cons_cons.mp h
      by_cases hbx : b ≤ x
      · have hhigh' : high ∈ b :: times := by
          rcases List.mem_cons.mp hhigh with rfl | hmem
          · omega
          · exact hmem
        obtain ⟨y, hy, hxy⟩ := ih htail ⟨b, List.mem_cons_self .., hbx⟩ ⟨high, hhigh', hxhigh⟩
        exact ⟨y, List.mem_cons_of_mem _ hy, hxy⟩
      · have hmono : (b :: times).Pairwise (· < ·) := by
          refine List.isChain_iff_pairwise.mp (htail.imp fun u v huv => ?_)
          omega
        have hax : a ≤ x := by
          rcases List.mem_cons.mp hlow with rfl | hmem
          · exact hlowx
          rcases List.mem_cons.mp hmem with rfl | hmem
          · omega
          · have := (List.pairwise_cons.mp hmono).1 low hmem
            omega
        exact ⟨b, List.mem_cons_of_mem _ (List.mem_cons_self ..), by omega, by omega⟩

/-- Well-formed candles of a timeframe, each a step after the one before. -/
structure IsBlock (tf : String) (block : List RawCandle) : Prop where
  wellFormed : ∀ candle ∈ block, candle.openTime = some candle.openMs ∧ 0 < candle.openMs
  contiguous : (block.map RawCandle.openMs).IsChain fun a b => b = a + inferTfMs tf

namespace IsBlock

variable {tf : String} {block : List RawCandle}

lemma sorted (h : IsBlock tf block) : (block.map RawCandle.openMs).Pairwise (· < ·) := by
  have hpos := inferTfMs_pos tf
  refine List.isChain_iff_pairwise.mp (h.contiguous.imp fun a b hab => ?_)
  omega

lemma tail {candle : RawCandle} (h : IsBlock tf (candle :: block)) : IsBlock tf block := by
  refine ⟨fun a ha => h.wellFormed a (List.mem_cons_of_mem _ ha), ?_⟩
  have hcontiguous := h.contiguous
  rw [List.map_cons] at hcontiguous
  exact hcontiguous.tail

/-- The last candle is the newest. -/
lemma le_last (h : IsBlock tf block) {last a : RawCandle} (hlast : block.getLast? = some last)
    (ha : a ∈ block) : a.openMs ≤ last.openMs := by
  obtain ⟨front, rfl⟩ := List.getLast?_eq_some_iff.mp hlast
  have hsorted := h.sorted
  rw [List.map_append, List.pairwise_append] at hsorted
  rcases List.mem_append.mp ha with hfront | hsingle
  · exact (hsorted.2.2 _ (List.mem_map_of_mem hfront) _ (List.mem_singleton_self _)).le
  · rw [List.mem_singleton.mp hsingle]

/-- The candles that are not below a bound are a block. -/
lemma filter (h : IsBlock tf block) {p : RawCandle → Bool}
    (hp : ∀ a ∈ block, ∀ b ∈ block, a.openMs < b.openMs → p a = true → p b = true) :
    IsBlock tf (block.filter p) := by
  induction block with
  | nil => exact h
  | cons a block ih =>
    have hsmaller : ∀ b ∈ block, a.openMs < b.openMs := by
      intro b hb
      have hsorted := h.sorted
      rw [List.map_cons, List.pairwise_cons] at hsorted
      exact hsorted.1 _ (List.mem_map_of_mem hb)
    by_cases ha : p a = true
    · -- all the later ones pass too
      have hall : block.filter p = block := by
        refine List.filter_eq_self.mpr fun b hb => ?_
        exact hp a (List.mem_cons_self ..) b (List.mem_cons_of_mem _ hb) (hsmaller b hb) ha
      rw [List.filter_cons_of_pos ha, hall]
      exact h
    · rw [List.filter_cons_of_neg ha]
      exact ih h.tail fun b hb d hd => hp b (List.mem_cons_of_mem _ hb) d (List.mem_cons_of_mem _ hd)

end IsBlock

/-! ## Filling one key -/

namespace SharedCandleCache

variable {c c' : SharedCandleCache} {key : CacheKey} {b : CandleBook}

/-- The candles that the baseline lets through. -/
def accepted (c : SharedCandleCache) (tf : String) (block : List RawCandle) : List RawCandle :=
  block.filter fun candle => !c.belowBaseline tf candle

@[simp] theorem warmupBaseline_upsertCandle (c : SharedCandleCache) (k : CacheKey)
    (candle : RawCandle) : (c.upsertCandle k candle).warmupBaseline = c.warmupBaseline :=
  warmupBaseline_apply c (.upsert k candle)

@[simp] theorem retainedBars_upsertCandle (c : SharedCandleCache) (k : CacheKey)
    (candle : RawCandle) : (c.upsertCandle k candle).retainedBars key = c.retainedBars key := by
  unfold upsertCandle
  split
  · rfl
  split <;> rfl

lemma data_upsertCandle_other (c : SharedCandleCache) {k : CacheKey} (hne : k ≠ key)
    (candle : RawCandle) : (c.upsertCandle k candle).data.get? key = c.data.get? key := by
  unfold upsertCandle
  split
  · rfl
  split
  · rfl
  · exact (Dict.get?_set _ _ _ _).trans (if_neg (Ne.symm hne))

lemma belowBaseline_congr (h : c'.warmupBaseline = c.warmupBaseline) (tf : String)
    (candle : RawCandle) : c'.belowBaseline tf candle = c.belowBaseline tf candle := by
  unfold belowBaseline
  rw [h]

lemma accepted_congr (h : c'.warmupBaseline = c.warmupBaseline) (tf : String)
    (block : List RawCandle) : c'.accepted tf block = c.accepted tf block := by
  unfold accepted
  simp only [belowBaseline_congr h]

/-- A candle that is not older than an accepted one is accepted. -/
lemma accepted_of_le {c : SharedCandleCache} {tf : String} {block : List RawCandle}
    (h : IsBlock tf block) {a e : RawCandle} (ha : a ∈ c.accepted tf block) (he : e ∈ block)
    (hle : a.openMs ≤ e.openMs) : e ∈ c.accepted tf block := by
  obtain ⟨hmem, hpass⟩ := List.mem_filter.mp ha
  refine List.mem_filter.mpr ⟨he, ?_⟩
  unfold belowBaseline at hpass ⊢
  cases hbase : c.warmupBaseline.get? tf with
  | none => rfl
  | some baseline =>
    rw [hbase] at hpass
    simp only [(h.wellFormed a hmem).1, (h.wellFormed e he).1, Option.getD_some, Bool.not_eq_true',
      decide_eq_false_iff_not] at hpass ⊢
    omega

/-- The accepted candles of a block are a block. -/
lemma isBlock_accepted (c : SharedCandleCache) {tf : String} {block : List RawCandle}
    (h : IsBlock tf block) : IsBlock tf (c.accepted tf block) := by
  refine h.filter fun a ha e he hae hpass => ?_
  exact (List.mem_filter.mp (accepted_of_le h (List.mem_filter.mpr ⟨ha, hpass⟩) he hae.le)).2


/-- Upserts of candles of one key. -/
lemma Refines.upsertAll (h : c.Refines key b) (hsymbol : key.1 ≠ "") (htf : key.2 ≠ "")
    {candles : List RawCandle} (htimes : ∀ candle ∈ candles, 0 < candle.openMs) :
    (candles.foldl (fun c candle => c.upsertCandle key candle) c).Refines key
      (((c.accepted key.2 candles).map RawCandle.bar).foldl CandleBook.put b) := by
  induction candles generalizing c b with
  | nil => exact h
  | cons candle candles ih =>
    have htimes' : ∀ a ∈ candles, 0 < a.openMs := fun a ha => htimes a (List.mem_cons_of_mem _ ha)
    have hpos := htimes candle (List.mem_cons_self ..)
    cases hbelow : c.belowBaseline key.2 candle with
    | true =>
      have hskip : c.upsertCandle key candle = c := by
        rw [upsertCandle, hbelow, if_pos rfl]
      have haccepted : c.accepted key.2 (candle :: candles) = c.accepted key.2 candles :=
        List.filter_cons_of_neg (by rw [hbelow]; decide)
      rw [List.foldl_cons, hskip, haccepted]
      exact ih h htimes'
    | false =>
      have haccepted : c.accepted key.2 (candle :: candles) = candle :: c.accepted key.2 candles :=
        List.filter_cons_of_pos (by rw [hbelow]; decide)
      have hnext := ih (h.upsert hsymbol htf hpos hbelow) htimes'
      rw [accepted_congr (warmupBaseline_upsertCandle c key candle)] at hnext
      rw [haccepted, List.foldl_cons, List.map_cons, List.foldl_cons]
      exact hnext

/-- What is cached for the key joins up with a block: enough candles of it pass the baseline, none is
older than what is cached, and every older cached candle that stays is followed within the timeframe. -/
structure Joins (c : SharedCandleCache) (key : CacheKey) (bars : ℕ) (block : List RawCandle) :
    Prop where
  enough : bars ≤ (c.accepted key.2 block).length
  newest : ∀ last, block.getLast? = some last → ∀ x ∈ c.getTimes key 0, x ≤ last.openMs
  older : boundOf (c.retainedBars key) ≤ (c.accepted key.2 block).length ∨
    ∀ x ∈ c.getTimes key 0, (∀ a ∈ c.accepted key.2 block, x < a.openMs) →
      (∃ z ∈ c.getTimes key 0 ++ (c.accepted key.2 block).map RawCandle.openMs, x < z) →
      ∃ y ∈ c.getTimes key 0 ++ (c.accepted key.2 block).map RawCandle.openMs,
        x < y ∧ y ≤ x + inferTfMs key.2

/-- Upserts of a block that joins up meet the requirement. -/
theorem Joins.fill {bars : ℕ} {block : List RawCandle} (h : c.Joins key bars block)
    (hrefines : c.Refines key b) (hsymbol : key.1 ≠ "") (htf : key.2 ≠ "")
    (hretained : bars ≤ c.retainedBars key) (hblock : IsBlock key.2 block) :
    let filled := block.foldl (fun c candle => c.upsertCandle key candle) c
    filled.hasRequiredBars key bars = true ∧ (filled.verifyNoGaps key none).isClean = true := by
  intro filled
  set A := c.accepted key.2 block with hA
  have hsub : A.Sublist block := List.filter_sublist
  have hblockA : IsBlock key.2 A := c.isBlock_accepted hblock
  have hfilled := hrefines.upsertAll hsymbol htf fun a ha => (hblock.wellFormed a ha).2
  rw [CandleBook.foldl_put, ← hrefines.bounded, SortedMap.foldl_put_keep] at hfilled
  set M := (A.map RawCandle.bar).foldl (fun m e => m.upsert e.1 e.2) b.book with hM
  have hkeys : ∀ x, x ∈ M.keys ↔ x ∈ A.map RawCandle.openMs ∨ x ∈ b.book.keys := by
    intro x
    rw [hM, SortedMap.mem_keys_foldl_upsert, List.map_map]
    rfl
  have htimes : ∀ x, x ∈ c.getTimes key 0 ↔ x ∈ b.book.keys := by
    intro x
    rw [hrefines.getTimes, List.mem_reverse]
  have hnodup : (A.map RawCandle.openMs).Nodup := hblockA.sorted.imp fun h => h.ne
  -- there are enough bars
  have hcount : bars ≤ ((M.keep (boundOf b.retained)).keys).length := by
    have hle := (hnodup.subperm fun x hx => (hkeys x).mpr (.inl hx)).length_le
    have henough : bars ≤ A.length := h.enough
    have hcap := hrefines.retained_le
    have hret := hrefines.retained
    rw [List.length_map] at hle
    rw [SortedMap.keys_keep, List.length_take]
    unfold boundOf
    split <;> omega
  refine ⟨?_, hfilled.isClean (GapFree.keep _ fun x hx hex => ?_)⟩
  · unfold hasRequiredBars
    rw [hfilled.getBarCount]
    exact decide_eq_true hcount
  · obtain ⟨z, hz, hxz⟩ := hex
    by_cases hlow : ∃ a ∈ A, a.openMs ≤ x
    · -- among the block: the last candle of it is the greatest key
      obtain ⟨a, ha, hax⟩ := hlow
      have hhigh : ∃ z' ∈ A.map RawCandle.openMs, x < z' := by
        rcases (hkeys z).mp hz with hz | hz
        · exact ⟨z, hz, hxz⟩
        · have hmem : a ∈ block := hsub.subset ha
          obtain ⟨last, hlast⟩ : ∃ last, block.getLast? = some last := by
            rw [← Option.isSome_iff_exists, List.getLast?_isSome]
            exact List.ne_nil_of_mem hmem
          have hlastA : last ∈ A :=
            accepted_of_le hblock ha (List.mem_of_getLast? hlast) (hblock.le_last hlast hmem)
          have hz' : z ≤ last.openMs := h.newest last hlast z ((htimes z).mpr hz)
          exact ⟨last.openMs, List.mem_map_of_mem hlastA, hxz.trans_le hz'⟩
      obtain ⟨y, hy, hxy⟩ := next_of_isChain (inferTfMs_pos _) hblockA.contiguous
        ⟨a.openMs, List.mem_map_of_mem ha, hax⟩ hhigh
      exact ⟨y, (hkeys y).mpr (.inl hy), hxy⟩
    · have hbelow : ∀ a ∈ A, x < a.openMs := by
        intro a ha
        by_contra hle
        exact hlow ⟨a, ha, not_lt.mp hle⟩
      rcases h.older with hbound | hnext
      · -- the accepted candles alone fill the retained bars
        have hlt := SortedMap.length_lt_of_mem_keys_keep hx hnodup fun y hy => by
          obtain ⟨a, ha, rfl⟩ := List.mem_map.mp hy
          exact ⟨(hkeys _).mpr (.inl hy), hbelow a ha⟩
        have hbound' : boundOf (c.retainedBars key) ≤ A.length := hbound
        rw [List.length_map, ← hrefines.retained] at hlt
        omega
      · -- an older cached candle that is followed
        have hunion : ∀ y, y ∈ c.getTimes key 0 ++ A.map RawCandle.openMs ↔ y ∈ M.keys := by
          intro y
          rw [List.mem_append, htimes, hkeys, or_comm]
        have hxM : x ∈ M.keys := by
          rw [SortedMap.keys_keep] at hx
          exact List.mem_of_mem_take hx
        have hxc : x ∈ c.getTimes key 0 := by
          rcases (hkeys x).mp hxM with hxA | hxb
          · obtain ⟨a, ha, rfl⟩ := List.mem_map.mp hxA
            exact absurd (hbelow a ha) (lt_irrefl _)
          · exact (htimes x).mpr hxb
        obtain ⟨y, hy, hxy⟩ := hnext x hxc hbelow ⟨z, (hunion z).mpr hz, hxz⟩
        exact ⟨y, (hunion y).mp hy, hxy⟩

/-! ## Reachable caches -/

/-- The buffers hold the maps of their keys, where no more is retained than a buffer can hold. -/
structure Sound (c : SharedCandleCache) : Prop where
  registered : ∀ key, c.retainBarsRequired.get? key = none → c.warmupBarsRequired.get? key = none
  refines : ∀ key, c.retainedBars key ≤ NumpyCandleBuffer.maxCapacity → ∃ b, c.Refines key b

lemma Sound.upsert (h : c.Sound) (k : CacheKey) (candle : RawCandle) :
    (c.upsertCandle k candle).Sound := by
  refine ⟨fun key => ?_, fun key hretained => ?_⟩
  · unfold upsertCandle
    split
    · exact h.registered key
    split <;> exact h.registered key
  · rw [retainedBars_upsertCandle] at hretained
    obtain ⟨b, hb⟩ := h.refines key hretained
    by_cases hne : k = key
    · subst hne
      cases hbelow : c.belowBaseline k.2 candle with
      | true =>
        refine ⟨b, ?_⟩
        rw [upsertCandle, hbelow, if_pos rfl]
        exact hb
      | false =>
        by_cases hbad : k.1 = "" ∨ k.2 = "" ∨ candle.openMs ≤ 0
        · refine ⟨b, ?_⟩
          rw [upsertCandle, hbelow, if_neg Bool.false_ne_true, if_pos hbad]
          exact hb
        · rw [not_or, not_or, not_le] at hbad
          exact ⟨_, hb.upsert hbad.1 hbad.2.1 hbad.2.2 hbelow⟩
    · exact ⟨b, hb.upsert_other hne candle⟩

lemma Sound.register (h : c.Sound) (k : CacheKey) (warmup : ℤ) (retain : Option ℤ) (buffer : ℤ) :
    (c.registerDataRequirement k warmup retain buffer).Sound := by
  refine ⟨fun key hnone => ?_, fun key hretained => ?_⟩
  · have hfields : ∀ r w : ℕ, (c.retainBarsRequired.set k r).get? key = none →
        (c.warmupBarsRequired.set k w).get? key = none := by
      intro r w
      rw [Dict.get?_set, Dict.get?_set]
      split
      · intro hsome
        cases hsome
      · exact h.registered key
    unfold registerDataRequirement at hnone ⊢
    dsimp only at hnone ⊢
    cases hdata : c.data.get? k with
    | none =>
      rw [hdata] at hnone
      exact hfields _ _ hnone
    | some sd =>
      rw [hdata] at hnone
      exact hfields _ _ hnone
  · by_cases hne : k = key
    · subst hne
      rw [retainedBars_register (h.registered k), max_le_iff] at hretained
      obtain ⟨b, hb⟩ := h.refines k hretained.1
      exact ⟨_, hb.register hretained.2⟩
    · rw [retainedBars_register_other hne] at hretained
      obtain ⟨b, hb⟩ := h.refines key hretained
      exact ⟨b, hb.register_other hne warmup retain buffer⟩

lemma soundInvariant : CacheInvariant Sound where
  upsert _ key candle h := h.upsert key candle
  register _ key w r n h := h.register key w r n

/-- The baseline is not part of a map. -/
lemma Sound.setWarmupBaseline (h : c.Sound) (tf : String) (ts : ℤ) :
    (c.setWarmupBaseline tf ts).Sound := by
  refine ⟨h.registered, fun key hretained => ?_⟩
  obtain ⟨b, hb⟩ := h.refines key hretained
  exact ⟨b, hb.retained, hb.retained_le, hb.registered, hb.missing, hb.holds⟩

lemma sound_init (floor : ℕ) : ({ dataMaxCandlesFloor := floor } : SharedCandleCache).Sound := by
  refine ⟨fun _ _ => rfl, fun key hretained => ?_⟩
  have hfloor : floor ≤ NumpyCandleBuffer.maxCapacity := (le_max_left _ _).trans hretained
  exact ⟨_, (unfiltered_init hfloor key).refines⟩

end SharedCandleCache

/-! ## Other keys -/

namespace SharedCandleCache

/-- Two caches agree on what concerns a key. -/
structure AgreesOn (key : CacheKey) (c c' : SharedCandleCache) : Prop where
  data : c'.data.get? key = c.data.get? key
  baseline : c'.warmupBaseline = c.warmupBaseline
  retained : c'.retainedBars key = c.retainedBars key

namespace AgreesOn

variable {key : CacheKey} {c c' c'' : SharedCandleCache}

lemma trans (h : AgreesOn key c c') (h' : AgreesOn key c' c'') : AgreesOn key c c'' :=
  ⟨h'.data.trans h.data, h'.baseline.trans h.baseline, h'.retained.trans h.retained⟩

lemma upserts (c : SharedCandleCache) {k : CacheKey} (hne : k ≠ key) (candles : List RawCandle) :
    AgreesOn key c (candles.foldl (fun c candle => c.upsertCandle k candle) c) := by
  induction candles generalizing c with
  | nil => exact ⟨rfl, rfl, rfl⟩
  | cons candle candles ih =>
    have hstep : AgreesOn key c (c.upsertCandle k candle) :=
      ⟨data_upsertCandle_other c hne candle, warmupBaseline_upsertCandle c k candle,
        retainedBars_upsertCandle c k candle⟩
    exact hstep.trans (ih _)

lemma getTimes (h : AgreesOn key c c') : c'.getTimes key 0 = c.getTimes key 0 := by
  unfold SharedCandleCache.getTimes SharedCandleCache.tail
  rw [h.data]

lemma hasRequiredBars (h : AgreesOn key c c') (bars : ℕ) :
    c'.hasRequiredBars key bars = c.hasRequiredBars key bars := by
  unfold SharedCandleCache.hasRequiredBars getBarCount
  rw [h.data]

lemma verifyNoGaps (h : AgreesOn key c c') : c'.verifyNoGaps key none = c.verifyNoGaps key none := by
  unfold SharedCandleCache.verifyNoGaps getBarCount
  rw [h.getTimes, h.data]

lemma joins (h : AgreesOn key c c') {bars : ℕ} {block : List RawCandle} (hjoins : c.Joins key bars block) :
    c'.Joins key bars block := by
  have hbase := accepted_congr h.baseline key.2 block
  refine ⟨?_, ?_, ?_⟩
  · rw [hbase]
    exact hjoins.enough
  · rw [h.getTimes]
    exact hjoins.newest
  · rw [hbase, h.getTimes, h.retained]
    exact hjoins.older

end AgreesOn

end SharedCandleCache

namespace WarmupManager

variable {m : WarmupManager}

theorem Reachable.sound (h : m.Reachable) : m.cache.Sound :=
  SharedCandleCache.soundInvariant.reachable SharedCandleCache.sound_init
    (fun _ tf ts hc => hc.setWarmupBaseline tf ts) h

/-- Upserts do not change what is retained. -/
lemma retainedInvariant (key : CacheKey) (retained : ℕ) :
    UpsertInvariant fun c => c.retainedBars key = retained :=
  ⟨fun c k candle h => (SharedCandleCache.retainedBars_upsertCandle c k candle).trans h⟩

/-- One requirement. -/
def singleRequirement (key : CacheKey) (bars : ℕ) : Dict CacheKey ℕ := ⟨[(key, bars)], by simp⟩

/-- Enough bars without gaps meet a requirement. -/
lemma satisfies_of {now : ℚ} {key : CacheKey} {bars : ℕ}
    (h : m.cache.hasRequiredBars key bars = true ∧ (m.cache.verifyNoGaps key none).isClean = true) :
    m.cacheSatisfiesSymbol now key bars none = true := by
  rw [cacheSatisfiesSymbol, h.1, h.2, Bool.or_true]
  rfl

lemma missingRequirements_single {now : ℚ} {key : CacheKey} {bars : ℕ}
    (h : key.1 ∉ m.excludedSymbols) :
    m.missingRequirements now (singleRequirement key bars) none =
      if m.cacheSatisfiesSymbol now key bars none = true then [] else [⟨key.1, key.2, bars⟩] := by
  unfold missingRequirements singleRequirement
  dsimp only
  cases hsat : m.cacheSatisfiesSymbol now key bars none with
  | true => rw [List.filter_cons_of_neg (by simp [hsat]), if_pos rfl]; rfl
  | false => rw [List.filter_cons_of_pos (by simp [hsat, h]), if_neg Bool.false_ne_true]; rfl

/-- The snapshot of a requirement that is not met. -/
lemma loadFromSnapshots_single {world : WarmupWorld} {req : WarmupRequirement}
    (hreader : m.hasSnapshotReader = true) (h : m.cacheSatisfies world.now req none = false) :
    (m.loadFromSnapshots world [req] none).1 = m.upsertAll req.key (world.load req) := by
  unfold loadFromSnapshots
  rw [if_pos hreader, List.foldl_cons, List.foldl_nil]
  unfold loadFromSnapshot
  rw [h, if_neg Bool.false_ne_true]
  split
  · rename_i hload
    rw [hload]
    rfl
  · dsimp only
    split <;> rfl

/-- What is not satisfied afterwards was not loaded. -/
lemma loaded_nil {world : WarmupWorld} {req : WarmupRequirement}
    (h : (m.loadFromSnapshots world [req] none).1.cacheSatisfies world.now req none = false) :
    (m.loadFromSnapshots world [req] none).2 = [] := by
  unfold loadFromSnapshots at h ⊢
  split
  · rename_i hreader
    rw [if_pos hreader] at h
    rw [List.foldl_cons, List.foldl_nil] at h ⊢
    unfold loadFromSnapshot at h ⊢
    split
    · rfl
    split
    · rfl
    · dsimp only
      split
      · rename_i hfirst hload hsat
        rw [if_neg hfirst, if_neg hload] at h
        dsimp only at h
        rw [if_pos hsat, hsat] at h
        cases h
      · rfl
  · rfl

lemma chunks_single (m : WarmupManager) (req : WarmupRequirement) :
    ((groupMissingByBucket [req]).flatMap fun g => m.chunkRequirements g.2) = [[req]] := by
  have hgroups : groupMissingByBucket [req] = [((req.tf, barsBucket req.bars), [req])] := by
    obtain ⟨symbol, tf, bars⟩ := req
    rfl
  rw [hgroups, List.flatMap_singleton]
  exact if_pos (le_max_left 1 _)

/-- Without a coverage target no batch is cancelled. -/
lemma ensureBatches_none (world : WarmupWorld) (m : WarmupManager) (loaded : List CacheKey)
    (groups : List (List (List WarmupRequirement))) :
    ensureBatches world none none m loaded groups =
      groups.flatten.foldl (fun st chunk =>
        ((st.1.ensureBatch world chunk none).1, (st.1.ensureBatch world chunk none).2 ++ st.2))
        (m, loaded) := by
  induction groups generalizing m loaded with
  | nil => rfl
  | cons group groups ih =>
    unfold ensureBatches
    rw [List.flatten_cons, List.foldl_append]
    exact ih _ _

/-- The other keys of a response. -/
lemma agreesOn_upserts {key : CacheKey} (rows : List (CacheKey × List RawCandle))
    (hrows : ∀ e ∈ rows, e.1 ≠ key) (m : WarmupManager) :
    SharedCandleCache.AgreesOn key m.cache (rows.foldl (fun m e => m.upsertAll e.1 e.2) m).cache := by
  induction rows generalizing m with
  | nil => exact ⟨rfl, rfl, rfl⟩
  | cons e rows ih =>
    have hstep := SharedCandleCache.AgreesOn.upserts m.cache (hrows e (List.mem_cons_self ..)) e.2
    exact hstep.trans (ih (fun e' he' => hrows e' (List.mem_cons_of_mem _ he')) (m.upsertAll e.1 e.2))

/-- A response with a block that joins up meets the requirement. -/
lemma applyBackendResult_satisfies {key : CacheKey} {bars : ℕ} {block : List RawCandle}
    (hsound : m.cache.Sound) (hsymbol : key.1 ≠ "") (htf : key.2 ≠ "")
    (hretained : bars ≤ m.cache.retainedBars key)
    (hcapacity : m.cache.retainedBars key ≤ NumpyCandleBuffer.maxCapacity)
    (hblock : IsBlock key.2 block) (hjoins : m.cache.Joins key bars block) {now : ℚ}
    {reqs : List WarmupRequirement} {result : Dict CacheKey (List RawCandle)}
    (hresult : result.get? key = some block) :
    (m.applyBackendResult now reqs (.candles result)).1.cacheSatisfiesSymbol now key bars none = true := by
  have hmem := (Dict.get?_some_iff _ _ _).mp hresult
  obtain ⟨before, after, hrows⟩ := List.append_of_mem hmem
  have hnodup := result.nodup_keys
  unfold Dict.keys at hnodup
  rw [hrows, List.map_append, List.map_cons, List.nodup_append] at hnodup
  have hbefore : ∀ e ∈ before, e.1 ≠ key := by
    intro e he
    exact hnodup.2.2 e.1 (List.mem_map_of_mem he) key (List.mem_cons_self ..)
  have hafter : ∀ e ∈ after, e.1 ≠ key := by
    intro e he heq
    have hkey : e.1 ∈ after.map Prod.fst := List.mem_map_of_mem he
    rw [heq] at hkey
    exact (List.nodup_cons.mp hnodup.2.1).1 hkey
  rw [applyBackendResult_fst, hrows, List.foldl_append, List.foldl_cons]
  -- the candles of the key come between those of other keys
  have hagrees := agreesOn_upserts before hbefore m
  have hsound' := SharedCandleCache.soundInvariant.toUpsertInvariant.upsertRows hsound before
  generalize before.foldl (fun m e => m.upsertAll e.1 e.2) m = m' at hagrees hsound'
  obtain ⟨b, hb⟩ := hsound'.refines key (hagrees.retained ▸ hcapacity)
  have hfill := (hagrees.joins hjoins).fill hb hsymbol htf (hagrees.retained ▸ hretained) hblock
  have hagrees' := agreesOn_upserts after hafter (m'.upsertAll key block)
  refine satisfies_of ?_
  rw [hagrees'.hasRequiredBars, hagrees'.verifyNoGaps]
  exact hfill

/-- A request whose snapshot or backend returns a block that joins up leaves the requirement met. -/
theorem request_warmup_satisfies (hm : m.Reachable) {key : CacheKey} {bars : ℕ}
    {block : List RawCandle} (hsymbol : key.1 ≠ "") (htf : key.2 ≠ "")
    (hactive : key.1 ∉ m.excludedSymbols)
    (hcapacity : max (m.cache.retainedBars key) bars ≤ NumpyCandleBuffer.maxCapacity)
    (hblock : IsBlock key.2 block) (world : WarmupWorld)
    (hreturned :
      let registered := m.registerRequirements (singleRequirement key bars)
      let restored := (registered.loadFromSnapshots world [⟨key.1, key.2, bars⟩] none).1
      (m.hasSnapshotReader = true ∧ world.load ⟨key.1, key.2, bars⟩ = block ∧
          registered.cache.Joins key bars block) ∨
        ∃ result, world.backend [⟨key.1, key.2, bars⟩] = .candles result ∧
          result.get? key = some block ∧ restored.cache.Joins key bars block) :
    (m.requestWarmup world (singleRequirement key bars) none none).1.cacheSatisfiesSymbol world.now key
      bars none = true := by
  dsimp only at hreturned
  have hretainOf : SharedCandleCache.retainOf bars (some bars) 0 = bars := by
    simp [SharedCandleCache.retainOf]
  have hbars : (m.registerRequirements (singleRequirement key bars)).cache.retainedBars key =
      max (m.cache.retainedBars key) bars := by
    have hregister := SharedCandleCache.retainedBars_register (hm.sound.registered key) bars (some bars) 0
    rw [hretainOf] at hregister
    exact hregister
  have hsound : (m.registerRequirements (singleRequirement key bars)).cache.Sound :=
    SharedCandleCache.soundInvariant.registerRequirements hm.sound _
  unfold requestWarmup
  dsimp only
  rw [show m.hasSnapshotReader = (m.registerRequirements (singleRequirement key bars)).hasSnapshotReader
    from rfl] at hreturned
  have hactive' : key.1 ∉ (m.registerRequirements (singleRequirement key bars)).excludedSymbols := hactive
  generalize m.registerRequirements (singleRequirement key bars) = m at hreturned hbars hsound hactive'
  rw [missingRequirements_single hactive']
  by_cases hmet : m.cacheSatisfiesSymbol world.now key bars none = true
  · rw [if_pos hmet, if_pos rfl]
    exact hmet
  rw [if_neg hmet, if_neg (List.cons_ne_nil _ _)]
  have hnone : ∀ m : WarmupManager, m.allStrategiesReady world.now none none = false := fun _ => rfl
  rw [hnone, if_neg Bool.false_ne_true]
  have hretained : bars ≤ m.cache.retainedBars key := hbars ▸ le_max_right _ _
  have hcapacity' : m.cache.retainedBars key ≤ NumpyCandleBuffer.maxCapacity := hbars ▸ hcapacity
  cases hrestored : (m.loadFromSnapshots world [⟨key.1, key.2, bars⟩] none).1.cacheSatisfiesSymbol
      world.now key bars none with
  | true =>
    -- the snapshots were enough
    have hremaining : ([⟨key.1, key.2, bars⟩] : List WarmupRequirement).filter (fun req =>
        req.key ∉ (m.loadFromSnapshots world [⟨key.1, key.2, bars⟩] none).2 ∧
          (m.loadFromSnapshots world [⟨key.1, key.2, bars⟩] none).1.cacheSatisfies world.now req none =
            false) = [] := by
      refine List.filter_eq_nil_iff.mpr fun req hreq => ?_
      rw [List.mem_singleton.mp hreq]
      simp only [cacheSatisfies, WarmupRequirement.key, hrestored, Bool.true_eq_false, and_false,
        decide_false, Bool.false_eq_true, not_false_eq_true]
    rw [hremaining, if_pos rfl]
    exact hrestored
  | false =>
    rcases hreturned with ⟨hreader, hload, hjoins⟩ | ⟨result, hresult, hblock', hjoins⟩
    · -- the block of the snapshot would have been enough
      obtain ⟨b, hb⟩ := hsound.refines key hcapacity'
      have hfill := hjoins.fill hb hsymbol htf hretained hblock
      have hload' : (m.loadFromSnapshots world [⟨key.1, key.2, bars⟩] none).1 =
          m.upsertAll key (world.load ⟨key.1, key.2, bars⟩) :=
        loadFromSnapshots_single hreader (Bool.not_eq_true _ ▸ hmet)
      rw [hload', hload, satisfies_of hfill] at hrestored
      cases hrestored
    · have hloaded : (m.loadFromSnapshots world [⟨key.1, key.2, bars⟩] none).2 = [] := loaded_nil hrestored
      have hsound' := SharedCandleCache.soundInvariant.toUpsertInvariant.loadFromSnapshots hsound world
        [⟨key.1, key.2, bars⟩] none
      have hbars' : (m.loadFromSnapshots world [⟨key.1, key.2, bars⟩] none).1.cache.retainedBars key =
          m.cache.retainedBars key :=
        (retainedInvariant key (m.cache.retainedBars key)).loadFromSnapshots rfl world _ none
      rw [← hbars'] at hretained hcapacity'
      have hremaining : ([⟨key.1, key.2, bars⟩] : List WarmupRequirement).filter (fun req =>
          req.key ∉ (m.loadFromSnapshots world [⟨key.1, key.2, bars⟩] none).2 ∧
            (m.loadFromSnapshots world [⟨key.1, key.2, bars⟩] none).1.cacheSatisfies world.now req none =
              false) = [⟨key.1, key.2, bars⟩] := by
        refine List.filter_eq_self.mpr fun req hreq => ?_
        rw [List.mem_singleton.mp hreq, hloaded]
        exact decide_eq_true ⟨List.not_mem_nil, hrestored⟩
      rw [hremaining, if_neg (List.cons_ne_nil _ _), hloaded]
      generalize (m.loadFromSnapshots world [⟨key.1, key.2, bars⟩] none).1 = m at *
      have hbatches : (world.completed [[⟨key.1, key.2, bars⟩]]).flatten = [[⟨key.1, key.2, bars⟩]] :=
        List.perm_singleton.mp (world.completed_perm _)
      rw [chunks_single, ensureBatches_none, hbatches, List.foldl_cons, List.foldl_nil]
      unfold ensureBatch
      rw [if_neg (List.cons_ne_nil _ _), hresult]
      exact applyBackendResult_satisfies hsound' hsymbol htf hretained hcapacity' hblock hjoins hblock'

/-! ## Requests that stay unmet -/

/-- `n` well-formed candles of one minute each. -/
def minutes (first n : ℕ) : List RawCandle :=
  (List.range' first n).map fun (i : ℕ) => { openTime := some (60000 * i : ℤ) }

lemma le_of_mem_minutes {first n : ℕ} {candle : RawCandle} (h : candle ∈ minutes first n) :
    60000 * (first : ℤ) ≤ candle.openMs := by
  obtain ⟨i, hi, rfl⟩ := List.mem_map.mp h
  have hfirst : first ≤ i := (List.mem_range'_1.mp hi).1
  change 60000 * (first : ℤ) ≤ 60000 * i
  omega

lemma isBlock_minutes {first : ℕ} (h : 0 < first) (n : ℕ) : IsBlock "1m" (minutes first n) := by
  refine ⟨fun candle hcandle => ?_, ?_⟩
  · have hle := le_of_mem_minutes hcandle
    obtain ⟨i, -, rfl⟩ := List.mem_map.mp hcandle
    exact ⟨rfl, by omega⟩
  · have hchain := List.isChain_range' first n 1
    have htimes : (minutes first n).map RawCandle.openMs =
        (List.range' first n).map fun i : ℕ => (60000 * i : ℤ) := List.map_map
    rw [htimes, List.isChain_map]
    refine hchain.imp fun a b hab => ?_
    have hminute : inferTfMs "1m" = 60000 := by decide
    rw [hminute, hab]
    push_cast
    ring

/-- A world whose snapshots give one symbol some candles. -/
def snapshotWorld (symbol : String) (candles : List RawCandle) : WarmupWorld where
  now := 0
  load req := if req.symbol = symbol then candles else []
  reload _ _ := []
  backend _ := .failed
  completed chunks := [chunks]
  completed_perm chunks := by rw [List.flatten_singleton]

/-- The first candles of a symbol. -/
theorem request_warmup_satisfies_eth :
    ((new 0 true false 10).requestWarmup (snapshotWorld "ETH" (minutes 1 3))
      (singleRequirement ("ETH", "1m") 3) none none).1.cacheSatisfiesSymbol 0 ("ETH", "1m") 3 none =
        true := by
  have hblock : IsBlock "1m" (minutes 1 3) := isBlock_minutes (by decide) 3
  refine request_warmup_satisfies (Reachable.init 0 true false 10) (by decide) (by decide) (by decide)
    (by decide) hblock _ (.inl ⟨rfl, rfl, ?_, ?_, ?_⟩)
  · decide +kernel
  · intro last _ x hx
    exact absurd hx List.not_mem_nil
  · exact .inr fun x hx => absurd hx List.not_mem_nil

/-- A reachable manager does not meet a requirement although the snapshots return a block of that many
candles, and none that is cached is newer. -/
def Unmet (m : WarmupManager) (key : CacheKey) (bars : ℕ) (block : List RawCandle) : Prop :=
  m.Reachable ∧ IsBlock key.2 block ∧ bars ≤ block.length ∧
    (∀ last, block.getLast? = some last → ∀ x ∈ m.cache.getTimes key 0, x ≤ last.openMs) ∧
    (m.requestWarmup (snapshotWorld key.1 block) (singleRequirement key bars) none
      none).1.cacheSatisfiesSymbol 0 key bars none = false

/-- Three bars of two symbols. -/
def pairStrategy : WarmupStrategy where
  symbols := ["BTC", "ETH"]
  tfs := ["1m"]
  bars _ := 3
  retainBars _ := 3
  retainBufferBars _ := 0

/-- Synchronised when only BTC had candles. -/
def btcOnly : WarmupManager :=
  ((new 0 true false 10).collectRequirements [pairStrategy]).runSyncedWarmup
    (snapshotWorld "BTC" (minutes 1 3)) none 0.6 1 none

/-- Synchronised when ETH was reported without enough history. -/
def ethExcluded : WarmupManager :=
  ((new 0 true false 10).collectRequirements [pairStrategy]).runSyncedWarmup
    (snapshotWorld "BTC" []) (some ⟨[("1m", ⟨.empty, ["ETH"]⟩)], by simp⟩) 0.6 1 none

/-- One early candle of ETH. -/
def ethEarly (floor : ℕ) : WarmupManager := (new floor true false 10).upsertAll ("ETH", "1m") (minutes 1 1)

/-- A buffer of a cache never grows beyond what a buffer can hold. -/
lemma narrowInvariant (key : CacheKey) : CacheInvariant fun c =>
    ∃ sd, c.data.get? key = some sd ∧ sd.capacity ≤ NumpyCandleBuffer.maxCapacity where
  upsert c k candle h := by
    obtain ⟨sd, hsd, hcapacity⟩ := h
    by_cases hne : k = key
    · subst hne
      unfold SharedCandleCache.upsertCandle
      split
      · exact ⟨sd, hsd, hcapacity⟩
      split
      · exact ⟨sd, hsd, hcapacity⟩
      · refine ⟨_, (Dict.get?_set _ _ _ _).trans (if_pos rfl), ?_⟩
        rw [hsd, Option.getD_some]
        exact (sd.capacity_upsert_le _ _).trans (max_le hcapacity le_rfl)
    · exact ⟨sd, (SharedCandleCache.data_upsertCandle_other c hne candle).trans hsd, hcapacity⟩
  register c k w r n h := by
    obtain ⟨sd, hsd, hcapacity⟩ := h
    unfold SharedCandleCache.registerDataRequirement
    dsimp only
    cases hdata : c.data.get? k with
    | none => exact ⟨sd, hsd, hcapacity⟩
    | some sd' =>
      by_cases hne : key = k
      · subst hne
        obtain rfl : sd = sd' := Option.some.inj (hsd.symm.trans hdata)
        refine ⟨_, (Dict.get?_set _ _ _ _).trans (if_pos rfl), ?_⟩
        rw [NumpyCandleBuffer.capacity_trim, NumpyCandleBuffer.capacity_ensureCapacity]
        exact max_le hcapacity (min_le_right _ _)
      · exact ⟨sd, (Dict.get?_set _ _ _ _).trans ((if_neg hne).trans hsd), hcapacity⟩

lemma ethEarly_reachable (floor : ℕ) : (ethEarly floor).Reachable :=
  .live (.init floor true false 10) ("ETH", "1m") { openTime := some 60000 }

/-- More bars than a buffer can hold are never there. -/
lemma ethEarly_deep (world : WarmupWorld) :
    ((ethEarly 0).requestWarmup world (singleRequirement ("ETH", "1m") 100001) none
      none).1.cacheSatisfiesSymbol 0 ("ETH", "1m") 100001 none = false := by
  have hinit : ∃ sd, (ethEarly 0).cache.data.get? ("ETH", "1m") = some sd ∧
      sd.capacity ≤ NumpyCandleBuffer.maxCapacity := by
    refine ⟨_, rfl, ?_⟩
    decide +kernel
  obtain ⟨sd, hsd, hcapacity⟩ := (narrowInvariant ("ETH", "1m")).requestWarmup hinit world
    (singleRequirement ("ETH", "1m") 100001) none none
  have hsize := sd.size_le
  have hbound : NumpyCandleBuffer.maxCapacity < 100001 := by decide
  unfold cacheSatisfiesSymbol SharedCandleCache.hasRequiredBars SharedCandleCache.getBarCount
  rw [hsd]
  dsimp only
  rw [decide_eq_false (by omega), Bool.false_and, Bool.false_and]

/-- Requests that stay unmet: the symbol had no candles when the baseline was set; it is excluded; an
older candle leaves a gap; there are more bars than a buffer can hold. -/
theorem request_warmup_unmet :
    Unmet btcOnly ("ETH", "1m") 3 (minutes 1 3) ∧ Unmet ethExcluded ("ETH", "1m") 3 (minutes 1 3) ∧
      Unmet (ethEarly 10) ("ETH", "1m") 3 (minutes 5 3) ∧
      Unmet (ethEarly 0) ("ETH", "1m") 100001 (minutes 1 100001) := by
  have hblock : IsBlock "1m" (minutes 1 3) := isBlock_minutes (by decide) 3
  have hcollected := (Reachable.init 0 true false 10).collect [pairStrategy]
  have hlength : ∀ first n, (minutes first n).length = n := by
    intro first n
    rw [minutes, List.length_map, List.length_range']
  -- the candles that come later are newer than the early one
  have hnewer : ∀ (floor first n : ℕ), 0 < first → (ethEarly floor).cache.getTimes ("ETH", "1m") 0 = [60000] →
      ∀ last, (minutes first n).getLast? = some last →
        ∀ x ∈ (ethEarly floor).cache.getTimes ("ETH", "1m") 0, x ≤ last.openMs := by
    intro floor first n hfirst htimes last hlast x hx
    have hle := le_of_mem_minutes (List.mem_of_getLast? hlast)
    rw [htimes, List.mem_singleton] at hx
    omega
  refine ⟨⟨hcollected.synced _ none 0.6 1 none, hblock, ?_, ?_, ?_⟩,
    ⟨hcollected.synced _ _ 0.6 1 none, hblock, ?_, ?_, ?_⟩,
    ⟨ethEarly_reachable 10, isBlock_minutes (by decide) 3, ?_, ?_, ?_⟩,
    ⟨ethEarly_reachable 0, isBlock_minutes (by decide) 100001, ?_, ?_, ethEarly_deep _⟩⟩
  · rw [hlength]
  · have hnone : btcOnly.cache.getTimes ("ETH", "1m") 0 = [] := by decide +kernel
    intro last _ x hx
    rw [hnone] at hx
    exact absurd hx List.not_mem_nil
  · decide +kernel
  · rw [hlength]
  · have hnone : ethExcluded.cache.getTimes ("ETH", "1m") 0 = [] := by decide +kernel
    intro last _ x hx
    rw [hnone] at hx
    exact absurd hx List.not_mem_nil
  · decide +kernel
  · rw [hlength]
  · exact hnewer 10 5 3 (by decide) (by decide +kernel)
  · decide +kernel
  · rw [hlength]
  · exact hnewer 0 1 100001 (by decide) (by decide +kernel)

end WarmupManager

end PaperTrade.Runner
