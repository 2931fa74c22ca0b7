import PaperTrade.Runner.Rollup

/-!
# What a roll-up leaves out

After `rollup_to_tf` the cache should hold a candle for every bucket that some lower timeframe can
fill. It does so for the buckets the source fills, and the source is the highest lower timeframe that
has any bar, whatever it covers: a single bar of a high timeframe hides the history of a lower one.
-/

namespace PaperTrade.Runner

open PaperTrade.Runtime

namespace SharedCandleCache

/-! ## Cache contents -/

/-- What any calls make of a cache: it holds a map for each key, with positive open times and none
without a symbol. -/
def Content (c : SharedCandleCache) : Prop :=
  ∀ key, ∃ b, c.Refines key b ∧ ∀ t ∈ b.book.keys, 0 < t ∧ key.1 ≠ ""

lemma content_init {floor : ℕ} (h : floor ≤ NumpyCandleBuffer.maxCapacity) :
    ({ dataMaxCandlesFloor := floor } : SharedCandleCache).Content := fun key =>
  ⟨_, (unfiltered_init h key).refines, fun _ ht => absurd ht List.not_mem_nil⟩

variable {c : SharedCandleCache}

lemma Content.upsert (h : c.Content) (k : CacheKey) (candle : RawCandle) :
    (c.upsertCandle k candle).Content := by
  intro key
  obtain ⟨b, hb, hkeys⟩ := h key
  by_cases hne : k = key
  · subst hne
    cases hbelow : c.belowBaseline k.2 candle with
    | true =>
      refine ⟨b, ?_, hkeys⟩
      rw [upsertCandle, hbelow, if_pos rfl]
      exact hb
    | false =>
      by_cases hbad : k.1 = "" ∨ k.2 = "" ∨ candle.openMs ≤ 0
      · refine ⟨b, ?_, hkeys⟩
        rw [upsertCandle, hbelow, if_neg Bool.false_ne_true, if_pos hbad]
        exact hb
      · rw [not_or, not_or, not_le] at hbad
        refine ⟨_, hb.upsert hbad.1 hbad.2.1 hbad.2.2 hbelow, fun t ht => ?_⟩
        rw [CandleBook.put, SortedMap.put, SortedMap.keys_keep] at ht
        obtain rfl | ht := SortedMap.mem_keys_upsert.mp (List.mem_of_mem_take ht)
        · exact ⟨hbad.2.2, hbad.1⟩
        · exact hkeys t ht
  · exact ⟨b, hb.upsert_other hne candle, hkeys⟩

lemma Content.register (h : c.Content) (k : CacheKey) {warmup : ℤ} {retain : Option ℤ} {buffer : ℤ}
    (hretain : retainOf warmup retain buffer ≤ NumpyCandleBuffer.maxCapacity) :
    (c.registerDataRequirement k warmup retain buffer).Content := by
  intro key
  obtain ⟨b, hb, hkeys⟩ := h key
  by_cases hne : k = key
  · subst hne
    refine ⟨_, hb.register hretain, fun t ht => hkeys t ?_⟩
    rw [CandleBook.require, SortedMap.keys_keep] at ht
    exact List.mem_of_mem_take ht
  · exact ⟨b, hb.register_other hne warmup retain buffer, hkeys⟩

lemma Content.setWarmupBaseline (h : c.Content) (tf : String) (ts : ℤ) :
    (c.setWarmupBaseline tf ts).Content := by
  intro key
  obtain ⟨b, hb, hkeys⟩ := h key
  exact ⟨b, ⟨hb.retained, hb.retained_le, hb.registered, hb.missing, hb.holds⟩, hkeys⟩

/-! ## Buckets that can be filled -/

/-- The bars of a lower timeframe that make up a bucket. -/
def parts (targetMs start : ℤ) (tf : String) : List ℤ :=
  expectedTimes start (sourceTfMs tf) (targetMs.fdiv (sourceTfMs tf)).toNat

/-- Some lower timeframe holds every part of the bucket. -/
def CompleteBelow (c : SharedCandleCache) (targetTf : String) (targetMs : ℤ) (symbol : String)
    (start : ℤ) : Prop :=
  targetMs ∣ start ∧ ∃ tf ∈ lowerTfs targetTf, parts targetMs start tf ⊆ c.getTimes (symbol, tf) 0

/-- The cache holds the candle of the bucket. -/
def HoldsCandle (c : SharedCandleCache) (targetTf symbol : String) (start : ℤ) : Prop :=
  start ∈ c.getTimes (symbol, targetTf) 0

/-- The retention permits the candle: fewer newer ones than it keeps are held or can be filled. -/
def Permits (c : SharedCandleCache) (targetTf : String) (targetMs : ℤ) (symbol : String)
    (start : ℤ) : Prop :=
  ∀ newer : List ℤ, newer.Nodup → (∀ t ∈ newer, start < t ∧
    (c.HoldsCandle targetTf symbol t ∨ c.CompleteBelow targetTf targetMs symbol t)) →
    newer.length < boundOf (c.retainedBars (symbol, targetTf))

/-- The roll-up leaves a candle for every bucket that can be filled, retention permitting. -/
def RollupCompletes (c : SharedCandleCache) (targetTf : String) (targetMs : ℤ)
    (symbols : List String) (symbol : String) : Prop :=
  ∀ start, c.CompleteBelow targetTf targetMs symbol start →
    c.Permits targetTf targetMs symbol start →
    (c.rollupToTf targetTf symbols).2.HoldsCandle targetTf symbol start

/-- The source of the roll-up fills the bucket: its bars in the bucket are exactly the parts, and the
candle is not older than the baseline of the target. -/
def SourceFills (c : SharedCandleCache) (targetTf : String) (targetMs : ℤ) (symbol : String)
    (start : ℤ) : Prop :=
  ∃ tf, c.bestSourceTf targetTf symbol = some tf ∧
    ((c.getTimes (symbol, tf) 0).filter fun t => bucketStart targetMs t = start) =
      parts targetMs start tf ∧
    ∀ baseline, c.warmupBaseline.get? targetTf = some baseline → baseline ≤ start

/-- Every such bucket has its candle already, or is filled by the source. -/
def SourceCovers (c : SharedCandleCache) (targetTf : String) (targetMs : ℤ) (symbol : String) :
    Prop :=
  ∀ start, c.CompleteBelow targetTf targetMs symbol start →
    c.Permits targetTf targetMs symbol start →
    c.HoldsCandle targetTf symbol start ∨ c.SourceFills targetTf targetMs symbol start

variable {targetTf symbol : String} {targetMs start : ℤ}

/-- The candles that are built and pass the baseline are those of the buckets the source fills. -/
lemma mem_accepted_rolled (ht : rollupTfMs targetTf = some targetMs) :
    start ∈ (c.accepted targetTf (c.rolled targetTf targetMs symbol)).map RawCandle.openMs ↔
      c.SourceFills targetTf targetMs symbol start := by
  unfold rolled SourceFills
  cases hbest : c.bestSourceTf targetTf symbol with
  | none => simp [accepted]
  | some tf =>
    obtain ⟨hparts, -⟩ := parts_of_lower ht (List.mem_of_find?_eq_some hbest)
    have htimes : ((c.getTimes (symbol, tf) 0).filter fun t => bucketStart targetMs t = start) =
        ((c.tail (symbol, tf) 0).filter fun e => bucketStart targetMs e.1 = start).map Prod.fst := by
      rw [getTimes, List.filter_map]
      rfl
    have hbelow : ∀ bucket : List Bar,
        (!c.belowBaseline targetTf (rolledCandle start bucket)) = true ↔
          ∀ baseline, c.warmupBaseline.get? targetTf = some baseline → baseline ≤ start := by
      intro bucket
      unfold belowBaseline
      cases c.warmupBaseline.get? targetTf with
      | none => simp
      | some baseline =>
        simp only [rolledCandle, Option.getD_some, Option.some.injEq, forall_eq',
          Bool.not_eq_true']
        exact ⟨fun h => not_lt.mp (of_decide_eq_false h), fun h => decide_eq_false (not_lt.mpr h)⟩
    simp only [Option.some.injEq, exists_eq_left', htimes, List.mem_map, accepted, List.mem_filter]
    constructor
    · rintro ⟨candle, ⟨hcandle, hpass⟩, hopen⟩
      obtain ⟨start', htimes', rfl⟩ := (mem_rollupCandles hparts).mp hcandle
      obtain rfl : start' = start := hopen
      exact ⟨htimes', (hbelow _).mp hpass⟩
    · rintro ⟨htimes', hpass⟩
      exact ⟨_, ⟨(mem_rollupCandles hparts).mpr ⟨start, htimes', rfl⟩, (hbelow _).mpr hpass⟩, rfl⟩

lemma start_mem_parts {tf : String} (ht : rollupTfMs targetTf = some targetMs)
    (htf : tf ∈ lowerTfs targetTf) : start ∈ parts targetMs start tf := by
  obtain ⟨hparts, -⟩ := parts_of_lower ht htf
  refine List.mem_map.mpr ⟨0, List.mem_range.mpr hparts, ?_⟩
  simp

/-- What the source fills can be filled. -/
lemma SourceFills.completeBelow (h : c.SourceFills targetTf targetMs symbol start)
    (ht : rollupTfMs targetTf = some targetMs) :
    c.CompleteBelow targetTf targetMs symbol start := by
  obtain ⟨tf, hbest, htimes, -⟩ := h
  have htf : tf ∈ lowerTfs targetTf := List.mem_of_find?_eq_some hbest
  have hfirst : start ∈ parts targetMs start tf := start_mem_parts ht htf
  rw [← htimes, List.mem_filter, decide_eq_true_eq] at hfirst
  refine ⟨?_, tf, htf, ?_⟩
  · rw [← hfirst.2]
    exact dvd_mul_left _ _
  · rw [← htimes]
    exact List.filter_sublist.subset

/-- A bucket that can be filled is of a symbol, after the time zero. -/
lemma CompleteBelow.positive (h : c.CompleteBelow targetTf targetMs symbol start)
    (hc : c.Content) (ht : rollupTfMs targetTf = some targetMs) : 0 < start ∧ symbol ≠ "" := by
  obtain ⟨-, tf, htf, hparts⟩ := h
  obtain ⟨b, hb, hkeys⟩ := hc (symbol, tf)
  have hmem := hparts (start_mem_parts ht htf)
  rw [hb.getTimes, List.mem_reverse] at hmem
  exact hkeys start hmem

/-! ## The loop -/

/-- A roll-up leaves every other timeframe alone. -/
lemma agreesOn_rollupSymbols {tf s : String} (hne : tf ≠ targetTf) (total : ℕ)
    (symbols : List String) :
    AgreesOn (s, tf) c (rollupSymbols targetTf targetMs c total symbols).2 := by
  induction symbols generalizing c total with
  | nil => exact ⟨rfl, rfl, rfl⟩
  | cons symbol symbols ih =>
    have hkey : (symbol, targetTf) ≠ (s, tf) := fun heq => hne (Prod.mk.inj heq).2.symm
    exact (agreesOn_upsertCandles hkey _).trans (ih _)

/-- What is built depends on the lower timeframes of the symbol. -/
lemma rolled_congr {c' : SharedCandleCache} (targetMs : ℤ)
    (h : ∀ tf ∈ lowerTfs targetTf, AgreesOn (symbol, tf) c c') :
    c'.rolled targetTf targetMs symbol = c.rolled targetTf targetMs symbol := by
  have hbest : c'.bestSourceTf targetTf symbol = c.bestSourceTf targetTf symbol := by
    unfold bestSourceTf
    apply List.find?_congr
    intro tf htf
    rw [(h tf htf).getBarCount]
  unfold rolled
  rw [hbest]
  cases hfound : c.bestSourceTf targetTf symbol with
  | none => rfl
  | some tf =>
    dsimp only
    rw [(h tf (List.mem_of_find?_eq_some hfound)).tail]

/-- What is built opens after the time zero. -/
lemma rolled_positive (hc : c.Content) (ht : rollupTfMs targetTf = some targetMs)
    {candle : RawCandle} (h : candle ∈ c.rolled targetTf targetMs symbol) : 0 < candle.openMs := by
  unfold rolled at h
  cases hbest : c.bestSourceTf targetTf symbol with
  | none =>
    rw [hbest] at h
    exact absurd h List.not_mem_nil
  | some tf =>
    rw [hbest] at h
    have htf : tf ∈ lowerTfs targetTf := List.mem_of_find?_eq_some hbest
    obtain ⟨hparts, -⟩ := parts_of_lower ht htf
    obtain ⟨start, htimes, rfl⟩ := (mem_rollupCandles hparts).mp h
    obtain ⟨b, hb, hkeys⟩ := hc (symbol, tf)
    have hfirst : start ∈ parts targetMs start tf := start_mem_parts ht htf
    have hmem : start ∈ c.getTimes (symbol, tf) 0 := by
      rw [parts, ← htimes] at hfirst
      obtain ⟨e, he, rfl⟩ := List.mem_map.mp hfirst
      exact List.mem_map.mpr ⟨e, (List.mem_filter.mp he).1, rfl⟩
    rw [hb.getTimes, List.mem_reverse] at hmem
    exact (hkeys start hmem).1

/-- After the loop the map of the target holds what it held and what is built, up to the bound. -/
lemma refines_rollupSymbols {b : CandleBook} (hc : c.Content)
    (ht : rollupTfMs targetTf = some targetMs) (hsymbol : symbol ≠ "")
    (hb : c.Refines (symbol, targetTf) b) {symbols : List String} (hmem : symbol ∈ symbols) :
    ∃ m : SortedMap ℤ Ohlcv,
      (rollupSymbols targetTf targetMs c 0 symbols).2.Refines (symbol, targetTf)
        { b with book := m.keep (boundOf b.retained) } ∧
      ∀ t, t ∈ m.keys ↔ t ∈ b.book.keys ∨ c.SourceFills targetTf targetMs symbol t := by
  obtain ⟨htf, -⟩ := rollupTfMs_spec ht
  -- what a number of rounds leaves, with or without a round of the symbol
  suffices hloop : ∀ (symbols : List String) (c₁ : SharedCandleCache) (total : ℕ)
      (m : SortedMap ℤ Ohlcv),
      (∀ tf ∈ lowerTfs targetTf, AgreesOn (symbol, tf) c c₁) →
      c₁.warmupBaseline = c.warmupBaseline →
      c₁.Refines (symbol, targetTf) { b with book := m.keep (boundOf b.retained) } →
      (∀ t, t ∈ m.keys → t ∈ b.book.keys ∨ c.SourceFills targetTf targetMs symbol t) →
      (∀ t, t ∈ b.book.keys → t ∈ m.keys) →
      (symbol ∈ symbols ∨ ∀ t, c.SourceFills targetTf targetMs symbol t → t ∈ m.keys) →
      ∃ m' : SortedMap ℤ Ohlcv,
        (rollupSymbols targetTf targetMs c₁ total symbols).2.Refines (symbol, targetTf)
          { b with book := m'.keep (boundOf b.retained) } ∧
        ∀ t, t ∈ m'.keys ↔ t ∈ b.book.keys ∨ c.SourceFills targetTf targetMs symbol t by
    refine hloop symbols c 0 b.book (fun _ _ => ⟨rfl, rfl, rfl⟩) rfl ?_ (fun t => .inl)
      (fun t => id) (.inl hmem)
    rwa [hb.bounded]
  intro symbols
  induction symbols with
  | nil =>
    intro c₁ total m _ _ hrefines hold hnew hdone
    obtain hmem | hdone := hdone
    · exact absurd hmem List.not_mem_nil
    · exact ⟨m, hrefines, fun t => ⟨hold t, fun h => h.elim (hnew t) (hdone t)⟩⟩
  | cons s symbols ih =>
    intro c₁ total m hagrees hbaseline hrefines hold hnew hdone
    have hagrees' : ∀ candles, ∀ tf ∈ lowerTfs targetTf,
        AgreesOn (symbol, tf) c (c₁.upsertCandles (s, targetTf) candles) := by
      intro candles tf htf'
      have hkey : (s, targetTf) ≠ (symbol, tf) := fun heq =>
        (parts_of_lower ht htf').2 (Prod.mk.inj heq).2.symm
      exact (hagrees tf htf').trans (agreesOn_upsertCandles hkey candles)
    have hbaseline' : ∀ candles,
        (c₁.upsertCandles (s, targetTf) candles).warmupBaseline = c.warmupBaseline := fun candles =>
      (warmupBaseline_upsertCandles candles).trans hbaseline
    by_cases hs : s = symbol
    · subst hs
      -- a round of the symbol upserts what is built
      have hrolled := rolled_congr targetMs hagrees
      have hround := hrefines.upsertAll hsymbol htf
        fun candle (hcandle : candle ∈ c.rolled targetTf targetMs s) => rolled_positive hc ht hcandle
      rw [accepted_congr hbaseline, CandleBook.foldl_put] at hround
      dsimp only at hround
      rw [SortedMap.foldl_put_keep] at hround
      have hkeys : ∀ t, t ∈ (((c.accepted targetTf (c.rolled targetTf targetMs s)).map
          RawCandle.bar).foldl (fun m e => m.upsert e.1 e.2) m).keys ↔
            c.SourceFills targetTf targetMs s t ∨ t ∈ m.keys := by
        intro t
        rw [SortedMap.mem_keys_foldl_upsert, List.map_map, ← mem_accepted_rolled ht]
        rfl
      rw [rollupSymbols, hrolled]
      refine ih _ _ _ (hagrees' _) (hbaseline' _) hround ?_ ?_ (.inr ?_)
      · exact fun t h => ((hkeys t).mp h).elim .inr (hold t)
      · exact fun t h => (hkeys t).mpr (.inr (hnew t h))
      · exact fun t h => (hkeys t).mpr (.inl h)
    · have hkey : (s, targetTf) ≠ (symbol, targetTf) := fun heq => hs (Prod.mk.inj heq).1
      have hdone' := hdone.imp_left fun h => (List.mem_cons.mp h).resolve_left (Ne.symm hs)
      rw [rollupSymbols]
      exact ih _ _ m (hagrees' _) (hbaseline' _) (hrefines.upsertCandles_other hkey _) hold hnew
        hdone'

/-- The roll-up leaves a candle for every bucket that some lower timeframe can fill, retention
permitting, if and only if the source fills every such bucket that has no candle yet. -/
theorem rollup_completes_iff (hc : c.Content) (ht : rollupTfMs targetTf = some targetMs)
    {symbols : List String} (hmem : symbol ∈ symbols) :
    c.RollupCompletes targetTf targetMs symbols symbol ↔
      c.SourceCovers targetTf targetMs symbol := by
  unfold RollupCompletes SourceCovers
  refine forall_congr' fun start => forall_congr' fun hcomplete => forall_congr' fun hpermits => ?_
  obtain ⟨hpos, hsymbol⟩ := hcomplete.positive hc ht
  obtain ⟨b, hb, -⟩ := hc (symbol, targetTf)
  obtain ⟨m, hm, hkeys⟩ := refines_rollupSymbols hc ht hsymbol hb hmem
  have hheld : ∀ t, c.HoldsCandle targetTf symbol t ↔ t ∈ b.book.keys := by
    intro t
    rw [HoldsCandle, hb.getTimes, List.mem_reverse]
  have hafter : (c.rollupToTf targetTf symbols).2.HoldsCandle targetTf symbol start ↔
      start ∈ (m.keep (boundOf b.retained)).keys := by
    have hrun : c.rollupToTf targetTf symbols = rollupSymbols targetTf targetMs c 0 symbols := by
      unfold rollupToTf
      rw [ht]
    rw [HoldsCandle, hrun, hm.getTimes, List.mem_reverse]
  rw [hafter, hheld, ← hkeys]
  constructor
  · intro h
    rw [SortedMap.keys_keep] at h
    exact List.mem_of_mem_take h
  · intro h
    apply SortedMap.mem_keys_keep_of_few h
    rw [← hb.retained]
    apply hpermits _ (m.nodup_keys.filter _)
    intro t ht'
    obtain ⟨htm, hlt⟩ := List.mem_filter.mp ht'
    refine ⟨of_decide_eq_true hlt, ?_⟩
    obtain hold | hnew := (hkeys t).mp htm
    · exact .inl ((hheld t).mpr hold)
    · exact .inr (hnew.completeBelow ht)

/-! ## A single bar that hides a history -/

lemma Content.upsertCandles (h : c.Content) (k : CacheKey) (candles : List RawCandle) :
    (c.upsertCandles k candles).Content := by
  induction candles generalizing c with
  | nil => exact h
  | cons candle candles ih => exact ih (h.upsert k candle)

/-- Retention permits every candle where there is room for all that is held. -/
lemma permits_of_room (ht : rollupTfMs targetTf = some targetMs)
    (hroom : (c.getTimes (symbol, targetTf) 0 ++
      (lowerTfs targetTf).flatMap fun tf => c.getTimes (symbol, tf) 0).length <
        boundOf (c.retainedBars (symbol, targetTf))) :
    c.Permits targetTf targetMs symbol start := by
  intro newer hnodup hnewer
  refine lt_of_le_of_lt (hnodup.subperm fun t htmem => ?_).length_le hroom
  obtain ⟨-, hheld | ⟨-, tf, htf, hparts⟩⟩ := hnewer t htmem
  · exact List.mem_append_left _ hheld
  · refine List.mem_append_right _ (List.mem_flatMap.mpr ⟨tf, htf, ?_⟩)
    exact hparts (start_mem_parts ht htf)

/-- A quarter of an hour of 1m candles, and a later 5m one. -/
def strayCache : SharedCandleCache :=
  (SharedCandleCache.upsertCandles {} ("BTCUSDT", "1m")
    ((List.range 15).map fun i : ℕ => { openTime := some (900000 + i * 60000) })).upsertCandles
      ("BTCUSDT", "5m") [{ openTime := some 1800000 }]

/-- The same without the 5m candle. -/
def minutesOnly : SharedCandleCache :=
  SharedCandleCache.upsertCandles {} ("BTCUSDT", "1m")
    ((List.range 15).map fun i : ℕ => { openTime := some (900000 + i * 60000) })

lemma content_minutesOnly : minutesOnly.Content :=
  (content_init (Nat.zero_le _)).upsertCandles _ _

/-- The 15m candle that the minutes can fill is not built: the 5m candle is taken for the source. -/
theorem stray_bar_hides_history :
    ¬ strayCache.RollupCompletes "15m" 900000 ["BTCUSDT"] "BTCUSDT" := by
  intro hcompletes
  have ht : rollupTfMs "15m" = some 900000 := by decide
  have hparts : parts 900000 900000 "1m" ⊆ strayCache.getTimes ("BTCUSDT", "1m") 0 := by
    decide +kernel
  have hcomplete : strayCache.CompleteBelow "15m" 900000 "BTCUSDT" 900000 :=
    ⟨dvd_rfl, "1m", by decide, hparts⟩
  have hpermits : strayCache.Permits "15m" 900000 "BTCUSDT" 900000 :=
    permits_of_room ht (by decide +kernel)
  have hempty : (strayCache.rollupToTf "15m" ["BTCUSDT"]).2.getTimes ("BTCUSDT", "15m") 0 = [] := by
    decide +kernel
  have hheld := hcompletes 900000 hcomplete hpermits
  rw [HoldsCandle, hempty] at hheld
  exact List.not_mem_nil hheld

/-- Without it, the roll-up completes if and only if the minutes cover the buckets. -/
theorem rollup_completes_iff_minutesOnly :
    minutesOnly.RollupCompletes "15m" 900000 ["BTCUSDT"] "BTCUSDT" ↔
      minutesOnly.SourceCovers "15m" 900000 "BTCUSDT" :=
  have ht : rollupTfMs "15m" = some 900000 := by decide
  rollup_completes_iff content_minutesOnly ht (List.mem_singleton_self _)

end SharedCandleCache

end PaperTrade.Runner
