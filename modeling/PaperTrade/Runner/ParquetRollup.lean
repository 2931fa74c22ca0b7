import PaperTrade.Runner.RollupComposes

/-!
# The roll-up of parquet candles

Where a timeframe has no files of its own, `_restore_via_1m_rollup` rolls the candles of a lower one up
with `_rollup_candles`. Unlike `rollup_to_tf` it is not told the timeframe of the candles: it guesses it
from the distances between the first ten. The two build the same candles when two of the first ten in a
row are one timeframe apart, and else only where there is nothing to build (`rollups_agree_iff`).
-/

namespace PaperTrade.Runner

open PaperTrade.Runtime

/-! ## `_rollup_candles` -/

/-- `diffs`: the distances between open times in a row, where they grow. -/
def growthDiffs (times : List ℤ) : List ℤ :=
  (times.zip times.tail).filterMap fun p => if p.1 < p.2 then some (p.2 - p.1) else none

/-- `abs(min_diff - tf_val) < tf_val * 0.5`. -/
def isNear (minDiff tfVal : ℤ) : Bool := 2 * |minDiff - tfVal| < tfVal

/-- `_detect_source_tf_ms`. -/
def detectSourceTfMs (bars : List Bar) : Option ℤ :=
  if bars.length < 2 then none
  else
    match growthDiffs ((bars.take 10).map Prod.fst) with
    | [] => none
    | d :: diffs => (rollupTfs.map Prod.snd).find? (isNear (diffs.foldl min d))

/-- The timeframe that `_rollup_candles` goes by. -/
def assumedTfMs (bars : List Bar) : ℤ := (detectSourceTfMs bars).getD 60000

/-- `_rollup_candles`. -/
def rollupParquet (bars : List Bar) (targetTf : String) : List RawCandle :=
  match rollupTfMs targetTf with
  | none => []
  | some tfMs =>
    let sourceMs := assumedTfMs bars
    let buckets := rollupBuckets tfMs bars
    ((buckets.rows.map Prod.fst).insertionSort (· ≤ ·)).filterMap fun start =>
      let bucket := ((Dict.get? buckets start).getD []).insertionSort fun a b => a.1 ≤ b.1
      if bucket.map Prod.fst = expectedTimes start sourceMs (tfMs.fdiv sourceMs).toNat then
        some (rolledCandle start bucket)
      else none

/-! ## The cache that holds the candles -/

/-- A candle of a file, as `upsert_candle` reads it. -/
def candleOf (e : Bar) : RawCandle where
  openTime := some e.1
  «open» := some e.2.open
  high := some e.2.high
  low := some e.2.low
  close := some e.2.close
  volume := some e.2.volume

/-- A new cache with the candles. -/
def loadedCache (symbol sourceTf : String) (bars : List Bar) : SharedCandleCache :=
  SharedCandleCache.upsertCandles {} (symbol, sourceTf) (bars.map candleOf)

/-- Candles of one timeframe as they are read of files, no more than a cache holds. -/
structure ParquetSeries (sourceMs : ℤ) (bars : List Bar) : Prop where
  growing : Growing bars
  aligned : ∀ e ∈ bars, sourceMs ∣ e.1
  positive : ∀ e ∈ bars, 0 < e.1
  length_le : bars.length ≤ NumpyCandleBuffer.maxCapacity

/-- Two of the first ten in a row are one timeframe apart. -/
def ShowsStep (sourceMs : ℤ) (bars : List Bar) : Prop :=
  sourceMs ∈ growthDiffs ((bars.take 10).map Prod.fst)

instance (sourceMs : ℤ) (bars : List Bar) : Decidable (ShowsStep sourceMs bars) :=
  inferInstanceAs (Decidable (_ ∈ _))

/-- The bars of a bucket open just at the times that are expected of a source. -/
def Complete (tfMs sourceMs : ℤ) (bars : List Bar) (start : ℤ) : Prop :=
  bars.filter (fun e => bucketStart tfMs e.1 = start) ≠ [] ∧
  (bars.filter fun e => bucketStart tfMs e.1 = start).map Prod.fst =
    expectedTimes start sourceMs (tfMs.fdiv sourceMs).toNat

section Series

variable {tfMs sourceMs : ℤ} {bars : List Bar} {symbol sTf tTf : String} {sMs tMs : ℤ}

@[simp] lemma bar_candleOf (e : Bar) : (candleOf e).bar = e := rfl

/-- A key of the buckets is the bucket of a bar. -/
lemma filter_ne_nil_of_key {start : ℤ} (h : start ∈ (rollupBuckets tfMs bars).rows.map Prod.fst) :
    bars.filter (fun e => bucketStart tfMs e.1 = start) ≠ [] := by
  have hfold : ∀ (bars : List Bar) (d : Dict ℤ (List Bar)),
      Dict.get? (bars.foldl (fun buckets e =>
        buckets.set (bucketStart tfMs e.1)
          ((Dict.get? buckets (bucketStart tfMs e.1)).getD [] ++ [e])) d) start ≠ none →
      Dict.get? d start ≠ none ∨ ∃ e ∈ bars, bucketStart tfMs e.1 = start := by
    intro bars
    induction bars with
    | nil => exact fun d hd => .inl hd
    | cons e bars ih =>
      intro d hd
      rcases ih _ hd with hset | ⟨e', he', hstart⟩
      · rw [Dict.get?_set] at hset
        by_cases heq : start = bucketStart tfMs e.1
        · exact .inr ⟨e, List.mem_cons_self .., heq.symm⟩
        · rw [if_neg heq] at hset
          exact .inl hset
      · exact .inr ⟨e', List.mem_cons_of_mem _ he', hstart⟩
  obtain ⟨⟨start', bucket⟩, hrow, rfl⟩ := List.mem_map.mp h
  have hget := (Dict.get?_some_iff _ _ _).mpr hrow
  rcases hfold bars .empty (by rw [← rollupBuckets, hget]; simp) with hempty | ⟨e, he, hstart⟩
  · exact absurd rfl hempty
  · exact List.ne_nil_of_mem (List.mem_filter.mpr ⟨he, decide_eq_true hstart⟩)

/-- The candles of both roll-ups are those of the complete buckets. -/
lemma mem_rollup_iff {candle : RawCandle} :
    candle ∈ rollupCandles tfMs sourceMs bars ↔ ∃ start, Complete tfMs sourceMs bars start ∧
      candle = rolledCandle start (bars.filter fun e => bucketStart tfMs e.1 = start) := by
  simp only [rollupCandles, List.mem_filterMap, (List.perm_insertionSort _ _).mem_iff,
    get?_rollupBuckets]
  constructor
  · rintro ⟨start, hkey, hcandle⟩
    split at hcandle
    · rename_i htimes
      refine ⟨start, ⟨?_, htimes⟩, (Option.some.inj hcandle).symm⟩
      exact filter_ne_nil_of_key hkey
    · cases hcandle
  · rintro ⟨start, ⟨hne, htimes⟩, hcandle⟩
    exact ⟨start, mem_keys_rollupBuckets hne, by rw [if_pos htimes, hcandle]⟩

/-- Of growing candles the buckets grow already. -/
lemma rollupParquet_eq (hgrowing : Growing bars) (ht : rollupTfMs tTf = some tMs) :
    rollupParquet bars tTf = rollupCandles tMs (assumedTfMs bars) bars := by
  have hsorted : ∀ start, ((Dict.get? (rollupBuckets tMs bars) start).getD []).insertionSort
      (fun a b => a.1 ≤ b.1) = (Dict.get? (rollupBuckets tMs bars) start).getD [] := by
    intro start
    rw [get?_rollupBuckets]
    exact List.Pairwise.insertionSort_eq ((hgrowing.filter _).imp fun h => le_of_lt h)
  unfold rollupParquet rollupCandles
  rw [ht]
  simp only [hsorted]

lemma bars_candleOf (bars : List Bar) : (bars.map candleOf).map RawCandle.bar = bars := by
  rw [List.map_map]
  exact List.map_id bars

/-- The cache holds the candles. -/
lemma tail_loadedCache (h : ParquetSeries sMs bars) (hsymbol : symbol ≠ "") (hs : sTf ≠ "") :
    (loadedCache symbol sTf bars).tail (symbol, sTf) 0 = bars := by
  have htimes : ∀ candle ∈ bars.map candleOf, 0 < candle.openMs := by
    intro candle hcandle
    obtain ⟨e, he, rfl⟩ := List.mem_map.mp hcandle
    exact h.positive e he
  have hgrowing : Growing ((bars.map candleOf).map RawCandle.bar) := by
    rw [bars_candleOf]
    exact h.growing
  unfold loadedCache
  rw [SharedCandleCache.tail_upsertCandles (refines_new _) rfl rfl hsymbol hs htimes hgrowing,
    bars_candleOf, List.take_of_length_le, List.reverse_reverse]
  rw [List.length_reverse]
  exact h.length_le

/-- What `rollup_to_tf` builds of the cache. -/
lemma rolled_loadedCache (h : ParquetSeries sMs bars) (hsymbol : symbol ≠ "")
    (hs : rollupTfMs sTf = some sMs) (ht : rollupTfMs tTf = some tMs) (hlt : sMs < tMs) :
    (loadedCache symbol sTf bars).rolled tTf tMs symbol = rollupCandles tMs sMs bars := by
  obtain ⟨hlower, -⟩ := lower_of_lt hs ht hlt
  obtain ⟨hname, -⟩ := rollupTfMs_spec hs
  have honly : ∀ tf ∈ lowerTfs tTf, tf ≠ sTf →
      (loadedCache symbol sTf bars).getBarCount (symbol, tf) = 0 := by
    intro tf _ hne
    have hagrees : SharedCandleCache.AgreesOn (symbol, tf) {} (loadedCache symbol sTf bars) := by
      apply SharedCandleCache.agreesOn_upsertCandles
      exact fun heq => hne (Prod.mk.inj heq).2.symm
    exact hagrees.getBarCount
  have hms : sourceTfMs sTf = sMs := by rw [sourceTfMs, hs, Option.getD_some]
  rw [SharedCandleCache.rolled_of_only hlower honly, tail_loadedCache h hsymbol hname, hms]

/-! ## The guess -/

lemma mem_growthDiffs {times : List ℤ} {d : ℤ} :
    d ∈ growthDiffs times ↔ ∃ a b, (a, b) ∈ times.zip times.tail ∧ a < b ∧ d = b - a := by
  unfold growthDiffs
  rw [List.mem_filterMap]
  constructor
  · rintro ⟨⟨a, b⟩, hmem, hd⟩
    dsimp only at hd
    split at hd
    · rename_i hlt
      exact ⟨a, b, hmem, hlt, (Option.some.inj hd).symm⟩
    · cases hd
  · rintro ⟨a, b, hmem, hlt, rfl⟩
    exact ⟨(a, b), hmem, if_pos hlt⟩

/-- A distance is a number of timeframes. -/
lemma step_of_mem (haligned : ∀ e ∈ bars, sMs ∣ e.1) (hs : 0 < sMs) {d : ℤ}
    (hd : d ∈ growthDiffs ((bars.take 10).map Prod.fst)) : ∃ k : ℕ, 0 < k ∧ d = k * sMs := by
  obtain ⟨a, b, hmem, hlt, rfl⟩ := mem_growthDiffs.mp hd
  have hdvd : ∀ t ∈ (bars.take 10).map Prod.fst, sMs ∣ t := by
    intro t ht
    obtain ⟨e, he, rfl⟩ := List.mem_map.mp ht
    exact haligned e (List.mem_of_mem_take he)
  have ha := hdvd a (List.of_mem_zip hmem).1
  have hb := hdvd b (List.mem_of_mem_tail (List.of_mem_zip hmem).2)
  exact exists_parts hs (by omega) (dvd_sub hb ha)

/-- The shorter timeframes of the table are at most half of one. -/
private lemma table_half : ∀ e ∈ rollupTfs, ∀ ms ∈ rollupTfs.map Prod.snd, ms < e.2 → 2 * ms ≤ e.2 := by
  decide

private lemma table_sorted : (rollupTfs.map Prod.snd).Pairwise (· < ·) := by decide

/-- A distance of some timeframes is near the timeframe, and first near it, just when it is one of them. -/
lemma find_near_iff (hs : rollupTfMs sTf = some sMs) {k : ℕ} (hk : 0 < k) :
    (rollupTfs.map Prod.snd).find? (isNear (k * sMs)) = some sMs ↔ k = 1 := by
  obtain ⟨-, hpos, -⟩ := rollupTfMs_spec hs
  have hmem := mem_rollupTfs hs
  have hge : sMs ≤ k * sMs := le_mul_of_one_le_left hpos.le (by exact_mod_cast hk)
  constructor
  · intro hfind
    have hfound : isNear (k * sMs) sMs = true := List.find?_some hfind
    have hnear : 2 * |(k : ℤ) * sMs - sMs| < sMs := of_decide_eq_true hfound
    rw [abs_of_nonneg (by omega)] at hnear
    by_contra hne
    have htwo : 2 * sMs ≤ k * sMs := Int.mul_le_mul_of_nonneg_right (by omega) hpos.le
    omega
  · rintro rfl
    have hsMem : sMs ∈ rollupTfs.map Prod.snd := List.mem_map_of_mem (f := Prod.snd) hmem
    have hfound : isNear ((1 : ℕ) * sMs) sMs = true := decide_eq_true (by simpa using hpos)
    obtain ⟨l, r, heq⟩ := List.append_of_mem hsMem
    rw [heq, List.find?_append, List.find?_cons_of_pos hfound, List.find?_eq_none.mpr]
    · rfl
    · intro ms hms hnear
      have hsorted := table_sorted
      rw [heq, List.pairwise_append] at hsorted
      have hlt := hsorted.2.2 ms hms sMs (List.mem_cons_self ..)
      have hhalf := table_half _ hmem ms (heq ▸ List.mem_append_left _ hms) hlt
      have hnear : 2 * |((1 : ℕ) : ℤ) * sMs - ms| < ms := of_decide_eq_true hnear
      rw [Nat.cast_one, one_mul, abs_of_nonneg (by omega)] at hnear
      dsimp only at hhalf
      omega

lemma growthDiffs_short (hlength : bars.length < 2) :
    growthDiffs ((bars.take 10).map Prod.fst) = [] := by
  match bars with
  | [] => simp [growthDiffs]
  | [e] => simp [growthDiffs]
  | e :: e' :: rest => simp only [List.length_cons] at hlength; omega

/-- The timeframe of the candles is detected just when two of the first ten show it. -/
lemma detect_iff (haligned : ∀ e ∈ bars, sMs ∣ e.1) (hs : rollupTfMs sTf = some sMs) :
    detectSourceTfMs bars = some sMs ↔ ShowsStep sMs bars := by
  obtain ⟨-, hpos, -⟩ := rollupTfMs_spec hs
  unfold detectSourceTfMs ShowsStep
  split
  · rename_i hlength
    rw [growthDiffs_short hlength]
    simp
  · have hsteps : ∀ d ∈ growthDiffs ((bars.take 10).map Prod.fst), ∃ k : ℕ, 0 < k ∧ d = k * sMs :=
      fun d hd => step_of_mem haligned hpos hd
    generalize growthDiffs ((bars.take 10).map Prod.fst) = diffs at hsteps ⊢
    match diffs with
    | [] => simp
    | d :: diffs =>
      obtain ⟨hmin, hle⟩ : diffs.foldl min d ∈ d :: diffs ∧ ∀ b ∈ d :: diffs, diffs.foldl min d ≤ b :=
        List.min?_eq_some_iff.mp (List.min?_cons')
      obtain ⟨k, hk, heq⟩ := hsteps _ hmin
      show (rollupTfs.map Prod.snd).find? (isNear (diffs.foldl min d)) = some sMs ↔ _
      rw [heq, find_near_iff hs hk]
      constructor
      · rintro rfl
        rw [Nat.cast_one, one_mul] at heq
        exact heq ▸ hmin
      · intro hshows
        have hone := hle sMs hshows
        rw [heq] at hone
        by_contra hne
        have htwo : 2 * sMs ≤ k * sMs := Int.mul_le_mul_of_nonneg_right (by omega) hpos.le
        omega

/-- When `_rollup_candles` goes by the timeframe of the candles. -/
lemma assumed_iff (haligned : ∀ e ∈ bars, sMs ∣ e.1) (hs : rollupTfMs sTf = some sMs) :
    assumedTfMs bars = sMs ↔ ShowsStep sMs bars ∨ sMs = 60000 ∧ detectSourceTfMs bars = none := by
  rw [← detect_iff haligned hs]
  unfold assumedTfMs
  cases detectSourceTfMs bars with
  | none => simp [eq_comm]
  | some ms => simp

/-! ## When the roll-ups agree -/

/-- Another timeframe has another number of parts. -/
private lemma table_counts : ∀ t ∈ rollupTfs, ∀ e ∈ rollupTfs, ∀ f ∈ rollupTfs,
    0 < (t.2.fdiv e.2).toNat → (t.2.fdiv e.2).toNat = (t.2.fdiv f.2).toNat → e.2 = f.2 := by
  decide

lemma assumed_mem (bars : List Bar) : ∃ e ∈ rollupTfs, e.2 = assumedTfMs bars := by
  unfold assumedTfMs detectSourceTfMs
  split
  · exact ⟨("1m", 60000), by decide, rfl⟩
  · split
    · exact ⟨("1m", 60000), by decide, rfl⟩
    · rename_i d diffs _
      cases hfind : (rollupTfs.map Prod.snd).find? (isNear (diffs.foldl min d)) with
      | none => exact ⟨("1m", 60000), by decide, rfl⟩
      | some ms =>
        obtain ⟨e, he, rfl⟩ := List.mem_map.mp (List.mem_of_find?_eq_some hfind)
        exact ⟨e, he, rfl⟩

/-- A bucket is complete for one timeframe at most. -/
lemma complete_unique (hs : rollupTfMs sTf = some sMs) (ht : rollupTfMs tTf = some tMs) {start : ℤ}
    (hcomplete : Complete tMs sMs bars start) (hassumed : Complete tMs (assumedTfMs bars) bars start) :
    assumedTfMs bars = sMs := by
  obtain ⟨e, he, heq⟩ := assumed_mem bars
  have hlength := congrArg List.length (hcomplete.2.symm.trans hassumed.2)
  rw [length_expectedTimes, length_expectedTimes] at hlength
  have hpos : 0 < (tMs.fdiv sMs).toNat := by
    have hbars := List.length_pos_of_ne_nil hcomplete.1
    have hcount := congrArg List.length hcomplete.2
    rw [List.length_map, length_expectedTimes] at hcount
    omega
  rw [← heq] at hlength ⊢
  exact (table_counts _ (mem_rollupTfs ht) _ (mem_rollupTfs hs) _ he hpos hlength).symm

/-- Of candles as they are read of files, `_rollup_candles` builds what `rollup_to_tf` builds of a cache
that holds them just when two of the first ten in a row are one timeframe apart, or the candles are
minutes and nothing is detected, or there is nothing to build either way. -/
theorem rollups_agree_iff (symbol : String) {bars : List Bar} {sTf tTf : String} {sMs tMs : ℤ}
    (hsymbol : symbol ≠ "") (h : ParquetSeries sMs bars) (hs : rollupTfMs sTf = some sMs)
    (ht : rollupTfMs tTf = some tMs) (hlt : sMs < tMs) :
    rollupParquet bars tTf = (loadedCache symbol sTf bars).rolled tTf tMs symbol ↔
      ShowsStep sMs bars ∨ (sMs = 60000 ∧ detectSourceTfMs bars = none) ∨
        ∀ start, ¬ Complete tMs sMs bars start ∧ ¬ Complete tMs (assumedTfMs bars) bars start := by
  rw [rolled_loadedCache h hsymbol hs ht hlt, rollupParquet_eq h.growing ht, ← or_assoc,
    ← assumed_iff h.aligned hs]
  constructor
  · intro hagree
    by_cases hassumed : assumedTfMs bars = sMs
    · exact .inl hassumed
    · refine .inr fun start => ?_
      -- a candle of the one is a candle of the other, of the same bucket
      have hboth : Complete tMs sMs bars start ↔ Complete tMs (assumedTfMs bars) bars start := by
        constructor
        · intro hcomplete
          have hmem := mem_rollup_iff.mpr ⟨start, hcomplete, rfl⟩
          rw [← hagree] at hmem
          obtain ⟨start', hcomplete', heq⟩ := mem_rollup_iff.mp hmem
          have hstart : start = start' := Option.some.inj (congrArg RawCandle.openTime heq)
          exact hstart ▸ hcomplete'
        · intro hcomplete
          have hmem := mem_rollup_iff.mpr ⟨start, hcomplete, rfl⟩
          rw [hagree] at hmem
          obtain ⟨start', hcomplete', heq⟩ := mem_rollup_iff.mp hmem
          have hstart : start = start' := Option.some.inj (congrArg RawCandle.openTime heq)
          exact hstart ▸ hcomplete'
      constructor
      · exact fun hcomplete => hassumed (complete_unique hs ht hcomplete (hboth.mp hcomplete))
      · exact fun hcomplete => hassumed (complete_unique hs ht (hboth.mpr hcomplete) hcomplete)
  · rintro (hassumed | hnothing)
    · rw [hassumed]
    · have hnil : ∀ ms, (∀ start, ¬ Complete tMs ms bars start) → rollupCandles tMs ms bars = [] := by
        intro ms hnone
        apply List.eq_nil_iff_forall_not_mem.mpr
        intro candle hcandle
        obtain ⟨start, hcomplete, -⟩ := mem_rollup_iff.mp hcandle
        exact hnone start hcomplete
      rw [hnil _ fun start => (hnothing start).1, hnil _ fun start => (hnothing start).2]

end Series

/-- Minutes one after another. -/
def minutesFrom (first : ℤ) (n : ℕ) : List Bar :=
  (List.range n).map fun i : ℕ => (first + 60000 * i, default)

/-- Ten minutes, a gap, and five minutes more are rolled up in the same way. -/
theorem rollups_agree_iff_gap :
    rollupParquet (minutesFrom 1800000000 10 ++ minutesFrom 1800900000 5) "5m" =
      (loadedCache "BTCUSDT" "1m" (minutesFrom 1800000000 10 ++ minutesFrom 1800900000 5)).rolled "5m" 300000
        "BTCUSDT" := by
  refine (rollups_agree_iff "BTCUSDT" (by decide) ⟨?_, ?_, ?_, ?_⟩ rfl rfl (by decide)).mpr (.inl ?_)
  · unfold Growing
    decide +kernel
  · decide +kernel
  · decide +kernel
  · decide +kernel
  · decide +kernel

end PaperTrade.Runner
