import Mathlib.Data.List.Sort
import PaperTrade.Runner.WarmupFill
import PaperTrade.Runtime.Buckets

/-!
# Rolling candles up

`rollup_to_tf` builds the candles of a timeframe from those of a lower one: the source is the highest
lower timeframe that has any bar, its bars are put into the buckets of the target, and a bucket whose
bars open exactly at the expected times becomes a candle that is upserted.
-/

namespace PaperTrade.Runner

open PaperTrade.Runtime

/-! ## Timeframes -/

/-- `TF_MS`, in the order of `_TF_ORDER`. -/
def rollupTfs : List (String × ℤ) :=
  [("1m", 60000), ("5m", 300000), ("15m", 900000), ("30m", 1800000), ("1h", 3600000),
   ("4h", 14400000), ("1d", 86400000)]

/-- `_TF_ORDER`. -/
def tfOrder : List String := rollupTfs.map Prod.fst

/-- `TF_MS.get(tf)`. -/
def rollupTfMs (tf : String) : Option ℤ := rollupTfs.lookup tf

/-- The timeframes below the target, the highest first. -/
def lowerTfs (targetTf : String) : List String :=
  (tfOrder.take (tfOrder.idxOf targetTf)).reverse

/-- `TF_MS.get(tf, 60_000)`. -/
def sourceTfMs (tf : String) : ℤ := (rollupTfMs tf).getD 60000

/-- The lower timeframes come in the order of their lengths. -/
lemma lowerTfs_descending : ∀ e ∈ rollupTfs,
    (lowerTfs e.1).Pairwise fun a b => sourceTfMs b < sourceTfMs a := by
  decide

private lemma table_lower : ∀ e ∈ rollupTfs, ∀ f ∈ rollupTfs, e.2 < f.2 →
    e.1 ∈ lowerTfs f.1 ∧ "1m" ∈ lowerTfs f.1 ∧ e.1 ≠ f.1 ∧ f.1 ≠ "1m" ∧ e.2 ∣ f.2 := by
  decide

private lemma table_spec : ∀ e ∈ rollupTfs,
    e.1 ≠ "" ∧ 0 < e.2 ∧ 60000 ∣ e.2 ∧ (e.1 ≠ "1m" → 60000 < e.2) := by
  decide

/-- A timeframe of the table. -/
lemma mem_rollupTfs {tf : String} {ms : ℤ} (h : rollupTfMs tf = some ms) :
    (tf, ms) ∈ rollupTfs := by
  obtain ⟨l, r, heq, -⟩ := List.lookup_eq_some_iff.mp h
  rw [heq]
  exact List.mem_append_right _ (List.mem_cons_self ..)

private lemma table_parts : ∀ e ∈ rollupTfs, ∀ tf ∈ lowerTfs e.1,
    0 < (e.2.fdiv (sourceTfMs tf)).toNat ∧ tf ≠ e.1 := by
  decide

/-- A lower timeframe is another one, and there are parts of it. -/
lemma parts_of_lower {targetTf tf : String} {tfMs : ℤ} (h : rollupTfMs targetTf = some tfMs)
    (htf : tf ∈ lowerTfs targetTf) :
    0 < (tfMs.fdiv (sourceTfMs tf)).toNat ∧ tf ≠ targetTf :=
  table_parts _ (mem_rollupTfs h) tf htf

/-- A shorter timeframe is a lower one, and divides the longer. -/
lemma lower_of_lt {sTf tTf : String} {sMs tMs : ℤ} (hs : rollupTfMs sTf = some sMs)
    (ht : rollupTfMs tTf = some tMs) (hlt : sMs < tMs) :
    sTf ∈ lowerTfs tTf ∧ "1m" ∈ lowerTfs tTf ∧ sTf ≠ tTf ∧ tTf ≠ "1m" ∧ sMs ∣ tMs :=
  table_lower _ (mem_rollupTfs hs) _ (mem_rollupTfs ht) hlt

/-- Every timeframe is named, and whole minutes long. -/
lemma rollupTfMs_spec {tf : String} {tfMs : ℤ} (h : rollupTfMs tf = some tfMs) :
    tf ≠ "" ∧ 0 < tfMs ∧ 60000 ∣ tfMs ∧ (tf ≠ "1m" → 60000 < tfMs) :=
  table_spec _ (mem_rollupTfs h)

/-! ## Buckets of bars -/

/-- The bucket of an open time. -/
def bucketStart (tfMs openTime : ℤ) : ℤ := openTime.fdiv tfMs * tfMs

/-- `buckets`, with the bars in place of their indexes. -/
def rollupBuckets (tfMs : ℤ) (bars : List Bar) : Dict ℤ (List Bar) :=
  bars.foldl (fun buckets e =>
    buckets.set (bucketStart tfMs e.1)
      ((Dict.get? buckets (bucketStart tfMs e.1)).getD [] ++ [e])) .empty

/-- `expected_times`. -/
def expectedTimes (start sourceMs : ℤ) (parts : ℕ) : List ℤ :=
  (List.range parts).map fun i : ℕ => start + i * sourceMs

/-- The numbers of a rolled candle. -/
def rolledOhlcv (bucket : List Ohlcv) : Ohlcv where
  «open» := (bucket.headD default).open
  high := reduce PyFloat.max (bucket.map fun v => v.high)
  low := reduce PyFloat.min (bucket.map fun v => v.low)
  close := (bucket.getLastD default).close
  volume := (bucket.map fun v => v.volume).foldl (· + ·) 0

/-- The candle of a bucket, as `upsert_candle` reads it. -/
def rolledCandle (start : ℤ) (bucket : List Bar) : RawCandle :=
  let v := rolledOhlcv (bucket.map Prod.snd)
  { openTime := some start, «open» := some v.open, high := some v.high, low := some v.low
    close := some v.close, volume := some v.volume }

/-- The candles `rollup_to_tf` builds for one symbol. -/
def rollupCandles (tfMs sourceMs : ℤ) (bars : List Bar) : List RawCandle :=
  let buckets := rollupBuckets tfMs bars
  ((buckets.rows.map Prod.fst).insertionSort (· ≤ ·)).filterMap fun start =>
    let bucket := (Dict.get? buckets start).getD []
    if bucket.map Prod.fst = expectedTimes start sourceMs (tfMs.fdiv sourceMs).toNat then
      some (rolledCandle start bucket)
    else none

namespace SharedCandleCache

variable (c : SharedCandleCache)

/-- `_best_source_tf`. -/
def bestSourceTf (targetTf symbol : String) : Option String :=
  (lowerTfs targetTf).find? fun tf => 0 < c.getBarCount (symbol, tf)

/-- The upserts of a number of candles. -/
def upsertCandles (key : CacheKey) (candles : List RawCandle) : SharedCandleCache :=
  candles.foldl (fun c candle => c.upsertCandle key candle) c

/-- The candles of `target_tf` for one symbol. -/
def rolled (targetTf : String) (tfMs : ℤ) (symbol : String) : List RawCandle :=
  match c.bestSourceTf targetTf symbol with
  | none => []
  | some sourceTf =>
    rollupCandles tfMs (sourceTfMs sourceTf) (c.tail (symbol, sourceTf) 0)

/-- The loop of `rollup_to_tf` over the symbols, with the number of candles built. -/
def rollupSymbols (targetTf : String) (tfMs : ℤ) :
    SharedCandleCache → ℕ → List String → ℕ × SharedCandleCache
  | c, total, [] => (total, c)
  | c, total, symbol :: symbols =>
    let candles := c.rolled targetTf tfMs symbol
    rollupSymbols targetTf tfMs (c.upsertCandles (symbol, targetTf) candles)
      (total + candles.length) symbols

/-- `rollup_to_tf`. -/
def rollupToTf (targetTf : String) (symbols : List String) : ℕ × SharedCandleCache :=
  match rollupTfMs targetTf with
  | none => (0, c)
  | some tfMs => rollupSymbols targetTf tfMs c 0 symbols

end SharedCandleCache

@[simp] lemma length_expectedTimes (start sourceMs : ℤ) (parts : ℕ) :
    (expectedTimes start sourceMs parts).length = parts := by
  rw [expectedTimes, List.length_map, List.length_range]

/-! ## What a bucket holds -/

section Buckets

variable {tfMs : ℤ} {bars : List Bar}

private lemma foldl_buckets (d : Dict ℤ (List Bar)) (start : ℤ) :
    (Dict.get? (bars.foldl (fun buckets e =>
      buckets.set (bucketStart tfMs e.1)
        ((Dict.get? buckets (bucketStart tfMs e.1)).getD [] ++ [e])) d) start).getD [] =
      (Dict.get? d start).getD [] ++ bars.filter fun e => bucketStart tfMs e.1 = start := by
  induction bars generalizing d with
  | nil => simp
  | cons e bars ih =>
    rw [List.foldl_cons, ih, Dict.get?_set]
    by_cases h : start = bucketStart tfMs e.1
    · subst h
      simp
    · rw [if_neg h, List.filter_cons_of_neg (by simpa using Ne.symm h)]

/-- A bucket holds the bars of its time. -/
lemma get?_rollupBuckets (start : ℤ) :
    (Dict.get? (rollupBuckets tfMs bars) start).getD [] =
      bars.filter fun e => bucketStart tfMs e.1 = start := by
  rw [rollupBuckets, foldl_buckets]
  rfl

/-- A bucket with bars is a key. -/
lemma mem_keys_rollupBuckets {start : ℤ}
    (h : (bars.filter fun e => bucketStart tfMs e.1 = start) ≠ []) :
    start ∈ (rollupBuckets tfMs bars).rows.map Prod.fst := by
  rw [← get?_rollupBuckets] at h
  cases hget : Dict.get? (rollupBuckets tfMs bars) start with
  | none =>
    rw [hget] at h
    exact absurd rfl h
  | some bucket => exact List.mem_map.mpr ⟨_, (Dict.get?_some_iff _ _ _).mp hget, rfl⟩

/-- The candles that are built: one for each bucket whose bars open at the expected times. -/
lemma mem_rollupCandles {sourceMs : ℤ} (hparts : 0 < (tfMs.fdiv sourceMs).toNat)
    {candle : RawCandle} :
    candle ∈ rollupCandles tfMs sourceMs bars ↔ ∃ start,
      (bars.filter fun e => bucketStart tfMs e.1 = start).map Prod.fst =
        expectedTimes start sourceMs (tfMs.fdiv sourceMs).toNat ∧
      candle = rolledCandle start (bars.filter fun e => bucketStart tfMs e.1 = start) := by
  simp only [rollupCandles, List.mem_filterMap, (List.perm_insertionSort _ _).mem_iff,
    get?_rollupBuckets]
  constructor
  · rintro ⟨start, -, hcandle⟩
    split at hcandle
    · rename_i htimes
      exact ⟨start, htimes, (Option.some.inj hcandle).symm⟩
    · cases hcandle
  · rintro ⟨start, htimes, hcandle⟩
    refine ⟨start, mem_keys_rollupBuckets ?_, ?_⟩
    · intro hempty
      rw [hempty] at htimes
      have hlength := congrArg List.length htimes
      rw [length_expectedTimes, List.map_nil, List.length_nil] at hlength
      omega
    · rw [if_pos htimes, hcandle]

/-- Their open times grow. -/
lemma rollupCandles_sorted (sourceMs : ℤ) :
    (rollupCandles tfMs sourceMs bars).Pairwise fun a b => a.openMs < b.openMs := by
  have hsorted : ((rollupBuckets tfMs bars).rows.map Prod.fst).insertionSort (· ≤ ·)
      |>.Pairwise (· < ·) := by
    have hle := List.pairwise_insertionSort (· ≤ ·) ((rollupBuckets tfMs bars).rows.map Prod.fst)
    have hnodup : (((rollupBuckets tfMs bars).rows.map Prod.fst).insertionSort (· ≤ ·)).Nodup :=
      (List.perm_insertionSort _ _).nodup_iff.mpr (rollupBuckets tfMs bars).nodup_keys
    exact (hle.and hnodup).imp fun h => lt_of_le_of_ne h.1 h.2
  unfold rollupCandles
  rw [List.pairwise_filterMap]
  refine hsorted.imp fun {a b} hab candle hcandle candle' hcandle' => ?_
  dsimp only at hcandle hcandle'
  split at hcandle
  · split at hcandle'
    · cases hcandle
      cases hcandle'
      exact hab
    · cases hcandle'
  · cases hcandle

end Buckets

/-! ## The numbers of a bucket -/

/-- The numbers of two adjacent candles. -/
def Ohlcv.join (a b : Ohlcv) : Ohlcv where
  «open» := a.open
  high := a.high.max b.high
  low := a.low.min b.low
  close := b.close
  volume := a.volume + b.volume

/-- The high and the low are numbers. -/
def Ohlcv.IsNumber (v : Ohlcv) : Prop := v.high ≠ .nan ∧ v.low ≠ .nan

instance (v : Ohlcv) : Decidable v.IsNumber := inferInstanceAs (Decidable (_ ∧ _))

/-- The numbers of a bucket are those of its candles, joined. -/
lemma rolledOhlcv_eq_reduce {bucket : List Ohlcv} (h : bucket ≠ []) :
    rolledOhlcv bucket = reduce Ohlcv.join bucket := by
  cases bucket with
  | nil => exact absurd rfl h
  | cons v l =>
    have hfold : ∀ (l : List Ohlcv) (v : Ohlcv), l.foldl Ohlcv.join v =
        { «open» := v.open
          high := (l.map fun v => v.high).foldl PyFloat.max v.high
          low := (l.map fun v => v.low).foldl PyFloat.min v.low
          close := (l.getLastD v).close
          volume := (l.map fun v => v.volume).foldl (· + ·) v.volume } := by
      intro l
      induction l with
      | nil => intro v; rfl
      | cons w l ih =>
        intro v
        rw [List.foldl_cons, ih]
        cases l <;> rfl
    have hvolume : 0 + v.volume = v.volume := PyFloat.zero_add v.volume
    show rolledOhlcv (v :: l) = l.foldl Ohlcv.join v
    rw [hfold]
    simp only [rolledOhlcv, List.headD_cons, List.map_cons, reduce, List.foldl_cons, hvolume,
      List.getLastD_cons]

/-- Joining candles with numbers is associative. -/
lemma assocOn_join : AssocOn Ohlcv.IsNumber Ohlcv.join where
  closed hx hy := ⟨PyFloat.max_ne_nan hx.1 hy.1, PyFloat.min_ne_nan hx.2 hy.2⟩
  assoc {x y z} hx hy hz := by
    unfold Ohlcv.join
    rw [PyFloat.max_max hx.1 hy.1 hz.1, PyFloat.min_min hx.2 hy.2 hz.2, PyFloat.add_assoc]

/-! ## Bars as a series -/

/-- The bars grow in time. -/
def Growing (bars : List Bar) : Prop := bars.Pairwise fun a b => a.1 < b.1

/-- The numbers at an open time. -/
def seriesOf (bars : List Bar) (t : ℤ) : Option Ohlcv := bars.lookup t

lemma seriesOf_eq_some {bars : List Bar} (h : Growing bars) {t : ℤ} {v : Ohlcv} :
    seriesOf bars t = some v ↔ (t, v) ∈ bars := by
  induction bars with
  | nil => simp [seriesOf]
  | cons e bars ih =>
    obtain ⟨u, w⟩ := e
    obtain ⟨hlt, hrest⟩ := List.pairwise_cons.mp h
    by_cases heq : t = u
    · subst heq
      have hnot : (t, v) ∉ bars := fun hmem => lt_irrefl t (hlt _ hmem)
      simp [seriesOf, hnot, eq_comm]
    · have hne : (t == u) = false := by simpa using heq
      rw [List.mem_cons, ← ih hrest]
      simp [seriesOf, List.lookup_cons, hne, heq]

lemma Growing.nodup {bars : List Bar} (h : Growing bars) : bars.Nodup := by
  refine h.imp fun {a b} hlt heq => ?_
  rw [heq] at hlt
  exact lt_irrefl _ hlt

/-- Growing lists with the same members are the same. -/
lemma Growing.ext {l l' : List Bar} (h : Growing l) (h' : Growing l')
    (hmem : ∀ e, e ∈ l ↔ e ∈ l') : l = l' := by
  have hperm : l.Perm l' := (List.perm_ext_iff_of_nodup h.nodup h'.nodup).mpr hmem
  exact hperm.eq_of_pairwise (fun a b _ _ hab hba => absurd hba hab.asymm) h h'

section Emission

variable {tfMs sourceMs : ℤ} {bars : List Bar} {start : ℤ} {n : ℕ} {v : Ohlcv}

/-- The time of a bucket in a number of source timeframes. -/
lemma bucketStart_eq_iff (htf : 0 < tfMs) {t : ℤ} :
    bucketStart tfMs t = start ↔ tfMs ∣ start ∧ start ≤ t ∧ t < start + tfMs := by
  have hdiv : t.fdiv tfMs = t / tfMs := Int.fdiv_eq_ediv_of_nonneg t htf.le
  have hmod := Int.emod_add_mul_ediv t tfMs
  have hnonneg := Int.emod_nonneg t htf.ne'
  have hlt := Int.emod_lt_of_pos t htf
  rw [bucketStart, hdiv, mul_comm]
  constructor
  · rintro rfl
    exact ⟨dvd_mul_right _ _, by omega, by omega⟩
  · rintro ⟨⟨k, rfl⟩, hle, hlt'⟩
    have hk : t / tfMs = k := by
      rw [Int.ediv_eq_iff_of_pos htf]
      constructor <;> linarith
    rw [hk]

lemma bar_rolledCandle (start : ℤ) (bucket : List Bar) :
    (rolledCandle start bucket).bar = (start, rolledOhlcv (bucket.map Prod.snd)) := rfl

/-- The bars of a complete bucket. -/
def bucketBars (start sourceMs : ℤ) (n : ℕ) (g : ℕ → Ohlcv) : List Bar :=
  (List.range n).map fun i : ℕ => (start + i * sourceMs, g i)

lemma growing_bucketBars (hsource : 0 < sourceMs) (g : ℕ → Ohlcv) :
    Growing (bucketBars start sourceMs n g) := by
  unfold Growing bucketBars
  rw [List.pairwise_map]
  refine List.pairwise_lt_range.imp fun {i j} hij => ?_
  have hlt : (i : ℤ) * sourceMs < j * sourceMs :=
    mul_lt_mul_of_pos_right (by exact_mod_cast hij) hsource
  dsimp only
  omega

lemma mem_bucketBars {g : ℕ → Ohlcv} {e : Bar} :
    e ∈ bucketBars start sourceMs n g ↔ ∃ i < n, e = (start + i * sourceMs, g i) := by
  simp only [bucketBars, List.mem_map, List.mem_range, eq_comm]

lemma map_snd_bucketBars (g : ℕ → Ohlcv) :
    (bucketBars start sourceMs n g).map Prod.snd = (List.range n).map g := by
  rw [bucketBars, List.map_map]
  rfl

lemma map_fst_bucketBars (g : ℕ → Ohlcv) :
    (bucketBars start sourceMs n g).map Prod.fst = expectedTimes start sourceMs n := by
  rw [bucketBars, expectedTimes, List.map_map]
  rfl

/-- Bars at the expected times are those of a complete bucket. -/
lemma eq_bucketBars {bucket : List Bar}
    (htimes : bucket.map Prod.fst = expectedTimes start sourceMs n) :
    ∃ g, bucket = bucketBars start sourceMs n g := by
  have hlength : bucket.length = n := by
    rw [← List.length_map Prod.fst, htimes, length_expectedTimes]
  refine ⟨fun i => (bucket[i]?.getD default).2, List.ext_getElem ?_ fun i hi hi' => ?_⟩
  · rw [hlength, bucketBars, List.length_map, List.length_range]
  · have htime : (bucket.map Prod.fst)[i]? = (expectedTimes start sourceMs n)[i]? := by
      rw [htimes]
    have hrange : i < n := hlength ▸ hi
    rw [List.getElem?_map, List.getElem?_eq_getElem hi, expectedTimes, List.getElem?_map,
      List.getElem?_range hrange, Option.map_some, Option.map_some, Option.some.injEq] at htime
    simp only [bucketBars, List.getElem_map, List.getElem_range]
    rw [← htime, List.getElem?_eq_getElem hi, Option.getD_some]

/-- The points of a bucket lie in it. -/
lemma bucketStart_point (hsource : 0 < sourceMs) (htf : tfMs = n * sourceMs) (hdvd : tfMs ∣ start)
    {i : ℕ} (hi : i < n) : bucketStart tfMs (start + i * sourceMs) = start := by
  have htfpos : 0 < tfMs := by
    rw [htf]
    have hn : (0 : ℤ) < n := by exact_mod_cast (Nat.zero_le i).trans_lt hi
    positivity
  have hlt : (i : ℤ) * sourceMs < n * sourceMs :=
    mul_lt_mul_of_pos_right (by exact_mod_cast hi) hsource
  have hnonneg : (0 : ℤ) ≤ i * sourceMs := by positivity
  rw [bucketStart_eq_iff htfpos, htf]
  exact ⟨htf ▸ hdvd, by omega, by omega⟩

/-- A bucket of aligned bars holds its expected times exactly when they are all there. -/
lemma filter_bucket_iff (hgrowing : Growing bars) (haligned : ∀ e ∈ bars, sourceMs ∣ e.1)
    (hsource : 0 < sourceMs) (hn : 0 < n) (htf : tfMs = n * sourceMs) {g : ℕ → Ohlcv} :
    (bars.filter fun e => bucketStart tfMs e.1 = start) = bucketBars start sourceMs n g ↔
      tfMs ∣ start ∧ ∀ i < n, seriesOf bars (start + i * sourceMs) = some (g i) := by
  have htfpos : 0 < tfMs := by
    rw [htf]
    positivity
  constructor
  · intro hbucket
    have hmem : ∀ i < n, ((start + i * sourceMs, g i) : Bar) ∈ bars.filter fun e =>
        bucketStart tfMs e.1 = start := by
      intro i hi
      rw [hbucket, mem_bucketBars]
      exact ⟨i, hi, rfl⟩
    constructor
    · have hfirst := (List.mem_filter.mp (hmem 0 hn)).2
      exact ((bucketStart_eq_iff htfpos).mp (of_decide_eq_true hfirst)).1
    · intro i hi
      rw [seriesOf_eq_some hgrowing]
      exact (List.mem_filter.mp (hmem i hi)).1
  · rintro ⟨hdvd, hpoints⟩
    apply Growing.ext (hgrowing.filter _) (growing_bucketBars hsource g)
    intro e
    rw [List.mem_filter, mem_bucketBars, decide_eq_true_eq]
    constructor
    · rintro ⟨he, hstart⟩
      obtain ⟨-, hle, hlt⟩ := (bucketStart_eq_iff htfpos).mp hstart
      -- the open time is a point of the bucket
      obtain ⟨k, hk⟩ : sourceMs ∣ e.1 - start := by
        refine dvd_sub (haligned e he) (dvd_trans ?_ hdvd)
        rw [htf]
        exact dvd_mul_left _ _
      have hk0 : 0 ≤ k := by
        by_contra hneg
        have hprod : sourceMs * k < 0 := mul_neg_of_pos_of_neg hsource (not_le.mp hneg)
        omega
      have hkn : k < n := by
        rw [htf] at hlt
        have hprod : sourceMs * k < sourceMs * n := by
          rw [mul_comm sourceMs (n : ℤ)]
          omega
        exact lt_of_mul_lt_mul_left hprod hsource.le
      obtain ⟨i, rfl⟩ := Int.eq_ofNat_of_zero_le hk0
      have hi : i < n := by exact_mod_cast hkn
      have htime : e.1 = start + i * sourceMs := by
        rw [mul_comm]
        omega
      refine ⟨i, hi, ?_⟩
      have hvalue := hpoints i hi
      rw [← htime, (seriesOf_eq_some hgrowing).mpr (show ((e.1, e.2) : Bar) ∈ bars from he)] at hvalue
      rw [← htime, ← Option.some.inj hvalue]
    · rintro ⟨i, hi, rfl⟩
      exact ⟨(seriesOf_eq_some hgrowing).mp (hpoints i hi), bucketStart_point hsource htf hdvd hi⟩

/-- What is built from aligned bars: the complete buckets, with their values. -/
theorem bar_mem_rollupCandles (hgrowing : Growing bars) (haligned : ∀ e ∈ bars, sourceMs ∣ e.1)
    (hsource : 0 < sourceMs) (hn : 0 < n) (htf : tfMs = n * sourceMs) :
    (start, v) ∈ (rollupCandles tfMs sourceMs bars).map RawCandle.bar ↔
      tfMs ∣ start ∧ BucketValue Ohlcv.join (seriesOf bars) sourceMs n start v := by
  have hparts : (tfMs.fdiv sourceMs).toNat = n := by
    rw [htf, Int.fdiv_eq_ediv_of_nonneg _ hsource.le, Int.mul_ediv_cancel _ hsource.ne',
      Int.toNat_natCast]
  have hvalue : ∀ g : ℕ → Ohlcv, rolledOhlcv ((bucketBars start sourceMs n g).map Prod.snd) =
      reduce Ohlcv.join ((List.range n).map g) := by
    intro g
    rw [map_snd_bucketBars]
    exact rolledOhlcv_eq_reduce (by simpa using hn.ne')
  simp only [List.mem_map, mem_rollupCandles (by rw [hparts]; exact hn), hparts]
  constructor
  · rintro ⟨candle, ⟨start', htimes, rfl⟩, hbar⟩
    rw [bar_rolledCandle, Prod.mk.injEq] at hbar
    obtain ⟨rfl, rfl⟩ := hbar
    obtain ⟨g, hbucket⟩ := eq_bucketBars htimes
    obtain ⟨hdvd, hpoints⟩ :=
      (filter_bucket_iff hgrowing haligned hsource hn htf).mp hbucket
    refine ⟨hdvd, g, hpoints, ?_⟩
    rw [← hvalue g, ← hbucket]
  · rintro ⟨hdvd, g, hpoints, rfl⟩
    have hbucket := (filter_bucket_iff hgrowing haligned hsource hn htf).mpr ⟨hdvd, hpoints⟩
    refine ⟨_, ⟨start, ?_, rfl⟩, ?_⟩
    · rw [hbucket, map_fst_bucketBars]
    · rw [bar_rolledCandle, hbucket, hvalue g]

end Emission

/-! ## Upserts -/

/-- Growing entries into an empty map. -/
lemma entries_foldl_put {bars : List Bar} (h : Growing bars) (n : ℕ) :
    (bars.foldl (SortedMap.put n) .empty).entries = bars.reverse.take n := by
  have hall : ∀ (bars : List Bar) (m : SortedMap ℤ Ohlcv), Growing bars →
      (∀ a ∈ m.entries, ∀ e ∈ bars, a.1 < e.1) →
      (bars.foldl (fun m e => m.upsert e.1 e.2) m).entries = bars.reverse ++ m.entries := by
    intro bars
    induction bars with
    | nil => intro m _ _; rfl
    | cons e bars ih =>
      intro m hbars hm
      obtain ⟨hfirst, hrest⟩ := List.pairwise_cons.mp hbars
      have hnew : (m.upsert e.1 e.2).entries = e :: m.entries := by
        rw [SortedMap.entries_upsert]
        exact SortedMap.upsertEntry_cons fun a ha => hm a ha e (List.mem_cons_self ..)
      rw [List.foldl_cons, ih _ hrest, hnew, List.reverse_cons, List.append_assoc]
      · rfl
      · intro a ha e' he'
        rw [hnew] at ha
        obtain rfl | ha := List.mem_cons.mp ha
        · exact hfirst e' he'
        · exact hm a ha e' (List.mem_cons_of_mem _ he')
  have hput := SortedMap.foldl_put_keep n bars .empty
  rw [SortedMap.keep_empty] at hput
  rw [hput, SortedMap.entries_keep, hall bars .empty h fun a ha => absurd ha List.not_mem_nil,
    SortedMap.entries_empty, List.append_nil]

namespace SharedCandleCache

variable {c : SharedCandleCache} {key : CacheKey} {b : CandleBook}

/-- A candle that is not above zero, or without a symbol, is ignored. -/
lemma upsertCandle_of_ignored {candle : RawCandle} (h : key.1 = "" ∨ candle.openMs ≤ 0) :
    c.upsertCandle key candle = c := by
  unfold upsertCandle
  split
  · rfl
  · rw [if_pos]
    tauto

lemma upsertCandles_of_ignored {candles : List RawCandle}
    (h : ∀ candle ∈ candles, key.1 = "" ∨ candle.openMs ≤ 0) : c.upsertCandles key candles = c := by
  induction candles generalizing c with
  | nil => rfl
  | cons candle candles ih =>
    rw [upsertCandles, List.foldl_cons, upsertCandle_of_ignored (h candle (List.mem_cons_self ..))]
    exact ih fun a ha => h a (List.mem_cons_of_mem _ ha)

/-- Only the candles above zero count. -/
lemma upsertCandles_filter (candles : List RawCandle) :
    c.upsertCandles key candles =
      c.upsertCandles key (candles.filter fun candle => 0 < candle.openMs) := by
  induction candles generalizing c with
  | nil => rfl
  | cons candle candles ih =>
    by_cases hpos : 0 < candle.openMs
    · rw [List.filter_cons_of_pos (by simpa using hpos)]
      exact ih
    · rw [List.filter_cons_of_neg (by simpa using hpos), upsertCandles, List.foldl_cons,
        upsertCandle_of_ignored (.inr (not_lt.mp hpos))]
      exact ih

lemma tail_of_getBarCount (h : c.getBarCount key = 0) : c.tail key 0 = [] := by
  unfold getBarCount at h
  unfold tail
  cases hdata : c.data.get? key with
  | none => rfl
  | some sd =>
    rw [hdata] at h
    exact if_pos h

/-- The source is the highest lower timeframe that has a bar. -/
lemma bestSourceTf_eq {targetTf sourceTf symbol : String} {tfMs : ℤ}
    (htarget : rollupTfMs targetTf = some tfMs) (hmem : sourceTf ∈ lowerTfs targetTf)
    (hpos : 0 < c.getBarCount (symbol, sourceTf))
    (hhighest : ∀ tf ∈ lowerTfs targetTf, 0 < c.getBarCount (symbol, tf) →
      sourceTfMs tf ≤ sourceTfMs sourceTf) :
    c.bestSourceTf targetTf symbol = some sourceTf := by
  have hdescending := lowerTfs_descending _ (mem_rollupTfs htarget)
  cases hbest : c.bestSourceTf targetTf symbol with
  | none =>
    have hnone := List.find?_eq_none.mp hbest sourceTf hmem
    exact absurd hpos (by simpa using hnone)
  | some tf =>
    obtain ⟨hfound, l, r, heq, hbefore⟩ := List.find?_eq_some_iff_append.mp hbest
    have hle := hhighest tf (List.mem_of_find?_eq_some hbest) (by simpa using hfound)
    rw [heq] at hmem hdescending
    obtain hl | hr := List.mem_append.mp hmem
    · have hnot := hbefore sourceTf hl
      exact absurd hpos (by simpa using hnot)
    · obtain rfl | hr := List.mem_cons.mp hr
      · rfl
      · have hlt := (List.pairwise_cons.mp (List.pairwise_append.mp hdescending).2.1).1 _ hr
        omega

/-- Where no other lower timeframe has a bar, the candles are rolled from the one that may have. -/
lemma rolled_of_only {targetTf sourceTf symbol : String} {tfMs : ℤ}
    (hmem : sourceTf ∈ lowerTfs targetTf)
    (honly : ∀ tf ∈ lowerTfs targetTf, tf ≠ sourceTf → c.getBarCount (symbol, tf) = 0) :
    c.rolled targetTf tfMs symbol =
      rollupCandles tfMs (sourceTfMs sourceTf) (c.tail (symbol, sourceTf) 0) := by
  unfold rolled
  cases hbest : c.bestSourceTf targetTf symbol with
  | none =>
    have hnone := List.find?_eq_none.mp hbest sourceTf hmem
    have hzero : c.getBarCount (symbol, sourceTf) = 0 := by simpa using hnone
    rw [tail_of_getBarCount hzero]
    rfl
  | some tf =>
    have hpos : 0 < c.getBarCount (symbol, tf) := by simpa using List.find?_some hbest
    have heq : tf = sourceTf := by
      by_contra hne
      have hzero := honly tf (List.mem_of_find?_eq_some hbest) hne
      omega
    rw [heq]

/-- Candles built for a key without bars are what it holds, when there is room for them. -/
lemma tail_upsertCandles (h : c.Refines key b) (hempty : b.book = .empty)
    (hbaseline : c.warmupBaseline = .empty) (hsymbol : key.1 ≠ "") (htf : key.2 ≠ "")
    {candles : List RawCandle} (htimes : ∀ candle ∈ candles, 0 < candle.openMs)
    (hgrowing : Growing (candles.map RawCandle.bar)) :
    (c.upsertCandles key candles).tail key 0 =
      (((candles.map RawCandle.bar).reverse.take (boundOf b.retained)).reverse) := by
  have hall : c.accepted key.2 candles = candles := by
    refine List.filter_eq_self.mpr fun candle _ => ?_
    unfold belowBaseline
    rw [hbaseline]
    rfl
  have hrefines := h.upsertAll hsymbol htf htimes
  have htail := hrefines.tail 0
  rw [hall, CandleBook.foldl_put, CandleBook.newest, if_pos le_rfl] at htail
  rw [upsertCandles, htail, hempty, entries_foldl_put hgrowing]

lemma agreesOn_upsertCandles {k : CacheKey} (hne : k ≠ key) (candles : List RawCandle) :
    AgreesOn key c (c.upsertCandles k candles) :=
  AgreesOn.upserts c hne candles

lemma Refines.upsertCandles_other (h : c.Refines key b) {k : CacheKey} (hne : k ≠ key)
    (candles : List RawCandle) : (c.upsertCandles k candles).Refines key b := by
  induction candles generalizing c with
  | nil => exact h
  | cons candle candles ih => exact ih (h.upsert_other hne candle)

lemma warmupBaseline_upsertCandles (candles : List RawCandle) :
    (c.upsertCandles key candles).warmupBaseline = c.warmupBaseline := by
  induction candles generalizing c with
  | nil => rfl
  | cons candle candles ih =>
    rw [upsertCandles, List.foldl_cons]
    exact ih.trans (warmupBaseline_upsertCandle c key candle)

lemma AgreesOn.getBarCount {c' : SharedCandleCache} (h : AgreesOn key c c') :
    c'.getBarCount key = c.getBarCount key := by
  unfold SharedCandleCache.getBarCount
  rw [h.data]

lemma AgreesOn.tail {c' : SharedCandleCache} (h : AgreesOn key c c') (n : ℤ) :
    c'.tail key n = c.tail key n := by
  unfold SharedCandleCache.tail
  rw [h.data]

/-- The roll-up of one symbol. -/
lemma rollupToTf_singleton {targetTf symbol : String} {tfMs : ℤ}
    (h : rollupTfMs targetTf = some tfMs) :
    (c.rollupToTf targetTf [symbol]).2 =
      c.upsertCandles (symbol, targetTf) (c.rolled targetTf tfMs symbol) := by
  unfold rollupToTf
  rw [h]
  rfl

end SharedCandleCache

end PaperTrade.Runner
