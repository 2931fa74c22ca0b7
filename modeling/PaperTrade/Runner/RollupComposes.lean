import PaperTrade.Runner.Rollup

/-!
# Rolling up in two stages

A series of minutes is rolled up to one timeframe, and that to a larger one. The candles of the first
stage are the complete buckets of the minutes, so those of the second are the complete buckets of
complete buckets, which are the complete large buckets: the same as those rolled up from the minutes
at once, whatever gaps there are.
-/

namespace PaperTrade.Runner

open PaperTrade.Runtime

/-- A series of 1m candles: growing, aligned to the minute, with numbers. -/
structure MinuteSeries (series : List RawCandle) : Prop where
  growing : series.Pairwise fun a b => a.openMs < b.openMs
  aligned : ∀ candle ∈ series, 60000 ∣ candle.openMs
  numbers : ∀ candle ∈ series, candle.ohlcv.IsNumber

/-- The cache of a series, with nothing required. -/
def minuteCache (symbol : String) (series : List RawCandle) : SharedCandleCache :=
  SharedCandleCache.upsertCandles {} (symbol, "1m") series

/-! ## Two stages of buckets -/

section Stages

variable {bars : List Bar} {tfMs sMs stepMs : ℤ} {n m : ℕ}

lemma growing_rollupCandles (sourceMs : ℤ) :
    Growing ((rollupCandles tfMs sourceMs bars).map RawCandle.bar) := by
  unfold Growing
  rw [List.pairwise_map]
  exact rollupCandles_sorted sourceMs

/-- What is built opens with a bar. -/
lemma exists_bar_of_mem_rollup (hgrowing : Growing bars) (haligned : ∀ e ∈ bars, sMs ∣ e.1)
    (hs : 0 < sMs) (hn : 0 < n) (htf : tfMs = n * sMs) {e : Bar}
    (he : e ∈ (rollupCandles tfMs sMs bars).map RawCandle.bar) :
    tfMs ∣ e.1 ∧ ∀ i < n, e.1 + i * sMs ∈ bars.map Prod.fst := by
  obtain ⟨start, v⟩ := e
  obtain ⟨hdvd, g, hg, -⟩ := (bar_mem_rollupCandles hgrowing haligned hs hn htf).mp he
  refine ⟨hdvd, fun i hi => ?_⟩
  exact List.mem_map.mpr ⟨_, (seriesOf_eq_some hgrowing).mp (hg i hi), rfl⟩

/-- No more candles are built than there are bars. -/
lemma length_rollupCandles_le (hgrowing : Growing bars) (haligned : ∀ e ∈ bars, sMs ∣ e.1)
    (hs : 0 < sMs) (hn : 0 < n) (htf : tfMs = n * sMs) :
    (rollupCandles tfMs sMs bars).length ≤ bars.length := by
  have hnodup : ((rollupCandles tfMs sMs bars).map RawCandle.openMs).Nodup := by
    rw [List.Nodup, List.pairwise_map]
    exact (rollupCandles_sorted sMs).imp fun h => h.ne
  have hsub : (rollupCandles tfMs sMs bars).map RawCandle.openMs ⊆ bars.map Prod.fst := by
    intro t ht
    obtain ⟨candle, hcandle, rfl⟩ := List.mem_map.mp ht
    have hbar := (exists_bar_of_mem_rollup hgrowing haligned hs hn htf
      (List.mem_map.mpr ⟨candle, hcandle, rfl⟩)).2 0 hn
    simpa [RawCandle.bar] using hbar
  have hle := (hnodup.subperm hsub).length_le
  rwa [List.length_map, List.length_map] at hle

/-- Rolling up what was rolled up is rolling up at once. -/
theorem rollup_rollup (hgrowing : Growing bars) (haligned : ∀ e ∈ bars, stepMs ∣ e.1)
    (hnumbers : ∀ e ∈ bars, e.2.IsNumber) (hstep : 0 < stepMs) (hm : 0 < m) (hn : 0 < n)
    (hs : sMs = m * stepMs) (htf : tfMs = n * sMs) :
    (rollupCandles tfMs sMs ((rollupCandles sMs stepMs bars).map RawCandle.bar)).map RawCandle.bar =
      (rollupCandles tfMs stepMs bars).map RawCandle.bar := by
  have hspos : 0 < sMs := by
    rw [hs]
    positivity
  have hcoarse : Growing ((rollupCandles sMs stepMs bars).map RawCandle.bar) :=
    growing_rollupCandles stepMs
  have hcoarseAligned : ∀ e ∈ (rollupCandles sMs stepMs bars).map RawCandle.bar, sMs ∣ e.1 :=
    fun e he => (exists_bar_of_mem_rollup hgrowing haligned hstep hm hs he).1
  have htf' : tfMs = (n * m : ℕ) * stepMs := by
    rw [htf, hs]
    push_cast
    ring
  apply Growing.ext (growing_rollupCandles sMs) (growing_rollupCandles stepMs)
  intro ⟨start, v⟩
  rw [bar_mem_rollupCandles hcoarse hcoarseAligned hspos hn htf,
    bar_mem_rollupCandles hgrowing haligned hstep (Nat.mul_pos hn hm) htf']
  refine and_congr_right fun hdvd => ?_
  rw [hs]
  apply bucket_bucket assocOn_join ?_ hn hm
  · intro i hi x
    have hpoint : sMs ∣ start + i * (m * stepMs) := by
      rw [← hs]
      exact dvd_add (dvd_trans (htf ▸ dvd_mul_left _ _) hdvd) (dvd_mul_left _ _)
    rw [← hs, seriesOf_eq_some hcoarse, bar_mem_rollupCandles hgrowing haligned hstep hm hs]
    rw [hs] at hpoint ⊢
    exact and_iff_right hpoint
  · intro t x hx
    exact hnumbers _ ((seriesOf_eq_some hgrowing).mp hx)

end Stages

/-- A multiple as a number of parts. -/
lemma exists_parts {a b : ℤ} (ha : 0 < a) (hb : 0 < b) (hdvd : a ∣ b) :
    ∃ n : ℕ, 0 < n ∧ b = n * a := by
  obtain ⟨k, rfl⟩ := hdvd
  have hk : 0 < k := pos_of_mul_pos_right hb ha.le
  refine ⟨k.toNat, by omega, ?_⟩
  rw [Int.toNat_of_nonneg hk.le, mul_comm]

/-! ## The cache of a series -/

section Cache

variable {symbol : String} {series : List RawCandle}

/-- The bars of the minutes that the cache holds. -/
def minuteBars (symbol : String) (series : List RawCandle) : List Bar :=
  (minuteCache symbol series).tail (symbol, "1m") 0

lemma refines_new (key : CacheKey) : ({} : SharedCandleCache).Refines key ⟨0, .empty⟩ :=
  (SharedCandleCache.unfiltered_init (Nat.zero_le _) key).refines

/-- The cache holds the newest minutes of the series. -/
lemma minuteBars_eq (hsymbol : symbol ≠ "") (h : MinuteSeries series) :
    minuteBars symbol series =
      ((((series.filter fun candle => 0 < candle.openMs).map RawCandle.bar).reverse.take
        NumpyCandleBuffer.maxCapacity).reverse) := by
  have htimes : ∀ candle ∈ series.filter fun candle => 0 < candle.openMs, 0 < candle.openMs :=
    fun candle hcandle => of_decide_eq_true (List.mem_filter.mp hcandle).2
  have hgrowing : Growing ((series.filter fun candle => 0 < candle.openMs).map RawCandle.bar) := by
    unfold Growing
    rw [List.pairwise_map]
    exact h.growing.filter _
  unfold minuteBars minuteCache
  rw [SharedCandleCache.upsertCandles_filter]
  exact SharedCandleCache.tail_upsertCandles (refines_new _) rfl rfl hsymbol
    (show "1m" ≠ "" by decide) htimes hgrowing

/-- The bars of the minutes grow, are aligned and are of the series. -/
structure MinuteBars (bars : List Bar) (series : List RawCandle) : Prop where
  growing : Growing bars
  positive : ∀ e ∈ bars, 0 < e.1
  mem : ∀ e ∈ bars, ∃ candle ∈ series, candle.bar = e
  length_le : bars.length ≤ NumpyCandleBuffer.maxCapacity

lemma minuteBars_spec (hsymbol : symbol ≠ "") (h : MinuteSeries series) :
    MinuteBars (minuteBars symbol series) series := by
  rw [minuteBars_eq hsymbol h]
  have hmem : ∀ e ∈ ((((series.filter fun candle => 0 < candle.openMs).map
      RawCandle.bar).reverse.take NumpyCandleBuffer.maxCapacity).reverse),
      ∃ candle ∈ series, 0 < candle.openMs ∧ candle.bar = e := by
    intro e he
    have he := List.mem_of_mem_take (List.mem_reverse.mp he)
    obtain ⟨candle, hcandle, rfl⟩ := List.mem_map.mp (List.mem_reverse.mp he)
    obtain ⟨hseries, hpos⟩ := List.mem_filter.mp hcandle
    exact ⟨candle, hseries, of_decide_eq_true hpos, rfl⟩
  refine ⟨?_, ?_, ?_, ?_⟩
  · unfold Growing
    rw [List.pairwise_reverse]
    refine List.Pairwise.sublist (List.take_sublist _ _) ?_
    rw [List.pairwise_reverse, List.pairwise_map]
    exact h.growing.filter _
  · intro e he
    obtain ⟨candle, -, hpos, rfl⟩ := hmem e he
    exact hpos
  · intro e he
    obtain ⟨candle, hcandle, -, rfl⟩ := hmem e he
    exact ⟨candle, hcandle, rfl⟩
  · rw [List.length_reverse, List.length_take]
    exact min_le_left _ _

lemma agreesOn_minuteCache {tf : String} (htf : tf ≠ "1m") :
    SharedCandleCache.AgreesOn (symbol, tf) {} (minuteCache symbol series) := by
  apply SharedCandleCache.agreesOn_upsertCandles
  intro heq
  exact htf (Prod.mk.inj heq).2.symm

/-- The other timeframes hold nothing. -/
lemma getBarCount_minuteCache {tf : String} (htf : tf ≠ "1m") :
    (minuteCache symbol series).getBarCount (symbol, tf) = 0 :=
  (agreesOn_minuteCache htf).getBarCount

lemma refines_minuteCache {tf : String} (htf : tf ≠ "1m") :
    (minuteCache symbol series).Refines (symbol, tf) ⟨0, .empty⟩ := by
  apply (refines_new _).upsertCandles_other
  intro heq
  exact htf (Prod.mk.inj heq).2.symm

variable {tf : String} {tfMs : ℤ} {bars : List Bar}

/-- What is rolled up from the minutes. -/
lemma rolled_minuteCache (htf : rollupTfMs tf = some tfMs) (hne : tf ≠ "1m") :
    (minuteCache symbol series).rolled tf tfMs symbol =
      rollupCandles tfMs 60000 (minuteBars symbol series) := by
  obtain ⟨-, -, -, hlower⟩ := rollupTfMs_spec htf
  have hminute : rollupTfMs "1m" = some 60000 := rfl
  obtain ⟨hmem, -⟩ := lower_of_lt hminute htf (hlower hne)
  exact SharedCandleCache.rolled_of_only hmem fun tf' _ hne' => getBarCount_minuteCache hne'

/-- The candles of a timeframe in a cache that holds none of it and is given what is rolled up from
bars of another. -/
lemma tail_rolled {c : SharedCandleCache} {sMs : ℤ} {n : ℕ}
    (hrefines : c.Refines (symbol, tf) ⟨0, .empty⟩) (hbaseline : c.warmupBaseline = .empty)
    (hsymbol : symbol ≠ "") (htf : tf ≠ "") (hgrowing : Growing bars)
    (haligned : ∀ e ∈ bars, sMs ∣ e.1) (hpositive : ∀ e ∈ bars, 0 < e.1)
    (hlength : bars.length ≤ NumpyCandleBuffer.maxCapacity) (hs : 0 < sMs) (hn : 0 < n)
    (hms : tfMs = n * sMs) :
    (c.upsertCandles (symbol, tf) (rollupCandles tfMs sMs bars)).tail (symbol, tf) 0 =
      (rollupCandles tfMs sMs bars).map RawCandle.bar := by
  have htimes : ∀ candle ∈ rollupCandles tfMs sMs bars, 0 < candle.openMs := by
    intro candle hcandle
    have hbar := (exists_bar_of_mem_rollup hgrowing haligned hs hn hms
      (List.mem_map.mpr ⟨candle, hcandle, rfl⟩)).2 0 hn
    obtain ⟨e, he, heq⟩ := List.mem_map.mp hbar
    have hpos := hpositive e he
    rw [heq] at hpos
    simpa [RawCandle.bar] using hpos
  have hle := length_rollupCandles_le hgrowing haligned hs hn hms
  rw [SharedCandleCache.tail_upsertCandles hrefines rfl hbaseline hsymbol htf htimes
    (growing_rollupCandles sMs), List.take_of_length_le, List.reverse_reverse]
  rw [List.length_reverse, List.length_map]
  exact hle.trans hlength

/-! ## The second stage -/

/-- The cache of the series with what is rolled up to a timeframe. -/
def stageCache (symbol : String) (series : List RawCandle) (sTf : String) (sMs : ℤ) :
    SharedCandleCache :=
  (minuteCache symbol series).upsertCandles (symbol, sTf)
    (rollupCandles sMs 60000 (minuteBars symbol series))

variable {sTf : String} {sMs : ℤ}

lemma refines_stage (htf : tf ≠ "1m") (hne : sTf ≠ tf) :
    (stageCache symbol series sTf sMs).Refines (symbol, tf) ⟨0, .empty⟩ := by
  apply (refines_minuteCache htf).upsertCandles_other
  exact fun heq => hne (Prod.mk.inj heq).2

lemma agreesOn_stage (hne : sTf ≠ tf) :
    SharedCandleCache.AgreesOn (symbol, tf) (minuteCache symbol series)
      (stageCache symbol series sTf sMs) := by
  apply SharedCandleCache.agreesOn_upsertCandles
  exact fun heq => hne (Prod.mk.inj heq).2

lemma baseline_stage : (stageCache symbol series sTf sMs).warmupBaseline = .empty := by
  unfold stageCache minuteCache
  rw [SharedCandleCache.warmupBaseline_upsertCandles,
    SharedCandleCache.warmupBaseline_upsertCandles]

/-- The second stage reads the first when it has left a bar, and else the minutes. -/
lemma rolled_of_stage {tTf : String} {tMs : ℤ} (ht : rollupTfMs tTf = some tMs) (hlt : sMs < tMs)
    (hs : rollupTfMs sTf = some sMs) (hsMinute : sTf ≠ "1m")
    (hstage : (stageCache symbol series sTf sMs).tail (symbol, sTf) 0 = bars) :
    (stageCache symbol series sTf sMs).rolled tTf tMs symbol =
      if 0 < (stageCache symbol series sTf sMs).getBarCount (symbol, sTf) then
        rollupCandles tMs sMs bars
      else rollupCandles tMs 60000 (minuteBars symbol series) := by
  obtain ⟨hsT, hminuteT, -⟩ := lower_of_lt hs ht hlt
  have hcount : ∀ tf, tf ≠ "1m" → tf ≠ sTf →
      (stageCache symbol series sTf sMs).getBarCount (symbol, tf) = 0 := by
    intro tf htf hne
    rw [(agreesOn_stage (Ne.symm hne)).getBarCount]
    exact getBarCount_minuteCache htf
  split
  · rename_i hpos
    have hbest := SharedCandleCache.bestSourceTf_eq ht hsT hpos ?_
    · have hms : sourceTfMs sTf = sMs := by rw [sourceTfMs, hs, Option.getD_some]
      unfold SharedCandleCache.rolled
      rw [hbest, ← hstage, ← hms]
    · intro tf _ hpos'
      by_cases hminute : tf = "1m"
      · obtain ⟨-, -, -, hlower⟩ := rollupTfMs_spec hs
        have hms : sourceTfMs sTf = sMs := by rw [sourceTfMs, hs, Option.getD_some]
        rw [hminute, hms]
        exact (hlower hsMinute).le
      · by_cases hne : tf = sTf
        · rw [hne]
        · rw [hcount tf hminute hne] at hpos'
          exact absurd hpos' (lt_irrefl 0)
  · rename_i hzero
    rw [SharedCandleCache.rolled_of_only hminuteT, (agreesOn_stage hsMinute).tail]
    · rfl
    · intro tf _ htf
      by_cases hne : tf = sTf
      · rw [hne]
        omega
      · exact hcount tf htf hne

end Cache

/-! ## Composition -/

/-- Rolling a series of minutes up to `S` and that to `T` leaves the same `T` candles as rolling it up
to `T` at once, and each of them covers a bucket of which every minute is in the series. -/
theorem rollup_composes (symbol : String) {series : List RawCandle} (h : MinuteSeries series)
    {sTf tTf : String} {sMs tMs : ℤ} (hs : rollupTfMs sTf = some sMs)
    (ht : rollupTfMs tTf = some tMs) (hlt : sMs < tMs) :
    (((minuteCache symbol series).rollupToTf sTf [symbol]).2.rollupToTf tTf [symbol]).2.tail
        (symbol, tTf) 0 =
      ((minuteCache symbol series).rollupToTf tTf [symbol]).2.tail (symbol, tTf) 0 ∧
    ∀ e ∈ ((minuteCache symbol series).rollupToTf tTf [symbol]).2.tail (symbol, tTf) 0,
      ∀ t, e.1 ≤ t → t < e.1 + tMs → 60000 ∣ t → t ∈ series.map RawCandle.openMs := by
  obtain ⟨hsT, -, hne, htMinute, hdvd⟩ :=
    lower_of_lt hs ht hlt
  obtain ⟨htName, htpos, htMinutes, -⟩ := rollupTfMs_spec ht
  obtain ⟨hsName, hspos, hsMinutes, -⟩ := rollupTfMs_spec hs
  rw [SharedCandleCache.rollupToTf_singleton ht, SharedCandleCache.rollupToTf_singleton hs,
    SharedCandleCache.rollupToTf_singleton ht]
  by_cases hsymbol : symbol = ""
  · -- without a symbol nothing is ever stored
    subst hsymbol
    have hignored : ∀ (c : SharedCandleCache) (tf : String) (candles : List RawCandle),
        c.upsertCandles ("", tf) candles = c := fun c tf candles =>
      SharedCandleCache.upsertCandles_of_ignored fun _ _ => .inl rfl
    simp only [minuteCache, hignored]
    exact ⟨trivial, fun e he => absurd he List.not_mem_nil⟩
  obtain ⟨hgrowing, hpositive, hmem, hlength⟩ := minuteBars_spec hsymbol h
  have haligned : ∀ e ∈ minuteBars symbol series, 60000 ∣ e.1 := by
    intro e he
    obtain ⟨candle, hcandle, rfl⟩ := hmem e he
    exact h.aligned candle hcandle
  have hnumbers : ∀ e ∈ minuteBars symbol series, e.2.IsNumber := by
    intro e he
    obtain ⟨candle, hcandle, rfl⟩ := hmem e he
    exact h.numbers candle hcandle
  obtain ⟨m, hm, hms⟩ := exists_parts (by norm_num) hspos hsMinutes
  obtain ⟨n, hn, hmt⟩ := exists_parts hspos htpos hdvd
  obtain ⟨k, hk, hkt⟩ := exists_parts (by norm_num) htpos htMinutes
  have hbaseline : (minuteCache symbol series).warmupBaseline = .empty :=
    SharedCandleCache.warmupBaseline_upsertCandles series
  have hdirect : ((minuteCache symbol series).upsertCandles (symbol, tTf)
      ((minuteCache symbol series).rolled tTf tMs symbol)).tail (symbol, tTf) 0 =
        (rollupCandles tMs 60000 (minuteBars symbol series)).map RawCandle.bar := by
    rw [rolled_minuteCache ht htMinute]
    exact tail_rolled (refines_minuteCache htMinute) hbaseline hsymbol htName hgrowing haligned
      hpositive hlength (by norm_num) hk hkt
  rw [hdirect]
  constructor
  · by_cases hsMinute : sTf = "1m"
    · -- nothing is below a minute
      subst hsMinute
      have hnone : (minuteCache symbol series).rolled "1m" sMs symbol = [] := rfl
      rw [hnone]
      exact hdirect
    · have hstage := tail_rolled (refines_minuteCache hsMinute) hbaseline hsymbol hsName hgrowing
        haligned hpositive hlength (by norm_num) hm hms
      have hcomposed := rollup_rollup hgrowing haligned hnumbers (by norm_num) hm hn hms hmt
      have hcoarseLength : ((rollupCandles sMs 60000 (minuteBars symbol series)).map
          RawCandle.bar).length ≤ (minuteBars symbol series).length := by
        rw [List.length_map]
        exact length_rollupCandles_le hgrowing haligned (by norm_num) hm hms
      have hcoarseAligned : ∀ e ∈ (rollupCandles sMs 60000 (minuteBars symbol series)).map
          RawCandle.bar, sMs ∣ e.1 := fun e he =>
        (exists_bar_of_mem_rollup hgrowing haligned (by norm_num) hm hms he).1
      have hcoarsePositive : ∀ e ∈ (rollupCandles sMs 60000 (minuteBars symbol series)).map
          RawCandle.bar, 0 < e.1 := by
        intro e he
        have hfirst := (exists_bar_of_mem_rollup hgrowing haligned (by norm_num) hm hms he).2 0 hm
        obtain ⟨e', he', heq⟩ := List.mem_map.mp hfirst
        have hpos := hpositive e' he'
        rw [heq] at hpos
        simpa using hpos
      rw [rolled_minuteCache hs hsMinute]
      change ((stageCache symbol series sTf sMs).upsertCandles (symbol, tTf)
        ((stageCache symbol series sTf sMs).rolled tTf tMs symbol)).tail (symbol, tTf) 0 = _
      rw [← hcomposed, rolled_of_stage ht hlt hs hsMinute hstage]
      split
      · exact tail_rolled (refines_stage htMinute hne) baseline_stage hsymbol htName
          (growing_rollupCandles 60000) hcoarseAligned hcoarsePositive (hcoarseLength.trans hlength)
          hspos hn hmt
      · rw [hcomposed]
        exact tail_rolled (refines_stage htMinute hne) baseline_stage hsymbol htName hgrowing
          haligned hpositive hlength (by norm_num) hk hkt
  · intro e he t hle htlt ht60
    obtain ⟨hstart, hpoints⟩ := exists_bar_of_mem_rollup hgrowing haligned (by norm_num) hk hkt he
    obtain ⟨i, hi⟩ : (60000 : ℤ) ∣ t - e.1 := dvd_sub ht60 (dvd_trans htMinutes hstart)
    have hmember := hpoints i.toNat (by omega)
    have htime : e.1 + i.toNat * 60000 = t := by omega
    rw [htime] at hmember
    obtain ⟨e', he', rfl⟩ := List.mem_map.mp hmember
    obtain ⟨candle, hcandle, rfl⟩ := hmem e' he'
    exact List.mem_map.mpr ⟨candle, hcandle, rfl⟩

/-- A quarter of an hour of minutes. -/
def quarterHour : List RawCandle :=
  (List.range 15).map fun i : ℕ =>
    { openTime := some (900000 + i * 60000), high := some 2, low := some 1, volume := some 1 }

lemma minuteSeries_quarterHour : MinuteSeries quarterHour where
  growing := by decide +kernel
  aligned := by decide +kernel
  numbers := by decide +kernel

/-- The quarter of an hour by way of 5m. -/
theorem rollup_composes_quarterHour :
    (((minuteCache "BTCUSDT" quarterHour).rollupToTf "5m" ["BTCUSDT"]).2.rollupToTf "15m"
        ["BTCUSDT"]).2.tail ("BTCUSDT", "15m") 0 =
      ((minuteCache "BTCUSDT" quarterHour).rollupToTf "15m" ["BTCUSDT"]).2.tail
        ("BTCUSDT", "15m") 0 :=
  have hs : rollupTfMs "5m" = some 300000 := by decide
  have ht : rollupTfMs "15m" = some 900000 := by decide
  (rollup_composes "BTCUSDT" minuteSeries_quarterHour hs ht (by norm_num)).1

end PaperTrade.Runner
