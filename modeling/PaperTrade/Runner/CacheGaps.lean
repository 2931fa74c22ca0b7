import PaperTrade.Runner.CandleCache

/-!
# Gaps

What is read of a cache to decide whether a requirement is met: how many bars there are, how old the
last one is, and whether the open times follow each other without a gap.
-/

namespace PaperTrade.Runner

open PaperTrade.Runtime

/-- `GapReport`. -/
structure GapReport where
  symbol : String
  tf : String
  totalBars : ℕ
  gapCount : ℕ
  missingRanges : List (ℤ × ℤ)
  isClean : Bool
deriving DecidableEq

/-- The ranges that are missing between neighbours more than `tfMs` apart. -/
def missingRanges (tfMs : ℤ) : List ℤ → List (ℤ × ℤ)
  | a :: b :: times =>
    if a + tfMs < b then (a + tfMs, b - tfMs) :: missingRanges tfMs (b :: times)
    else missingRanges tfMs (b :: times)
  | _ => []

/-- `_infer_tf_ms`. -/
def inferTfMs (tf : String) : ℤ :=
  if tf = "1m" then 60000 else if tf = "5m" then 300000 else if tf = "15m" then 900000
  else if tf = "30m" then 1800000 else if tf = "1h" then 3600000 else if tf = "4h" then 14400000
  else if tf = "1d" then 86400000 else 60000

lemma inferTfMs_pos (tf : String) : 0 < inferTfMs tf := by
  unfold inferTfMs
  repeat' split
  all_goals decide

namespace SharedCandleCache

variable (c : SharedCandleCache)

/-- `get_bar_count`. -/
def getBarCount (key : CacheKey) : ℕ :=
  match c.data.get? key with
  | none => 0
  | some sd => sd.size

/-- `has_required_bars`. -/
def hasRequiredBars (key : CacheKey) (bars : ℕ) : Bool := bars ≤ c.getBarCount key

/-- `get_times`. -/
def getTimes (key : CacheKey) (n : ℤ) : List ℤ := (c.tail key n).map fun e => e.1

/-- `has_fresh_data`, at the time `now` in seconds. -/
def hasFreshData (now : ℚ) (key : CacheKey) (bars : ℕ) (maxAgeSec : ℚ) : Bool :=
  c.hasRequiredBars key bars &&
    match (c.getTimes key 1).getLast? with
    | none => false
    | some last => now - last / 1000 ≤ maxAgeSec

/-- `get_symbols_with_data`. -/
def getSymbolsWithData (tf : String) : List String :=
  ((c.data.keys.filter fun key => key.2 = tf).map fun key => key.1).insertionSort (· ≤ ·)

/-- `get_latest_timestamp`. -/
def getLatestTimestamp (key : CacheKey) : Option ℤ :=
  match c.data.get? key with
  | none => none
  | some sd => sd.latestTime

/-- `verify_no_gaps`. -/
def verifyNoGaps (key : CacheKey) (expectedTfMs : Option ℤ) : GapReport :=
  let gaps := missingRanges (expectedTfMs.getD (inferTfMs key.2)) (c.getTimes key 0)
  if c.getBarCount key < 2 then
    { symbol := key.1, tf := key.2, totalBars := c.getBarCount key, gapCount := 0, missingRanges := [],
      isClean := true }
  else
    { symbol := key.1, tf := key.2, totalBars := c.getBarCount key, gapCount := gaps.length,
      missingRanges := gaps, isClean := gaps.length = 0 }

end SharedCandleCache

/-! ## Without gaps -/

/-- Every time but the greatest is followed within a step. -/
def GapFree (step : ℤ) (times : List ℤ) : Prop :=
  ∀ x ∈ times, (∃ z ∈ times, x < z) → ∃ y ∈ times, x < y ∧ y ≤ x + step

lemma missingRanges_of_gapFree {step : ℤ} {times : List ℤ} (hsorted : times.Pairwise (· < ·))
    (h : GapFree step times) : missingRanges step times = [] := by
  induction times with
  | nil => rfl
  | cons a times ih =>
    cases times with
    | nil => rfl
    | cons b times =>
      obtain ⟨hhead, htail⟩ := List.pairwise_cons.mp hsorted
      have hab : a < b := hhead b (List.mem_cons_self ..)
      -- the neighbour of `a` is the first one after it
      obtain ⟨y, hy, hlt, hle⟩ := h a (List.mem_cons_self ..)
        ⟨b, List.mem_cons_of_mem _ (List.mem_cons_self ..), hab⟩
      have hby : b ≤ y := by
        rcases List.mem_cons.mp hy with rfl | hy
        · exact absurd hlt (lt_irrefl _)
        rcases List.mem_cons.mp hy with rfl | hy
        · exact le_rfl
        · exact ((List.pairwise_cons.mp htail).1 y hy).le
      have hfree : GapFree step (b :: times) := by
        intro x hx hex
        obtain ⟨z, hz, hxz⟩ := hex
        obtain ⟨w, hw, hxw, hstep⟩ := h x (List.mem_cons_of_mem _ hx) ⟨z, List.mem_cons_of_mem _ hz, hxz⟩
        rcases List.mem_cons.mp hw with rfl | hw
        · exact absurd (hhead x hx) hxw.asymm
        · exact ⟨w, hw, hxw, hstep⟩
      rw [missingRanges, if_neg (by omega)]
      exact ih htail hfree

/-- The newest keys of a map without gaps. -/
lemma GapFree.keep {ν : Type} {step : ℤ} {m : SortedMap ℤ ν} (n : ℕ)
    (h : ∀ x ∈ (m.keep n).keys, (∃ z ∈ m.keys, x < z) → ∃ y ∈ m.keys, x < y ∧ y ≤ x + step) :
    GapFree step (m.keep n).keys := by
  intro x hx hex
  obtain ⟨z, hz, hxz⟩ := hex
  have hz' : z ∈ m.keys := by
    rw [SortedMap.keys_keep] at hz
    exact List.mem_of_mem_take hz
  obtain ⟨y, hy, hlt, hle⟩ := h x hx ⟨z, hz', hxz⟩
  exact ⟨y, SortedMap.mem_keys_keep_of_lt hx hy hlt, hlt, hle⟩

namespace SharedCandleCache

variable {c : SharedCandleCache} {key : CacheKey} {b : CandleBook}

lemma Refines.getTimes (h : c.Refines key b) : c.getTimes key 0 = b.book.keys.reverse := by
  rw [SharedCandleCache.getTimes, h.tail, CandleBook.newest, if_pos le_rfl, SortedMap.keys,
    List.map_reverse]

lemma Refines.getBarCount (h : c.Refines key b) : c.getBarCount key = b.book.keys.length := by
  unfold SharedCandleCache.getBarCount SortedMap.keys
  rw [List.length_map]
  cases hdata : c.data.get? key with
  | none => rw [h.missing hdata, SortedMap.entries_empty, List.length_nil]
  | some sd => rw [(h.holds sd hdata).entries, List.length_reverse, sd.length_bars]

/-- A map without gaps is reported clean. -/
lemma Refines.isClean (h : c.Refines key b) (hfree : GapFree (inferTfMs key.2) b.book.keys) :
    (c.verifyNoGaps key none).isClean = true := by
  unfold verifyNoGaps
  dsimp only
  split
  · rfl
  · have hsorted : b.book.keys.reverse.Pairwise (· < ·) := by
      rw [List.pairwise_reverse]
      exact b.book.sorted_keys
    have hfree' : GapFree (inferTfMs key.2) b.book.keys.reverse := by
      intro x hx hex
      simp only [List.mem_reverse] at hx hex ⊢
      exact hfree x hx hex
    rw [Option.getD_none, h.getTimes, missingRanges_of_gapFree hsorted hfree']
    rfl

end SharedCandleCache

end PaperTrade.Runner
