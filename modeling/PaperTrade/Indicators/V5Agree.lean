import Mathlib.Data.List.GetD
import PaperTrade.Indicators.V5

/-!
# The implementations of V5 agree

`expected` is what the indicators say of a history, in terms of its windows. `V5SymbolState` keeps the windows
of the history (`Fed`), and the two others find the same windows in it, through differences of prefix sums and
slices of arrays. The one true range that they see differently is that of the first bar, which is in no window
of a history longer than `atr_len`.
-/

namespace PaperTrade.Indicators

open PaperTrade.Runtime

variable {K : Type} [Field K] [LinearOrder K]

/-! ## The windows of a history -/

/-- The average of the last `smaLen` closes. -/
def smaOf (smaLen : ℕ) (cs : List K) : Option K :=
  if smaLen ≤ cs.length then some ((lastOf smaLen cs).sum / smaLen) else none

/-- The difference of the last average and the one five bars before. -/
def adiffVal (smaLen : ℕ) (cs : List K) : K :=
  (lastOf smaLen cs).sum / smaLen - (lastOf smaLen (cs.take (cs.length - 5))).sum / smaLen

/-- The difference, if both averages are there. -/
def adiffOf (smaLen : ℕ) (cs : List K) : Option K :=
  if smaLen + 5 ≤ cs.length then some (adiffVal smaLen cs) else none

/-- All differences of a history. -/
def adiffs (smaLen : ℕ) (cs : List K) : List K :=
  (List.range (cs.length - (smaLen + 4))).map fun k => adiffVal smaLen (cs.take (k + smaLen + 5))

/-- The last difference by the greatest one of the window. -/
def acolOf (p : V5Params) (cs : List K) : Option K :=
  normalized (adiffOf p.smaLen cs) (lastOf p.normWindow (adiffs p.smaLen cs))

/-- The true ranges of bars after a close. -/
def rangesFrom (prevClose : K) : List (V5Bar K) → List K
  | [] => []
  | b :: rest => trueRange prevClose b.high b.low :: rangesFrom b.close rest

/-- The true ranges of all bars but the first. -/
def ranges : List (V5Bar K) → List K
  | [] => []
  | b :: rest => rangesFrom b.close rest

/-- The indicators of a history. -/
def expected (p : V5Params) (bars : List (V5Bar K)) : Option (V5Result K) :=
  let cs := bars.map V5Bar.close
  if cs.length < p.normWindow + p.smaLen + 10 ∨ cs.length < p.pocLen then none
  else do
    let acol ← acolOf p cs
    let acolPrev ← acolOf p cs.dropLast
    let last ← bars.getLast?
    let atr := (lastOf p.atrLen (ranges bars)).sum / p.atrLen
    if atr ≤ 0 then none
    else some ⟨acol, acolPrev, atr, middle (lastOf p.pocLen cs), last.close, last.high, last.low⟩

/-! ## One bar more -/

section Concat

variable {L : ℕ} (cs : List K) (v : K)

lemma take_concat {k : ℕ} (h : k ≤ cs.length) : (cs ++ [v]).take k = cs.take k :=
  List.take_append_of_le_length h

lemma adiffs_concat : adiffs L (cs ++ [v]) = adiffs L cs ++ (adiffOf L (cs ++ [v])).toList := by
  unfold adiffs adiffOf
  rw [List.length_append, List.length_singleton]
  by_cases h : L + 4 ≤ cs.length
  · have hcount : cs.length + 1 - (L + 4) = cs.length - (L + 4) + 1 := by omega
    have hlast : cs.length - (L + 4) + L + 5 = cs.length + 1 := by omega
    rw [hcount, List.range_succ, List.map_append, List.map_singleton, if_pos (by omega), hlast,
      List.take_of_length_le (by simp)]
    congr 1
    refine List.map_congr_left fun k hk => ?_
    have hk' := List.mem_range.mp hk
    rw [take_concat cs v (by omega)]
  · rw [if_neg (by omega)]
    have hnone : cs.length + 1 - (L + 4) = 0 := by omega
    have hnone' : cs.length - (L + 4) = 0 := by omega
    rw [hnone, hnone']
    rfl

lemma length_adiffs : (adiffs L cs).length = cs.length - (L + 4) := by simp [adiffs]

end Concat

lemma rangesFrom_concat (prevClose : K) (bars : List (V5Bar K)) (b : V5Bar K) :
    rangesFrom prevClose (bars ++ [b]) =
      rangesFrom prevClose bars ++
        [trueRange ((bars.map V5Bar.close).getLast?.getD prevClose) b.high b.low] := by
  induction bars generalizing prevClose with
  | nil => rfl
  | cons a rest ih =>
    rw [List.cons_append, rangesFrom, ih, rangesFrom, List.cons_append]
    congr 3
    cases rest with
    | nil => rfl
    | cons a' rest => simp [List.getLast?_cons]

lemma ranges_concat {bars : List (V5Bar K)} (hne : bars ≠ []) (b : V5Bar K) (v : K) :
    ranges (bars ++ [b]) =
      ranges bars ++ [trueRange ((bars.map V5Bar.close).getLast?.getD v) b.high b.low] := by
  obtain ⟨a, rest, rfl⟩ := List.exists_cons_of_ne_nil hne
  rw [List.cons_append, ranges, rangesFrom_concat, ranges]
  congr 3
  cases rest with
  | nil => rfl
  | cons a' rest => simp [List.getLast?_cons]

lemma length_rangesFrom (prevClose : K) (bars : List (V5Bar K)) :
    (rangesFrom prevClose bars).length = bars.length := by
  induction bars generalizing prevClose with
  | nil => rfl
  | cons b rest ih => rw [rangesFrom, List.length_cons, ih, List.length_cons]

lemma length_ranges (bars : List (V5Bar K)) : (ranges bars).length = bars.length - 1 := by
  cases bars with
  | nil => rfl
  | cons b rest => rw [ranges, length_rangesFrom, List.length_cons, Nat.add_sub_cancel]

/-! ## Sorted windows -/

lemma insort_cons (a : K) (l : List K) (x : K) :
    V5SymbolState.insort (a :: l) x = if a ≤ x then a :: V5SymbolState.insort l x else x :: a :: l := by
  unfold V5SymbolState.insort
  split
  · rename_i h
    rw [List.takeWhile_cons_of_pos (by simpa using h), List.dropWhile_cons_of_pos (by simpa using h)]
    rfl
  · rename_i h
    rw [List.takeWhile_cons_of_neg (by simpa using h), List.dropWhile_cons_of_neg (by simpa using h)]
    rfl

lemma perm_insort (l : List K) (x : K) : (V5SymbolState.insort l x).Perm (x :: l) := by
  have hsplit := List.takeWhile_append_dropWhile (p := fun v => decide (v ≤ x)) (l := l)
  refine List.perm_middle.trans (List.Perm.of_eq ?_)
  rw [hsplit]

lemma pairwise_insort {l : List K} (h : l.Pairwise (· ≤ ·)) (x : K) :
    (V5SymbolState.insort l x).Pairwise (· ≤ ·) := by
  induction l with
  | nil => exact List.pairwise_singleton _ _
  | cons a l ih =>
    obtain ⟨ha, hl⟩ := List.pairwise_cons.mp h
    rw [insort_cons]
    split
    · rename_i hax
      refine List.pairwise_cons.mpr ⟨fun v hv => ?_, ih hl⟩
      rcases List.mem_cons.mp ((perm_insort l x).mem_iff.mp hv) with rfl | hv
      · exact hax
      · exact ha v hv
    · rename_i hax
      have hxa := (not_le.mp hax).le
      refine List.pairwise_cons.mpr ⟨fun v hv => ?_, h⟩
      rcases List.mem_cons.mp hv with rfl | hv
      · exact hxa
      · exact hxa.trans (ha v hv)

/-- The median of a window from its sorted values. -/
lemma sortedMedian_eq {w sorted : List K} (hperm : sorted.Perm w) (hsorted : sorted.Pairwise (· ≤ ·)) :
    sortedMedian sorted w.length = middle w := by
  have hsame : w.insertionSort (· ≤ ·) = sorted :=
    ((List.perm_insertionSort _ w).trans hperm.symm).eq_of_pairwise
      (fun a b _ _ hab hba => le_antisymm hab hba) (List.pairwise_insertionSort _ w) hsorted
  unfold sortedMedian middle
  dsimp only
  rw [hsame, hperm.length_eq]
  by_cases heven : w.length % 2 = 0
  · rw [if_pos heven, if_neg (by omega), Nat.cast_ofNat]
  · rw [if_neg heven, if_pos (by omega)]

/-! ## `V5SymbolState` -/

namespace V5SymbolState

/-- The true ranges as the state sees them: none in the first bar. -/
def barRanges : List (V5Bar K) → List K
  | [] => []
  | b :: rest => 0 :: ranges (b :: rest)

/-- The moving averages of all prefixes. -/
def smas (L : ℕ) (cs : List K) : List (Option K) := (List.range cs.length).map fun i => smaOf L (cs.take (i + 1))

/-- The state after the bars. -/
structure Fed (p : V5Params) (bars : List (V5Bar K)) (s : V5SymbolState K) : Prop where
  params : s.params = p
  close : s.close = bars.map V5Bar.close
  smaSum : s.smaSum = (lastOf p.smaLen (bars.map V5Bar.close)).sum
  smaValues : s.smaValues = smas p.smaLen (bars.map V5Bar.close)
  trWindow : s.trWindow = lastOf p.atrLen (barRanges bars)
  trSum : s.trSum = (lastOf p.atrLen (barRanges bars)).sum
  perm : s.pocSorted.Perm (lastOf p.pocLen (bars.map V5Bar.close))
  sorted : s.pocSorted.Pairwise (· ≤ ·)
  adiffWindow : s.adiffWindow = lastOf p.normWindow (adiffs p.smaLen (bars.map V5Bar.close))
  lastAcol : s.lastAcol = acolOf p (bars.map V5Bar.close)

lemma fromEnd_concat {α : Type} (l : List α) (a : α) : fromEnd (l ++ [a]) 1 = some a := by
  rw [fromEnd, List.length_append, List.length_singleton, Nat.add_sub_cancel]
  exact List.getElem?_concat_length

lemma smas_concat (L : ℕ) (cs : List K) (v : K) : smas L (cs ++ [v]) = smas L cs ++ [smaOf L (cs ++ [v])] := by
  unfold smas
  rw [List.length_append, List.length_singleton, List.range_succ, List.map_append, List.map_singleton,
    List.take_of_length_le (by simp)]
  congr 1
  refine List.map_congr_left fun i hi => ?_
  rw [take_concat cs v (List.mem_range.mp hi)]

lemma length_smas (L : ℕ) (cs : List K) : (smas L cs).length = cs.length := by simp [smas]

/-- The value that leaves a full window of the closes. -/
lemma fromEnd_close {cs : List K} {d : ℕ} (hd : 0 < d) (h : d ≤ cs.length) (v : K) :
    fromEnd (cs ++ [v]) (d + 1) = some cs[cs.length - d] := by
  have hindex : cs.length + 1 - (d + 1) = cs.length - d := by omega
  rw [fromEnd, List.length_append, List.length_singleton, hindex, List.getElem?_append_left (by omega),
    List.getElem?_eq_getElem (by omega)]

section Append

variable {p : V5Params} {s : V5SymbolState K} {cs : List K} {v : K}

lemma smaSum_addSma (hpos : 0 < p.smaLen) (hparams : s.params = p) (hclose : s.close = cs ++ [v])
    (hsum : s.smaSum = (lastOf p.smaLen cs).sum) :
    (s.addSma v).smaSum = (lastOf p.smaLen (cs ++ [v])).sum := by
  unfold addSma
  dsimp only
  rw [hparams, hclose, hsum, List.length_append, List.length_singleton]
  by_cases h : p.smaLen ≤ cs.length
  · rw [if_pos (by omega), fromEnd_close hpos h, Option.getD_some, sum_lastOf_concat hpos h]
    ring
  · rw [if_neg (by omega), sum_lastOf_concat_of_lt (not_le.mp h)]

lemma smaValues_addSma (hpos : 0 < p.smaLen) (hparams : s.params = p) (hclose : s.close = cs ++ [v])
    (hsum : s.smaSum = (lastOf p.smaLen cs).sum) (hvalues : s.smaValues = smas p.smaLen cs) :
    (s.addSma v).smaValues = smas p.smaLen (cs ++ [v]) := by
  have hnext := smaSum_addSma hpos hparams hclose hsum
  have hunfold : (s.addSma v).smaValues = s.smaValues ++
      [if s.params.smaLen ≤ s.close.length then some ((s.addSma v).smaSum / s.params.smaLen) else none] := rfl
  rw [hunfold, hnext, hvalues, hparams, hclose, smas_concat]
  rfl

/-- The difference of two averages of the history. -/
lemma currentAdiff_eq (hpos : 0 < p.smaLen) (hvalues : s.smaValues = smas p.smaLen (cs ++ [v])) :
    s.currentAdiff = adiffOf p.smaLen (cs ++ [v]) := by
  have hlast : fromEnd s.smaValues 1 = some (smaOf p.smaLen (cs ++ [v])) := by
    rw [hvalues, smas_concat]
    exact fromEnd_concat _ _
  have hlength : (cs ++ [v]).length = cs.length + 1 := by simp
  unfold currentAdiff adiffOf
  rw [hlast, hvalues, length_smas, hlength]
  by_cases hfive : 5 < cs.length + 1
  · have hindex : cs.length + 1 - 6 + 1 = cs.length + 1 - 5 := by omega
    have hprev : fromEnd (smas p.smaLen (cs ++ [v])) 6 =
        some (smaOf p.smaLen ((cs ++ [v]).take ((cs ++ [v]).length - 5))) := by
      rw [fromEnd, length_smas, hlength, smas, List.getElem?_map, List.getElem?_range (by rw [hlength]; omega)]
      rw [Option.map_some, hindex]
    rw [if_neg (by omega), hprev]
    unfold smaOf
    rw [List.length_take, hlength]
    by_cases hfull : p.smaLen + 5 ≤ cs.length + 1
    · rw [if_pos hfull, if_pos (by omega), if_pos (by omega)]
      rw [adiffVal, hlength]
      rfl
    · rw [if_neg hfull]
      by_cases hone : p.smaLen ≤ cs.length + 1
      · rw [if_pos hone, if_neg (by omega)]
        rfl
      · rw [if_neg hone]
        rfl
  · rw [if_pos (by omega), if_neg (by omega)]

/-- The window of the differences follows them. -/
lemma adiffWindow_addAdiff (hnorm : 0 < p.normWindow) (hparams : s.params = p)
    (hadiff : s.currentAdiff = adiffOf p.smaLen (cs ++ [v]))
    (hwindow : s.adiffWindow = lastOf p.normWindow (adiffs p.smaLen cs)) :
    s.addAdiff.adiffWindow = lastOf p.normWindow (adiffs p.smaLen (cs ++ [v])) := by
  rw [adiffs_concat, ← hadiff]
  unfold V5SymbolState.addAdiff
  cases s.currentAdiff with
  | none => rw [hwindow, Option.toList_none, List.append_nil]
  | some adiff =>
    dsimp only
    rw [hwindow, hparams, Option.toList_some]
    exact trim_lastOf hnorm _ adiff

/-- The window of the true ranges takes the one of the bar, or a zero for the first bar. -/
lemma addTr_eq (hatr : 0 < p.atrLen) (hparams : s.params = p) {ranges : List K} (prevClose high low : K)
    (hwindow : s.trWindow = lastOf p.atrLen ranges) (hsum : s.trSum = (lastOf p.atrLen ranges).sum) :
    let tr := if 1 < s.close.length then trueRange prevClose high low else 0
    (s.addTr prevClose high low).trWindow = lastOf p.atrLen (ranges ++ [tr]) ∧
      (s.addTr prevClose high low).trSum = (lastOf p.atrLen (ranges ++ [tr])).sum := by
  intro tr
  have htrim := trim_lastOf hatr ranges tr
  refine ⟨?_, ?_⟩
  · show (if s.params.atrLen < (s.trWindow ++ [tr]).length then _ else _) = _
    rw [hparams, hwindow]
    exact htrim
  · show (if s.params.atrLen < (s.trWindow ++ [tr]).length then
      s.trSum + tr - (s.trWindow ++ [tr]).headD 0 else s.trSum + tr) = _
    rw [hparams, hwindow, hsum, ← htrim]
    have hlength : (lastOf p.atrLen ranges ++ [tr]).length = min p.atrLen ranges.length + 1 := by
      rw [List.length_append, length_lastOf, List.length_singleton]
    split
    · obtain ⟨a, rest, hcons⟩ : ∃ a rest, lastOf p.atrLen ranges = a :: rest := by
        refine List.exists_cons_of_ne_nil (List.ne_nil_of_length_pos ?_)
        rw [length_lastOf]
        omega
      rw [hcons]
      simp only [List.cons_append, List.headD_cons, List.tail_cons, List.sum_cons, List.sum_append,
        List.sum_nil]
      ring
    · rw [List.sum_append, List.sum_singleton]

/-- The sorted window takes a close and lets the oldest one go, which it has. -/
lemma addPoc_eq (hpoc : 0 < p.pocLen) (hparams : s.params = p) (hclose : s.close = cs ++ [v])
    (hperm : s.pocSorted.Perm (lastOf p.pocLen cs)) (hsorted : s.pocSorted.Pairwise (· ≤ ·)) :
    ∃ q, s.addPoc v = some { s with pocSorted := q } ∧ q.Perm (lastOf p.pocLen (cs ++ [v])) ∧
      q.Pairwise (· ≤ ·) := by
  have hinsort : (insort s.pocSorted v).Perm (lastOf p.pocLen cs ++ [v]) :=
    (perm_insort s.pocSorted v).trans ((hperm.cons v).trans (List.perm_append_singleton v _).symm)
  have hordered := pairwise_insort hsorted v
  unfold addPoc
  dsimp only
  rw [hparams, hclose, List.length_append, List.length_singleton]
  by_cases hfull : p.pocLen ≤ cs.length
  · have hwindow := lastOf_of_le hpoc hfull
    have hmem : cs[cs.length - p.pocLen] ∈ insort s.pocSorted v := by
      refine hinsort.mem_iff.mpr (List.mem_append_left _ ?_)
      rw [hwindow]
      exact List.mem_cons_self
    refine ⟨(insort s.pocSorted v).erase cs[cs.length - p.pocLen], ?_, ?_, ?_⟩
    · rw [if_pos (by omega), fromEnd_close hpoc hfull]
      exact if_pos hmem
    · have herase := hinsort.erase cs[cs.length - p.pocLen]
      have hcons : lastOf p.pocLen cs ++ [v] =
          cs[cs.length - p.pocLen] :: ((lastOf p.pocLen cs).tail ++ [v]) := by
        rw [← List.cons_append, ← hwindow]
      rw [hcons, List.erase_cons_head, ← lastOf_concat_of_le hpoc hfull] at herase
      exact herase
    · exact hordered.sublist List.erase_sublist
  · refine ⟨insort s.pocSorted v, ?_, ?_, hordered⟩
    · rw [if_neg (by omega)]
      rfl
    · rw [lastOf_concat_of_lt (not_le.mp hfull)]
      exact hinsort

end Append

lemma barRanges_concat (bars : List (V5Bar K)) (b : V5Bar K) :
    barRanges (bars ++ [b]) = barRanges bars ++
      [if 1 < (bars.map V5Bar.close ++ [b.close]).length then
        trueRange ((bars.map V5Bar.close).getLast?.getD b.close) b.high b.low else 0] := by
  cases bars with
  | nil => rfl
  | cons a rest =>
    have hne : a :: rest ≠ [] := List.cons_ne_nil a rest
    rw [if_pos (by simp)]
    show 0 :: ranges (a :: rest ++ [b]) = _
    rw [ranges_concat hne b b.close]
    rfl

/-- The window of the true ranges has left the first bar behind. -/
lemma lastOf_barRanges {d : ℕ} {bars : List (V5Bar K)} (h : d < bars.length) :
    lastOf d (barRanges bars) = lastOf d (ranges bars) := by
  cases bars with
  | nil => exact absurd h (Nat.not_lt_zero d)
  | cons b rest =>
    refine lastOf_cons_of_le ?_ 0
    rw [length_ranges]
    omega

/-- The lengths are at least one. -/
structure Positive (p : V5Params) : Prop where
  sma : 0 < p.smaLen
  atr : 0 < p.atrLen
  poc : 0 < p.pocLen
  norm : 0 < p.normWindow

/-- `append` up to the moving average. -/
def averaged (s : V5SymbolState K) (b : V5Bar K) : V5SymbolState K :=
  addSma { s with close := s.close ++ [b.close], high := s.high ++ [b.high], low := s.low ++ [b.low] } b.close

/-- `append` up to the true ranges. -/
def ranged (s : V5SymbolState K) (b : V5Bar K) : V5SymbolState K :=
  (s.averaged b).addAdiff.addTr (s.close.getLast?.getD b.close) b.high b.low

lemma append_eq {s s' : V5SymbolState K} {b : V5Bar K} (h : (s.ranged b).addPoc b.close = some s') :
    s.append b =
      some ({ s' with lastAcol := normalized (s.averaged b).currentAdiff (s.averaged b).addAdiff.adiffWindow },
        s'.result (normalized (s.averaged b).currentAdiff (s.averaged b).addAdiff.adiffWindow)
          b.close b.high b.low) := by
  show ((s.ranged b).addPoc b.close >>= _) = _
  rw [h]
  rfl

section Append

variable {p : V5Params} (hp : Positive p) {bars : List (V5Bar K)} {s : V5SymbolState K} (h : Fed p bars s)
  (b : V5Bar K)
include hp h

/-- The averages and their difference after a bar. -/
lemma averaged_eq :
    (s.averaged b).smaSum = (lastOf p.smaLen (bars.map V5Bar.close ++ [b.close])).sum ∧
      (s.averaged b).smaValues = smas p.smaLen (bars.map V5Bar.close ++ [b.close]) ∧
      (s.averaged b).currentAdiff = adiffOf p.smaLen (bars.map V5Bar.close ++ [b.close]) := by
  have hclose := congrArg (· ++ [b.close]) h.close
  have hvalues := smaValues_addSma (s := { s with
    close := s.close ++ [b.close], high := s.high ++ [b.high], low := s.low ++ [b.low] })
    hp.sma h.params hclose h.smaSum h.smaValues
  exact ⟨smaSum_addSma hp.sma h.params hclose h.smaSum, hvalues, currentAdiff_eq hp.sma hvalues⟩

lemma adiffWindow_averaged : (s.averaged b).addAdiff.adiffWindow =
    lastOf p.normWindow (adiffs p.smaLen (bars.map V5Bar.close ++ [b.close])) :=
  adiffWindow_addAdiff (s := s.averaged b) hp.norm h.params (averaged_eq hp h b).2.2 h.adiffWindow

lemma acol_averaged : normalized (s.averaged b).currentAdiff (s.averaged b).addAdiff.adiffWindow =
    acolOf p (bars.map V5Bar.close ++ [b.close]) := by
  rw [adiffWindow_averaged hp h b, (averaged_eq hp h b).2.2]
  rfl

lemma trWindow_ranged : (s.ranged b).trWindow = lastOf p.atrLen (barRanges (bars ++ [b])) ∧
    (s.ranged b).trSum = (lastOf p.atrLen (barRanges (bars ++ [b]))).sum := by
  have htr := addTr_eq (s := (s.averaged b).addAdiff) hp.atr h.params (s.close.getLast?.getD b.close)
    b.high b.low h.trWindow h.trSum
  have hclose : (s.averaged b).addAdiff.close = bars.map V5Bar.close ++ [b.close] :=
    congrArg (· ++ [b.close]) h.close
  rw [barRanges_concat, ← hclose, ← h.close]
  exact htr

/-- The windows follow the history. -/
lemma fed_append : ∃ q, (s.ranged b).addPoc b.close = some { s.ranged b with pocSorted := q } ∧
    Fed p (bars ++ [b]) { s.ranged b with
      pocSorted := q
      lastAcol := normalized (s.averaged b).currentAdiff (s.averaged b).addAdiff.adiffWindow } := by
  have hcloses : (bars ++ [b]).map V5Bar.close = bars.map V5Bar.close ++ [b.close] := by simp
  have hclose : (s.ranged b).close = bars.map V5Bar.close ++ [b.close] := congrArg (· ++ [b.close]) h.close
  obtain ⟨hsum, hvalues, -⟩ := averaged_eq hp h b
  obtain ⟨htrWindow, htrSum⟩ := trWindow_ranged hp h b
  obtain ⟨q, hpoc, hperm, hsorted⟩ := addPoc_eq (s := s.ranged b) hp.poc h.params hclose h.perm h.sorted
  refine ⟨q, hpoc, ?_⟩
  constructor
  case params => exact h.params
  case close => exact hclose.trans hcloses.symm
  case smaSum => exact hcloses ▸ hsum
  case smaValues => exact hcloses ▸ hvalues
  case trWindow => exact htrWindow
  case trSum => exact htrSum
  case perm => exact hcloses ▸ hperm
  case sorted => exact hsorted
  case adiffWindow => exact hcloses ▸ adiffWindow_averaged hp h b
  case lastAcol => exact hcloses ▸ acol_averaged hp h b

/-- After more bars than `atr_len` the result is that of the history. -/
lemma result_eq (hlong : p.atrLen < (bars ++ [b]).length) {q : List K}
    (hperm : q.Perm (lastOf p.pocLen (bars.map V5Bar.close ++ [b.close]))) (hsorted : q.Pairwise (· ≤ ·)) :
    result { s.ranged b with pocSorted := q }
        (normalized (s.averaged b).currentAdiff (s.averaged b).addAdiff.adiffWindow) b.close b.high b.low =
      expected p (bars ++ [b]) := by
  have hcloses : (bars ++ [b]).map V5Bar.close = bars.map V5Bar.close ++ [b.close] := by simp
  have hclose : (s.ranged b).close = bars.map V5Bar.close ++ [b.close] := congrArg (· ++ [b.close]) h.close
  have hparams : (s.ranged b).params = p := h.params
  have hlast : (s.ranged b).lastAcol = acolOf p (bars.map V5Bar.close) := h.lastAcol
  have hcount : (bars.map V5Bar.close ++ [b.close]).length = (bars ++ [b]).length := by simp
  obtain ⟨htrWindow, htrSum⟩ := trWindow_ranged hp h b
  rw [lastOf_barRanges hlong] at htrWindow htrSum
  have hranges : ¬ (s.ranged b).trWindow.length < p.atrLen := by
    rw [htrWindow, length_lastOf, length_ranges]
    omega
  unfold result expected
  dsimp only
  rw [acol_averaged hp h b, hcloses, hclose, hparams, hlast, List.dropLast_concat, hcount]
  by_cases hshort : (bars ++ [b]).length < p.normWindow + p.smaLen + 10
  · rw [if_pos hshort, if_pos (.inl hshort)]
  · have hlength : q.length = min p.pocLen (bars ++ [b]).length := by
      rw [hperm.length_eq, length_lastOf, hcount]
    rw [if_neg hshort]
    by_cases hpoc : (bars ++ [b]).length < p.pocLen
    · have hmissing : (s.ranged b).trWindow.length < p.atrLen ∨ q.length < p.pocLen := .inr (by omega)
      rw [if_pos (.inr hpoc)]
      cases acolOf p (bars.map V5Bar.close ++ [b.close]) with
      | none => rfl
      | some acol =>
        cases acolOf p (bars.map V5Bar.close) with
        | none => rfl
        | some acolPrev => exact if_pos hmissing
    · have hfull : q.length = p.pocLen := by omega
      have hmedian : sortedMedian q p.pocLen = middle (lastOf p.pocLen (bars.map V5Bar.close ++ [b.close])) := by
        rw [← sortedMedian_eq hperm hsorted, ← hperm.length_eq, hfull]
      have hpresent : ¬ ((s.ranged b).trWindow.length < p.atrLen ∨ q.length < p.pocLen) :=
        not_or.mpr ⟨hranges, by omega⟩
      rw [if_neg (not_or.mpr ⟨hshort, hpoc⟩), htrSum, hmedian, List.getLast?_concat]
      cases acolOf p (bars.map V5Bar.close ++ [b.close]) with
      | none => rfl
      | some acol =>
        cases acolOf p (bars.map V5Bar.close) with
        | none => rfl
        | some acolPrev => exact if_neg hpresent

end Append

/-- After the bars of a list the state has their windows, and the result is that of the history. -/
theorem fed_feed {p : V5Params} (hp : Positive p) (bars : List (V5Bar K)) :
    ∃ s r, feed p bars = some (s, r) ∧ Fed p bars s ∧ (p.atrLen < bars.length → r = expected p bars) := by
  induction bars using List.reverseRecOn with
  | nil =>
    refine ⟨new p, none, rfl, ?_, fun hlong => absurd hlong (Nat.not_lt_zero _)⟩
    have hnone : adiffOf p.smaLen ([] : List K) = none := if_neg (by simp)
    constructor
    case params => rfl
    case close => rfl
    case smaSum => simp [new]
    case smaValues => rfl
    case trWindow => simp [new, barRanges]
    case trSum => simp [new, barRanges]
    case perm => simp [new]
    case sorted => exact List.Pairwise.nil
    case adiffWindow => simp [new, adiffs]
    case lastAcol =>
      show none = normalized (adiffOf p.smaLen []) _
      rw [hnone]
      rfl
  | append_singleton bars b ih =>
    obtain ⟨s, r, hfeed, hfed, -⟩ := ih
    obtain ⟨q, hpoc, hfed'⟩ := fed_append hp hfed b
    have hcloses : (bars ++ [b]).map V5Bar.close = bars.map V5Bar.close ++ [b.close] := by simp
    refine ⟨_, _, ?_, hfed', fun hlong => result_eq hp hfed b hlong (hcloses ▸ hfed'.perm) hfed'.sorted⟩
    rw [feed, List.foldlM_append]
    show (feed p bars >>= fun w => [b].foldlM (fun w b => append w.1 b) w) = _
    rw [hfeed]
    show (s.append b >>= fun w => some w) = _
    rw [append_eq hpoc]
    rfl

end V5SymbolState

/-! ## Prefix sums -/

lemma getD_prefixSums {cs : List K} {k : ℕ} (hk : k ≤ cs.length) :
    (prefixSums cs).getD k 0 = (cs.take k).sum := by
  have hscan : ∀ (l : List K) (a : K) (k : ℕ), k ≤ l.length →
      (l.scanl (· + ·) a).getD k 0 = a + (l.take k).sum := by
    intro l
    induction l with
    | nil =>
      intro a k hk
      obtain rfl : k = 0 := Nat.le_zero.mp hk
      simp
    | cons v l ih =>
      intro a k hk
      cases k with
      | zero => simp
      | succ k =>
        rw [List.scanl_cons, List.getD_cons_succ, ih _ _ (Nat.le_of_succ_le_succ hk), List.take_succ_cons,
          List.sum_cons, add_assoc]
  rw [prefixSums, hscan cs 0 k hk, zero_add]

/-- The sum of a window as a difference of prefix sums. -/
lemma sum_lastOf_take {cs : List K} {d k : ℕ} (hk : k ≤ cs.length) :
    (lastOf d (cs.take k)).sum = (cs.take k).sum - (cs.take (k - d)).sum := by
  have hsplit := congrArg List.sum (List.take_append_drop (k - d) (cs.take k))
  have hlength : (cs.take k).length = k := List.length_take_of_le hk
  rw [List.sum_append, List.take_take, min_eq_left (Nat.sub_le k d)] at hsplit
  rw [lastOf, hlength, ← hsplit, add_sub_cancel_left]

lemma windowAvg_eq {cs : List K} {L i : ℕ} (hi : i < cs.length) :
    windowAvg (prefixSums cs) i L = smaOf L (cs.take (i + 1)) := by
  have hlength : (cs.take (i + 1)).length = i + 1 := List.length_take_of_le hi
  unfold windowAvg smaOf
  dsimp only
  rw [hlength]
  by_cases h : L ≤ i + 1
  · have hend : ((i : ℤ) + 1).toNat = i + 1 := by omega
    have hstart : ((i : ℤ) - L + 1).toNat = i + 1 - L := by omega
    rw [if_neg (by omega), if_pos h, hend, hstart, getD_prefixSums (by omega), getD_prefixSums (by omega),
      sum_lastOf_take (by omega)]
  · rw [if_pos (by omega), if_neg h]

lemma windowAvg_of_neg (sums : List K) {L : ℕ} (hL : 0 < L) {i : ℤ} (hi : i < 0) :
    windowAvg sums i L = none := if_pos (by omega)

lemma adiffAt_eq {cs : List K} {L i : ℕ} (hL : 0 < L) (hi : i < cs.length) :
    adiffAt (prefixSums cs) i L = adiffOf L (cs.take (i + 1)) := by
  have hlength : (cs.take (i + 1)).length = i + 1 := List.length_take_of_le hi
  unfold adiffAt
  rw [windowAvg_eq hi]
  by_cases hfive : 5 ≤ i
  · have hprev : ((i : ℤ) - 5) = ((i - 5 : ℕ) : ℤ) := by omega
    have htake : (cs.take (i + 1)).take (i + 1 - 5) = cs.take (i - 5 + 1) := by
      rw [List.take_take]
      congr 1
      omega
    have hlength' : (cs.take (i - 5 + 1)).length = i - 5 + 1 := List.length_take_of_le (by omega)
    rw [hprev, windowAvg_eq (by omega)]
    unfold smaOf adiffOf adiffVal
    rw [hlength, hlength', htake]
    by_cases hfull : L + 5 ≤ i + 1
    · rw [if_pos (by omega), if_pos (by omega), if_pos hfull]
      rfl
    · rw [if_neg (by omega : ¬ L ≤ i - 5 + 1), if_neg hfull]
      split <;> rfl
  · have hnone : adiffOf L (cs.take (i + 1)) = none := if_neg (by rw [hlength]; omega)
    rw [windowAvg_of_neg _ hL (by omega), hnone]
    cases smaOf L (cs.take (i + 1)) <;> rfl

/-! ## Slices of differences -/

/-- The differences of the last `norm` bars, all of which are there. -/
lemma filterMap_adiffOf {cs : List K} {L norm m : ℕ} (hm : m ≤ cs.length) (hlong : norm + L + 4 ≤ m) :
    ((List.range norm).filterMap fun k => adiffOf L (cs.take (m - norm + k + 1))) =
      lastOf norm (adiffs L (cs.take m)) := by
  have hlength : (cs.take m).length = m := List.length_take_of_le hm
  have hsome : ∀ k ∈ List.range norm, adiffOf L (cs.take (m - norm + k + 1)) =
      some (adiffVal L (cs.take (m - norm + k + 1))) := by
    intro k hk
    have hk' := List.mem_range.mp hk
    exact if_pos (by rw [List.length_take]; omega)
  rw [List.filterMap_congr hsome, List.filterMap_eq_map', adiffs, lastOf_map]
  refine List.ext_getElem ?_ fun k hk _ => ?_
  · rw [List.length_map, List.length_map, length_lastOf, List.length_range, List.length_range, hlength]
    omega
  · rw [List.length_map, List.length_range] at hk
    simp only [List.getElem_map, List.getElem_range, lastOf, List.getElem_drop, List.length_range, hlength,
      List.take_take]
    congr 2
    omega

/-! ## `compute_v5_tail_indicators` -/

lemma acolAt_eq {cs : List K} {p : V5Params} (hL : 0 < p.smaLen) {m : ℕ} (hm : m ≤ cs.length)
    (hlong : p.normWindow + p.smaLen + 4 ≤ m) : acolAt (prefixSums cs) p ((m : ℤ) - 1) = acolOf p (cs.take m) := by
  have htarget : ((m : ℤ) - 1) = ((m - 1 : ℕ) : ℤ) := by omega
  have hsucc : m - 1 + 1 = m := by omega
  unfold acolAt acolOf
  dsimp only
  rw [← filterMap_adiffOf hm hlong]
  congr 1
  · rw [htarget, adiffAt_eq hL (by omega), hsucc]
  · refine List.filterMap_congr fun k hk => ?_
    have hk' := List.mem_range.mp hk
    have hindex : (m : ℤ) - 1 - p.normWindow + 1 + k = ((m - p.normWindow + k : ℕ) : ℤ) := by omega
    rw [hindex, adiffAt_eq hL (by omega)]

lemma getElem_rangesFrom (a : V5Bar K) (bars : List (V5Bar K)) {j : ℕ}
    (hr : j < (rangesFrom a.close bars).length) (hj : j < bars.length) (ha : j < (a :: bars).length) :
    (rangesFrom a.close bars)[j] = trueRange (a :: bars)[j].close bars[j].high bars[j].low := by
  induction bars generalizing a j with
  | nil => exact absurd hj (Nat.not_lt_zero j)
  | cons b rest ih =>
    cases j with
    | zero => rfl
    | succ j =>
      exact ih b (Nat.lt_of_succ_lt_succ hr) (Nat.lt_of_succ_lt_succ hj) (Nat.lt_of_succ_lt_succ ha)

lemma atrTail_eq {bars : List (V5Bar K)} {period : ℕ} (hlong : period < bars.length) :
    atrTail (bars.map V5Bar.high) (bars.map V5Bar.low) (bars.map V5Bar.close) period =
      some ((lastOf period (ranges bars)).sum / period) := by
  obtain ⟨a, rest, rfl⟩ := List.exists_cons_of_ne_nil (List.ne_nil_of_length_pos (Nat.zero_lt_of_lt hlong))
  have hlength : ((a :: rest).map V5Bar.close).length = rest.length + 1 := by simp
  rw [List.length_cons] at hlong
  unfold atrTail
  dsimp only
  rw [hlength, if_neg (by omega)]
  congr 3
  refine List.ext_getElem ?_ fun k hk _ => ?_
  · rw [List.length_map, List.length_range', length_lastOf, length_ranges, List.length_cons]
    omega
  · rw [List.length_map, List.length_range'] at hk
    have hindex : rest.length + 1 - period + k = rest.length - period + k + 1 := by omega
    simp only [List.getElem_map, List.getElem_range', one_mul, lastOf, ranges, List.getElem_drop,
      length_rangesFrom]
    rw [getElem_rangesFrom a rest _ (by omega) (by simp; omega), hindex, Nat.add_sub_cancel,
      List.getD_eq_getElem _ _ (by rw [hlength]; omega), List.getD_eq_getElem _ _ (by simp; omega),
      List.getD_eq_getElem _ _ (by simp; omega)]
    simp only [List.getElem_map, List.getElem_cons_succ]

lemma medianTail_eq {vals : List K} {period : ℕ} (h : period ≤ vals.length) :
    medianTail vals period = some (middle (lastOf period vals)) := by
  have hlength : (lastOf period vals).length = period := by rw [length_lastOf, min_eq_left h]
  have hmedian := sortedMedian_eq (List.perm_insertionSort (· ≤ ·) (lastOf period vals))
    (List.pairwise_insertionSort (· ≤ ·) _)
  rw [hlength] at hmedian
  rw [medianTail, if_neg (not_lt.mpr h), hmedian]

/-- The last bar as the lists have it. -/
lemma getLastD_map {bars : List (V5Bar K)} {last : V5Bar K} (h : bars.getLast? = some last) (f : V5Bar K → K) :
    (bars.map f).getLastD 0 = f last := by
  rw [List.getLastD_eq_getLast?, List.getLast?_map, h]
  rfl

theorem computeV5TailIndicators_eq {p : V5Params} (hp : V5SymbolState.Positive p) {bars : List (V5Bar K)}
    (hlong : p.atrLen < bars.length) :
    computeV5TailIndicators p (bars.map V5Bar.close) (bars.map V5Bar.high) (bars.map V5Bar.low) =
      expected p bars := by
  have hlength : (bars.map V5Bar.close).length = bars.length := List.length_map _
  unfold computeV5TailIndicators expected
  dsimp only
  rw [hlength]
  by_cases hshort : bars.length < p.normWindow + p.smaLen + 10
  · rw [if_pos hshort, if_pos (.inl hshort)]
  · have hne : bars ≠ [] := List.ne_nil_of_length_pos (Nat.zero_lt_of_lt hlong)
    obtain ⟨last, hlast⟩ : ∃ last, bars.getLast? = some last := ⟨_, List.getLast?_eq_some_getLast hne⟩
    have hprev : acolAt (prefixSums (bars.map V5Bar.close)) p ((bars.length : ℤ) - 2) =
        acolOf p (bars.map V5Bar.close).dropLast := by
      have hindex : (bars.length : ℤ) - 2 = ((bars.length - 1 : ℕ) : ℤ) - 1 := by omega
      rw [hindex, acolAt_eq hp.sma (by omega) (by omega), List.dropLast_eq_take, hlength]
    have hnow : acolAt (prefixSums (bars.map V5Bar.close)) p ((bars.length : ℤ) - 1) =
        acolOf p (bars.map V5Bar.close) := by
      rw [acolAt_eq hp.sma (by omega) (by omega), List.take_of_length_le hlength.le]
    rw [if_neg hshort, hprev, hnow, atrTail_eq hlong, hlast, getLastD_map hlast, getLastD_map hlast,
      getLastD_map hlast]
    by_cases hpoc : bars.length < p.pocLen
    · have hmissing : medianTail (bars.map V5Bar.close) p.pocLen = none := if_pos (by rwa [hlength])
      rw [hmissing, if_pos (.inr hpoc)]
      cases acolOf p (bars.map V5Bar.close).dropLast with
      | none => rfl
      | some acolPrev => cases acolOf p (bars.map V5Bar.close) <;> rfl
    · rw [medianTail_eq (by omega), if_neg (not_or.mpr ⟨hshort, hpoc⟩)]
      cases acolOf p (bars.map V5Bar.close).dropLast with
      | none => cases acolOf p (bars.map V5Bar.close) <;> rfl
      | some acolPrev => cases acolOf p (bars.map V5Bar.close) <;> rfl

/-! ## `compute_v5_tail_indicators_numpy` -/

lemma smaArray_eq {cs : List K} {L : ℕ} (hL : 0 < L) (hlong : L ≤ cs.length) :
    smaArray cs L = (List.range cs.length).map fun i => smaOf L (cs.take (i + 1)) := by
  have hsums : (prefixSums cs).length = cs.length + 1 := by simp [prefixSums]
  unfold smaArray
  dsimp only
  rw [if_pos (by omega)]
  refine List.ext_getElem ?_ fun i hi hi' => ?_
  · simp only [List.length_append, List.length_replicate, List.length_zipWith, List.length_drop, hsums,
      List.length_take, List.length_map, List.length_range]
    omega
  · rw [List.length_map, List.length_range] at hi'
    have hlength : (cs.take (i + 1)).length = i + 1 := List.length_take_of_le hi'
    rw [List.getElem_map, List.getElem_range, smaOf, hlength]
    by_cases hfirst : i < L - 1
    · rw [List.getElem_append_left (by simpa using hfirst), List.getElem_replicate, if_neg (by omega)]
    · have hend : L - 1 + 1 + (i - (L - 1)) = i + 1 := by omega
      have hstart : i + 1 - L = i - (L - 1) := by omega
      rw [List.getElem_append_right (by simpa using not_lt.mp hfirst), if_pos (by omega),
        sum_lastOf_take (by omega), ← getD_prefixSums (by omega), ← getD_prefixSums (by omega),
        List.getD_eq_getElem _ _ (by omega), List.getD_eq_getElem _ _ (by omega)]
      simp only [List.getElem_zipWith, List.getElem_drop, List.getElem_take, List.length_replicate, hend, hstart]

lemma adiffArray_eq {cs : List K} {L : ℕ} (hL : 0 < L) (hlong : 5 < cs.length) (hsma : L ≤ cs.length) :
    adiffArray (smaArray cs L) = (List.range cs.length).map fun i => adiffOf L (cs.take (i + 1)) := by
  rw [smaArray_eq hL hsma]
  unfold adiffArray
  dsimp only
  rw [List.length_map, List.length_range, if_pos hlong]
  refine List.ext_getElem ?_ fun i hi hi' => ?_
  · simp only [List.length_append, List.length_replicate, List.length_zipWith, List.length_drop,
      List.length_take, List.length_map, List.length_range]
    omega
  · rw [List.length_map, List.length_range] at hi'
    have hlength : (cs.take (i + 1)).length = i + 1 := List.length_take_of_le hi'
    rw [List.getElem_map, List.getElem_range]
    by_cases hfirst : i < 5
    · rw [List.getElem_append_left (by simpa using hfirst), List.getElem_replicate, adiffOf, hlength,
        if_neg (by omega)]
    · have hnow : 5 + (i - 5) + 1 = i + 1 := by omega
      have htake : (cs.take (i + 1)).take (i + 1 - 5) = cs.take (i - 5 + 1) := by
        rw [List.take_take]
        congr 1
        omega
      have hlength' : (cs.take (i - 5 + 1)).length = i - 5 + 1 := List.length_take_of_le (by omega)
      rw [List.getElem_append_right (by simpa using not_lt.mp hfirst)]
      simp only [List.getElem_zipWith, List.getElem_drop, List.getElem_take, List.length_replicate,
        List.getElem_map, List.getElem_range, hnow]
      unfold smaOf adiffOf adiffVal
      rw [hlength, hlength', htake]
      by_cases hfull : L + 5 ≤ i + 1
      · rw [if_pos (by omega), if_pos (by omega), if_pos hfull]
        rfl
      · rw [if_neg (by omega : ¬ L ≤ i - 5 + 1), if_neg hfull]
        split <;> rfl

lemma acolOfArray_eq {cs : List K} {p : V5Params} (hp : V5SymbolState.Positive p) {m : ℕ} (hm : m ≤ cs.length)
    (hlong : p.normWindow + p.smaLen + 5 ≤ m) :
    acolOfArray (adiffArray (smaArray cs p.smaLen)) p.normWindow (m - 1) = acolOf p (cs.take m) := by
  have hsma := hp.sma
  have hnorm := hp.norm
  have hsucc : m - 1 + 1 = m := by omega
  have harray : adiffArray (smaArray cs p.smaLen) =
      (List.range cs.length).map fun i => adiffOf p.smaLen (cs.take (i + 1)) :=
    adiffArray_eq hp.sma (by omega) (by omega)
  have hslice : (((adiffArray (smaArray cs p.smaLen)).take m).drop (m - p.normWindow)).filterMap id =
      lastOf p.normWindow (adiffs p.smaLen (cs.take m)) := by
    rw [← filterMap_adiffOf hm (by omega), harray]
    have hmap : (((List.range cs.length).map fun i => adiffOf p.smaLen (cs.take (i + 1))).take m).drop
        (m - p.normWindow) =
        (List.range p.normWindow).map fun k => adiffOf p.smaLen (cs.take (m - p.normWindow + k + 1)) := by
      refine List.ext_getElem ?_ fun k hk _ => ?_
      · simp only [List.length_drop, List.length_take, List.length_map, List.length_range]
        omega
      · simp only [List.getElem_drop, List.getElem_take, List.getElem_map, List.getElem_range]
    rw [hmap, List.filterMap_map]
    rfl
  have hlast : (adiffArray (smaArray cs p.smaLen)).getD (m - 1) none = adiffOf p.smaLen (cs.take m) := by
    rw [harray, List.getD_eq_getElem _ _ (by simp; omega), List.getElem_map, List.getElem_range, hsucc]
  have hfull : (lastOf p.normWindow (adiffs p.smaLen (cs.take m))).length ≠ 0 := by
    rw [length_lastOf, length_adiffs, List.length_take_of_le hm]
    omega
  unfold acolOfArray
  dsimp only
  rw [hsucc, hslice, hlast, if_neg hfull]
  rfl

/-- The array of the true ranges after a close. -/
lemma zipWith_ranges (prevClose : K) (bars : List (V5Bar K)) :
    List.zipWith max (List.zipWith (· - ·) (bars.map V5Bar.high) (bars.map V5Bar.low))
        (List.zipWith max
          (List.zipWith (fun h p => |h - p|) (bars.map V5Bar.high)
            (prevClose :: (bars.map V5Bar.close).dropLast))
          (List.zipWith (fun l p => |l - p|) (bars.map V5Bar.low)
            (prevClose :: (bars.map V5Bar.close).dropLast))) =
      rangesFrom prevClose bars := by
  induction bars generalizing prevClose with
  | nil => rfl
  | cons b rest ih =>
    have hrange : max (b.high - b.low) (max |b.high - prevClose| |b.low - prevClose|) =
        trueRange prevClose b.high b.low := (max_assoc _ _ _).symm
    cases rest with
    | nil =>
      simp only [List.map_cons, List.map_nil, List.zipWith_cons_cons, List.zipWith_nil_left, rangesFrom, hrange]
    | cons b' rest =>
      rw [rangesFrom, ← ih b.close, ← hrange]
      rfl

lemma lastOf_trArray {bars : List (V5Bar K)} {d : ℕ} (hlong : d < bars.length) :
    lastOf d (trArray (bars.map V5Bar.close) (bars.map V5Bar.high) (bars.map V5Bar.low)) =
      lastOf d (ranges bars) := by
  obtain ⟨b, rest, rfl⟩ := List.exists_cons_of_ne_nil (List.ne_nil_of_length_pos (Nat.zero_lt_of_lt hlong))
  have htr : trArray ((b :: rest).map V5Bar.close) ((b :: rest).map V5Bar.high) ((b :: rest).map V5Bar.low) =
      rangesFrom b.close (b :: rest) := zipWith_ranges b.close (b :: rest)
  rw [htr, rangesFrom, ranges]
  refine lastOf_cons_of_le ?_ _
  rw [length_rangesFrom]
  exact Nat.le_of_lt_succ hlong

theorem computeV5TailIndicatorsNumpy_eq {p : V5Params} (hp : V5SymbolState.Positive p) {bars : List (V5Bar K)}
    (hlong : p.atrLen < bars.length) :
    computeV5TailIndicatorsNumpy p (bars.map V5Bar.close) (bars.map V5Bar.high) (bars.map V5Bar.low) =
      expected p bars := by
  have hlength : (bars.map V5Bar.close).length = bars.length := List.length_map _
  unfold computeV5TailIndicatorsNumpy expected
  dsimp only
  rw [hlength]
  by_cases hshort : bars.length < p.normWindow + p.smaLen + 10
  · rw [if_pos hshort, if_pos (.inl hshort)]
  · have hne : bars ≠ [] := List.ne_nil_of_length_pos (Nat.zero_lt_of_lt hlong)
    obtain ⟨last, hlast⟩ : ∃ last, bars.getLast? = some last := ⟨_, List.getLast?_eq_some_getLast hne⟩
    have hprev : acolOfArray (adiffArray (smaArray (bars.map V5Bar.close) p.smaLen)) p.normWindow
        (bars.length - 2) = acolOf p (bars.map V5Bar.close).dropLast := by
      have hindex : bars.length - 2 = bars.length - 1 - 1 := by omega
      rw [hindex, acolOfArray_eq hp (by omega) (by omega), List.dropLast_eq_take, hlength]
    have hnow : acolOfArray (adiffArray (smaArray (bars.map V5Bar.close) p.smaLen)) p.normWindow
        (bars.length - 1) = acolOf p (bars.map V5Bar.close) := by
      rw [acolOfArray_eq hp hlength.ge (by omega), List.take_of_length_le hlength.le]
    have hcount : (lastOf p.atrLen (ranges bars)).length = p.atrLen := by
      rw [length_lastOf, length_ranges]
      omega
    rw [if_neg hshort, hprev, hnow, lastOf_trArray hlong, hcount, hlast, getLastD_map hlast,
      getLastD_map hlast, getLastD_map hlast]
    by_cases hpoc : bars.length < p.pocLen
    · rw [if_pos (.inr hpoc)]
      cases acolOf p (bars.map V5Bar.close).dropLast with
      | none => rfl
      | some acolPrev =>
        cases acolOf p (bars.map V5Bar.close) with
        | none => rfl
        | some acol =>
          refine (if_neg (not_le.mpr hlong)).trans ?_
          rw [if_pos hpoc]
          exact ite_self _
    · rw [if_neg (not_or.mpr ⟨hshort, hpoc⟩)]
      cases acolOf p (bars.map V5Bar.close).dropLast with
      | none => cases acolOf p (bars.map V5Bar.close) <;> rfl
      | some acolPrev =>
        cases acolOf p (bars.map V5Bar.close) with
        | none => rfl
        | some acol =>
          refine (if_neg (not_le.mpr hlong)).trans ?_
          rw [if_neg hpoc]
          rfl

/-! ## Agreement -/

/-- After any history of more than `atr_len` bars, the state that has taken them one by one and the two
functions of the whole history have one result. -/
theorem v5_agree {p : V5Params} (hp : V5SymbolState.Positive p) {bars : List (V5Bar K)}
    (hlong : p.atrLen < bars.length) :
    ∃ s r, V5SymbolState.feed p bars = some (s, r) ∧
      r = computeV5TailIndicators p (bars.map V5Bar.close) (bars.map V5Bar.high) (bars.map V5Bar.low) ∧
      r = computeV5TailIndicatorsNumpy p (bars.map V5Bar.close) (bars.map V5Bar.high)
        (bars.map V5Bar.low) := by
  obtain ⟨s, r, hfeed, -, hresult⟩ := V5SymbolState.fed_feed hp bars
  refine ⟨s, r, hfeed, ?_, ?_⟩
  · rw [hresult hlong, computeV5TailIndicators_eq hp hlong]
  · rw [hresult hlong, computeV5TailIndicatorsNumpy_eq hp hlong]

/-- Fifteen bars through windows of two. -/
def fifteenBars : List (V5Bar ℚ) :=
  (List.range 15).map fun k : ℕ => ⟨100 + k * k % 7, 103 + k * k % 7, 99 + k * k % 7⟩

def twos : V5Params := { smaLen := 2, atrLen := 2, pocLen := 2, normWindow := 2 }

theorem v5_agree_twos :
    ∃ s r, V5SymbolState.feed twos fifteenBars = some (s, r) ∧
      r = computeV5TailIndicators twos (fifteenBars.map V5Bar.close) (fifteenBars.map V5Bar.high)
        (fifteenBars.map V5Bar.low) ∧
      r = computeV5TailIndicatorsNumpy twos (fifteenBars.map V5Bar.close) (fifteenBars.map V5Bar.high)
        (fifteenBars.map V5Bar.low) :=
  v5_agree ⟨by decide, by decide, by decide, by decide⟩ (by decide)

end PaperTrade.Indicators
