import Mathlib.Data.List.Sort
import Mathlib.Tactic

/-!
# Data frames

A `Frame` is a `pandas.DataFrame`: an index and named columns with one value for each label of the index.
`ofSeries` aligns series to the sorted union of their labels, and `reindexLike` reads a frame at the
labels of another one; both fill in a missing value. Where all series have the same labels in order
there is nothing to align (`ofSeries_common`), and a frame reindexed like one of its own shape stays as
it is (`reindexLike_eq_self`).
-/

namespace PaperTrade.Runtime

variable {ι α : Type} [LinearOrder ι]

/-- A `DataFrame`. -/
structure Frame (ι α : Type) where
  index : List ι
  columns : List (String × List α)
deriving DecidableEq

namespace Frame

/-- `pd.DataFrame(series).sort_index()` of a `dict` of series, each with no label twice. -/
def ofSeries (missing : α) (series : List (String × List (ι × α))) : Frame ι α :=
  let index := (series.flatMap fun s => s.2.map Prod.fst).dedup.insertionSort (· ≤ ·)
  ⟨index, series.map fun s => (s.1, index.map fun label => (s.2.lookup label).getD missing)⟩

/-- The value of a column at a label. -/
def cell (missing : α) (f : Frame ι α) (column : String) (label : ι) : α :=
  match f.columns.find? fun c => c.1 = column with
  | none => missing
  | some c => ((f.index.zip c.2).lookup label).getD missing

/-- `f.reindex_like(like)`. -/
def reindexLike (missing : α) (f like : Frame ι α) : Frame ι α :=
  ⟨like.index, like.columns.map fun c => (c.1, like.index.map (f.cell missing c.1))⟩

omit [LinearOrder ι] in
/-- `f op g` of two frames with the same labels. -/
def combine (op : α → α → α) (f g : Frame ι α) : Frame ι α :=
  ⟨f.index, List.zipWith (fun c d => (c.1, List.zipWith op c.2 d.2)) f.columns g.columns⟩

omit [LinearOrder ι] in
/-- `op f` for each value. -/
def map (op : α → α) (f : Frame ι α) : Frame ι α :=
  ⟨f.index, f.columns.map fun c => (c.1, c.2.map op)⟩

/-! ## Alignment -/

/-- Looking up the labels of a series one by one reads off its values. -/
lemma map_lookup (missing : α) (s : List (ι × α)) (h : (s.map Prod.fst).Nodup) :
    (s.map Prod.fst).map (fun label => (s.lookup label).getD missing) = s.map Prod.snd := by
  induction s with
  | nil => rfl
  | cons e s ih =>
    obtain ⟨hnot, hnodup⟩ := List.nodup_cons.mp h
    rw [List.map_cons, List.map_cons, List.map_cons, List.lookup_cons_self, Option.getD_some,
      ← ih hnodup]
    congr 1
    apply List.map_congr_left
    intro label hlabel
    have hne : (label == e.1) = false := by
      rw [beq_eq_false_iff_ne]
      rintro rfl
      exact hnot hlabel
    rw [List.lookup_cons, hne]

/-- Series of the same labels, which grow. -/
theorem ofSeries_common (missing : α) {series : List (String × List (ι × α))} {labels : List ι}
    (hne : series ≠ []) (hlabels : labels.Pairwise (· < ·))
    (h : ∀ s ∈ series, s.2.map Prod.fst = labels) :
    ofSeries missing series = ⟨labels, series.map fun s => (s.1, s.2.map Prod.snd)⟩ := by
  have hmem : ∀ label, label ∈ series.flatMap (fun s => s.2.map Prod.fst) ↔ label ∈ labels := by
    intro label
    rw [List.mem_flatMap]
    constructor
    · rintro ⟨s, hs, hlabel⟩
      exact h s hs ▸ hlabel
    · intro hlabel
      obtain ⟨s, hs⟩ := List.exists_mem_of_ne_nil series hne
      exact ⟨s, hs, (h s hs).symm ▸ hlabel⟩
  have hnodup : labels.Nodup := hlabels.imp fun h => h.ne
  have hperm : ((series.flatMap fun s => s.2.map Prod.fst).dedup.insertionSort (· ≤ ·)).Perm labels := by
    refine (List.perm_insertionSort _ _).trans ?_
    rw [List.perm_ext_iff_of_nodup (List.nodup_dedup _) hnodup]
    intro label
    rw [List.mem_dedup, hmem]
  have hindex : (series.flatMap fun s => s.2.map Prod.fst).dedup.insertionSort (· ≤ ·) = labels :=
    hperm.eq_of_pairwise' (List.pairwise_insertionSort _ _) (hlabels.imp fun h => h.le)
  unfold ofSeries
  dsimp only
  rw [hindex]
  congr 1
  apply List.map_congr_left
  intro s hs
  have hs' : (s.2.map Prod.fst).Nodup := (h s hs).symm ▸ hnodup
  rw [← h s hs, map_lookup missing s.2 hs']

/-- A frame with the labels of the other one. -/
theorem reindexLike_eq_self (missing : α) {f like : Frame ι α} (hindex : like.index = f.index)
    (hcolumns : like.columns.map Prod.fst = f.columns.map Prod.fst)
    (hnodup : f.index.Nodup) (hnames : (f.columns.map Prod.fst).Nodup)
    (hlength : ∀ c ∈ f.columns, c.2.length = f.index.length) : f.reindexLike missing like = f := by
  have hcell : ∀ c ∈ f.columns, f.index.map (f.cell missing c.1) = c.2 := by
    intro c hc
    have hfind : (f.columns.find? fun d => d.1 = c.1) = some c := by
      cases hfound : f.columns.find? fun d => d.1 = c.1 with
      | none => exact absurd (by simp) ((List.find?_eq_none.mp hfound) c hc)
      | some d =>
        have hd : d.1 = c.1 := by simpa using List.find?_some hfound
        rw [List.inj_on_of_nodup_map hnames (List.mem_of_find?_eq_some hfound) hc hd]
    have hfst : (f.index.zip c.2).map Prod.fst = f.index :=
      List.map_fst_zip (hlength c hc).ge
    have hsnd : (f.index.zip c.2).map Prod.snd = c.2 := List.map_snd_zip (hlength c hc).le
    have hlookup := map_lookup missing (f.index.zip c.2) (hfst.symm ▸ hnodup)
    rw [hfst, hsnd] at hlookup
    rw [← hlookup]
    apply List.map_congr_left
    intro label _
    rw [cell, hfind]
  have hmap : f.columns.map (fun c => (c.1, f.index.map (f.cell missing c.1))) = f.columns := by
    conv_rhs => rw [← List.map_id f.columns]
    apply List.map_congr_left
    intro c hc
    rw [hcell c hc]
    rfl
  have hall : like.columns.map (fun c => (c.1, f.index.map (f.cell missing c.1))) = f.columns := by
    have hboth : ∀ cs : List (String × List α),
        cs.map (fun c => (c.1, f.index.map (f.cell missing c.1))) =
          (cs.map Prod.fst).map fun name => (name, f.index.map (f.cell missing name)) := by
      intro cs
      rw [List.map_map]
      rfl
    rw [hboth, hcolumns, ← hboth, hmap]
  unfold reindexLike
  rw [hindex, hall]

end Frame

end PaperTrade.Runtime
