import Mathlib.Data.List.Sort
import PaperTrade.Runtime.SortedMap
import PaperTrade.Runtime.Table

/-!
# Reading parquet files

`read_parquet_candles` puts the candles of all files of a symbol together, the base file first and then
the deltas by name, and a later file wins where two have a candle of the same open time. With
`tail_rows` it cuts every file to its own tail before. Nothing is lost that way: a candle that is cut
off has that many later ones in its own file, so neither it nor an older version of it is in the tail of
the whole (`readParquetCandles_tail`).

Of a candle only `open_time` is looked at.
-/

namespace PaperTrade.Runner

open PaperTrade.Runtime

/-- A candle of a file, with what is not looked at. -/
structure ParquetCandle (α : Type) where
  openTime : ℤ
  columns : α
deriving DecidableEq

/-- The name of a file, and its rows when it can be read. -/
abbrev ParquetFile (α : Type) := String × Option (List (ParquetCandle α))

section Read

variable {α : Type}

/-- `fname.endswith(".parquet")`. -/
def isParquet (fname : String) : Bool := ".parquet".toList.isSuffixOf fname.toList

/-- `0 if f == "base.parquet" else 1`. -/
def fileRank (fname : String) : ℕ := if fname = "base.parquet" then 0 else 1

/-- `files`, the base file first. -/
def sortedFiles (listing : List (ParquetFile α)) : List (ParquetFile α) :=
  (listing.filter fun f => isParquet f.1).insertionSort fun f g =>
    fileRank f.1 < fileRank g.1 ∨ fileRank f.1 = fileRank g.1 ∧ f.1 ≤ g.1

/-- The rows that are read of a file: `table.slice(row_count - tail_rows, tail_rows)` of a longer one. -/
def fileRows (tailRows : Option ℤ) (file : ParquetFile α) : List (ParquetCandle α) :=
  let rows := file.2.getD []
  match tailRows with
  | none => rows
  | some n => if 0 < n ∧ n < rows.length then (rows.drop (rows.length - n.toNat)).take n.toNat else rows

/-- `by_open_time`. -/
def byOpenTime (candles : List (ParquetCandle α)) : Dict ℤ (ParquetCandle α) :=
  candles.foldl (fun by_open_time candle => by_open_time.set candle.openTime candle) .empty

/-- `read_parquet_candles` of a directory; `none` is a directory that does not exist. -/
def readParquetCandles (symbolDir : Option (List (ParquetFile α))) (tailRows : Option ℤ) :
    List (ParquetCandle α) :=
  match symbolDir with
  | none => []
  | some listing =>
    let byTime := byOpenTime ((sortedFiles listing).flatMap (fileRows tailRows))
    let result := (byTime.keys.insertionSort (· ≤ ·)).filterMap byTime.get?
    match tailRows with
    | none => result
    | some n => if 0 < n then result.drop (result.length - n.toNat) else result

end Read

/-! ## The candles as a sorted map -/

section Merge

variable {α : Type}

/-- A candle under its open time. -/
def ParquetCandle.entry (c : ParquetCandle α) : ℤ × ParquetCandle α := (c.openTime, c)

/-- The candles, a later one over an earlier one. -/
def merged (candles : List (ParquetCandle α)) : SortedMap ℤ (ParquetCandle α) :=
  SortedMap.empty.putAll (candles.map ParquetCandle.entry)

/-- The candles of a map, the earliest first. -/
def ascending (m : SortedMap ℤ (ParquetCandle α)) : List (ParquetCandle α) :=
  m.entries.reverse.map Prod.snd

lemma mem_byOpenTime (candles : List (ParquetCandle α)) {e : ℤ × ParquetCandle α} :
    e ∈ (byOpenTime candles).rows ↔ e ∈ (merged candles).entries := by
  have hgrow (rest : List (ParquetCandle α)) (d : Dict ℤ (ParquetCandle α))
      (m : SortedMap ℤ (ParquetCandle α)) (h : ∀ e, e ∈ d.rows ↔ e ∈ m.entries) :
      ∀ e, e ∈ (rest.foldl (fun by_open_time candle => by_open_time.set candle.openTime candle) d).rows ↔
        e ∈ (m.putAll (rest.map ParquetCandle.entry)).entries := by
    induction rest generalizing d m with
    | nil => exact h
    | cons c rest ih =>
      refine ih _ (m.upsert c.openTime c) fun e => ?_
      rw [Dict.mem_set, SortedMap.mem_entries_upsert, h]
  exact hgrow candles .empty .empty (fun e => Iff.rfl) e

/-- `[by_open_time[t] for t in sorted(by_open_time)]`. -/
lemma sorted_byOpenTime (candles : List (ParquetCandle α)) :
    (((byOpenTime candles).keys.insertionSort (· ≤ ·)).filterMap (byOpenTime candles).get?) =
      ascending (merged candles) := by
  have hkeys : (byOpenTime candles).keys.insertionSort (· ≤ ·) =
      (merged candles).entries.reverse.map Prod.fst := by
    have hnodup : ((merged candles).entries.reverse.map Prod.fst).Nodup := by
      rw [List.map_reverse, List.nodup_reverse]
      exact (merged candles).nodup_keys
    have hperm : ((byOpenTime candles).keys.insertionSort (· ≤ ·)).Perm
        ((merged candles).entries.reverse.map Prod.fst) := by
      refine (List.perm_insertionSort _ _).trans
        ((List.perm_ext_iff_of_nodup (byOpenTime candles).nodup_keys hnodup).mpr fun t => ?_)
      simp only [Dict.keys, List.mem_map, mem_byOpenTime, List.mem_reverse]
    have hsorted : ((merged candles).entries.reverse.map Prod.fst).Pairwise (· ≤ ·) := by
      rw [List.map_reverse, List.pairwise_reverse]
      exact (merged candles).sorted_keys.imp fun h => le_of_lt h
    exact hperm.eq_of_pairwise (fun a b _ _ => le_antisymm) (List.pairwise_insertionSort _ _) hsorted
  rw [hkeys, List.filterMap_map, ascending, ← List.filterMap_eq_map]
  refine List.filterMap_congr fun e he => ?_
  exact (Dict.get?_some_iff _ _ _).mpr ((mem_byOpenTime candles).mpr (List.mem_reverse.mp he))

lemma length_ascending (m : SortedMap ℤ (ParquetCandle α)) :
    (ascending m).length = m.entries.length := by
  rw [ascending, List.length_map, List.length_reverse]

/-- The last `n` candles are those of the `n` greatest keys. -/
lemma drop_ascending (m : SortedMap ℤ (ParquetCandle α)) (n : ℕ) :
    (ascending m).drop ((ascending m).length - n) = ascending (m.keep n) := by
  rw [length_ascending, ascending, ascending, ← List.map_drop, SortedMap.entries_keep,
    List.reverse_take]

end Merge

/-! ## Tails -/

section Tail

variable {α : Type}

/-- The rows of a file ascend. -/
def Ascends (file : ParquetFile α) : Prop :=
  (file.2.getD []).Pairwise fun a b => a.openTime < b.openTime

instance (file : ParquetFile α) : Decidable (Ascends file) :=
  inferInstanceAs (Decidable (List.Pairwise _ _))

/-- The candle is in one of the files, and no file behind that one has a candle of its time. -/
def Latest (files : List (ParquetFile α)) (c : ParquetCandle α) : Prop :=
  ∃ earlier file later, files = earlier ++ file :: later ∧ c ∈ file.2.getD [] ∧
    ∀ g ∈ later, ∀ c' ∈ g.2.getD [], c'.openTime ≠ c.openTime

lemma pairwise_entries {rows : List (ParquetCandle α)}
    (h : rows.Pairwise fun a b => a.openTime < b.openTime) :
    (rows.map ParquetCandle.entry).Pairwise fun a b => a.1 < b.1 := h.map _ fun _ _ h => h

/-- A file may be cut to its tail. -/
lemma keep_fileRows {file : ParquetFile α} (h : Ascends file) {n : ℤ}
    (m : SortedMap ℤ (ParquetCandle α)) :
    (m.putAll ((fileRows (some n) file).map ParquetCandle.entry)).keep n.toNat =
      (m.putAll ((fileRows none file).map ParquetCandle.entry)).keep n.toNat := by
  simp only [fileRows]
  split
  · rename_i hlong
    let rows := file.2.getD []
    let tail := rows.drop (rows.length - n.toNat)
    have hlength : tail.length = n.toNat := by
      show ((file.2.getD []).drop ((file.2.getD []).length - n.toNat)).length = _
      rw [List.length_drop]
      omega
    have hwhole : rows.map ParquetCandle.entry =
        (rows.take (rows.length - n.toNat)).map ParquetCandle.entry ++ tail.map ParquetCandle.entry := by
      rw [← List.map_append, List.take_append_drop]
    have hsorted := pairwise_entries (show rows.Pairwise _ from h)
    show (m.putAll ((tail.take n.toNat).map _)).keep _ = (m.putAll (rows.map _)).keep _
    rw [List.take_of_length_le hlength.le, hwhole]
    rw [hwhole] at hsorted
    refine (SortedMap.keep_putAll_tail _ hsorted ?_ m).symm
    rw [List.length_map, hlength]
  · rfl

/-- So may all of them. -/
lemma keep_files {files : List (ParquetFile α)} (h : ∀ file ∈ files, Ascends file) {n : ℤ}
    {m m' : SortedMap ℤ (ParquetCandle α)} (hm : m.keep n.toNat = m'.keep n.toNat) :
    (m.putAll ((files.flatMap (fileRows (some n))).map ParquetCandle.entry)).keep n.toNat =
      (m'.putAll ((files.flatMap (fileRows none)).map ParquetCandle.entry)).keep n.toNat := by
  induction files generalizing m m' with
  | nil => exact hm
  | cons file files ih =>
    rw [List.flatMap_cons, List.map_append, SortedMap.putAll_append, List.flatMap_cons, List.map_append,
      SortedMap.putAll_append]
    refine ih (fun g hg => h g (List.mem_cons_of_mem _ hg)) ?_
    rw [keep_fileRows (h file List.mem_cons_self)]
    exact SortedMap.keep_putAll_congr hm _

/-- A file over what has been read. -/
lemma mem_putAll_rows {rows : List (ParquetCandle α)}
    (h : rows.Pairwise fun a b => a.openTime < b.openTime) {m : SortedMap ℤ (ParquetCandle α)}
    {c : ParquetCandle α} :
    c.entry ∈ (m.putAll (rows.map ParquetCandle.entry)).entries ↔
      c ∈ rows ∨ c.entry ∈ m.entries ∧ ∀ c' ∈ rows, c'.openTime ≠ c.openTime := by
  induction rows generalizing m with
  | nil => simp [SortedMap.putAll]
  | cons a rows ih =>
    obtain ⟨hlater, hrest⟩ := List.pairwise_cons.mp h
    show c.entry ∈ ((m.upsert a.openTime a).putAll (rows.map _)).entries ↔ _
    rw [ih hrest, SortedMap.mem_entries_upsert, List.mem_cons, List.forall_mem_cons]
    have heq : c.entry = (a.openTime, a) ↔ c = a :=
      ⟨fun h => congrArg Prod.snd h, fun h => h ▸ rfl⟩
    have hne : c.entry.1 ≠ a.openTime ↔ a.openTime ≠ c.openTime := ne_comm
    rw [heq, hne]
    constructor
    · rintro (hc | ⟨rfl | ⟨hm, ha⟩, hrows⟩)
      · exact .inl (.inr hc)
      · exact .inl (.inl rfl)
      · exact .inr ⟨hm, ha, hrows⟩
    · rintro ((rfl | hc) | ⟨hm, ha, hrows⟩)
      · exact .inr ⟨.inl rfl, fun c' hc' => (hlater c' hc').ne'⟩
      · exact .inl hc
      · exact .inr ⟨.inr ⟨hm, ha⟩, hrows⟩

lemma latest_cons {file : ParquetFile α} {files : List (ParquetFile α)} {c : ParquetCandle α} :
    Latest (file :: files) c ↔ Latest files c ∨
      c ∈ file.2.getD [] ∧ ∀ g ∈ files, ∀ c' ∈ g.2.getD [], c'.openTime ≠ c.openTime := by
  constructor
  · rintro ⟨earlier, f, later, hfiles, hc, hlater⟩
    cases earlier with
    | nil =>
      obtain ⟨rfl, rfl⟩ := List.cons.inj hfiles
      exact .inr ⟨hc, hlater⟩
    | cons e earlier =>
      obtain ⟨rfl, rfl⟩ := List.cons.inj hfiles
      exact .inl ⟨earlier, f, later, rfl, hc, hlater⟩
  · rintro (⟨earlier, f, later, rfl, hc, hlater⟩ | ⟨hc, hlater⟩)
    · exact ⟨file :: earlier, f, later, rfl, hc, hlater⟩
    · exact ⟨[], file, files, rfl, hc, hlater⟩

/-- The files over what has been read. -/
lemma mem_putAll_files {files : List (ParquetFile α)} (h : ∀ file ∈ files, Ascends file)
    {m : SortedMap ℤ (ParquetCandle α)} {c : ParquetCandle α} :
    c.entry ∈ (m.putAll ((files.flatMap (fileRows none)).map ParquetCandle.entry)).entries ↔
      Latest files c ∨
        c.entry ∈ m.entries ∧ ∀ g ∈ files, ∀ c' ∈ g.2.getD [], c'.openTime ≠ c.openTime := by
  induction files generalizing m with
  | nil =>
    have hnone : ¬ Latest [] c := by
      rintro ⟨earlier, f, later, hfiles, -⟩
      exact List.append_ne_nil_of_right_ne_nil _ (List.cons_ne_nil _ _) hfiles.symm
    simp [SortedMap.putAll, hnone]
  | cons file files ih =>
    have hrows : (fileRows none file).Pairwise fun a b => a.openTime < b.openTime :=
      h file List.mem_cons_self
    rw [List.flatMap_cons, List.map_append, SortedMap.putAll_append,
      ih fun g hg => h g (List.mem_cons_of_mem _ hg), mem_putAll_rows hrows, latest_cons,
      List.forall_mem_cons]
    show _ ∨ (c ∈ file.2.getD [] ∨ _) ∧ _ ↔ _
    tauto

/-- The candles of a map carry their keys. -/
lemma entry_of_mem_merged {candles : List (ParquetCandle α)} {e : ℤ × ParquetCandle α}
    (h : e ∈ (merged candles).entries) : e = e.2.entry := by
  have hgrow (rest : List (ParquetCandle α)) (m : SortedMap ℤ (ParquetCandle α))
      (hm : ∀ e ∈ m.entries, e = e.2.entry) :
      ∀ e ∈ (m.putAll (rest.map ParquetCandle.entry)).entries, e = e.2.entry := by
    induction rest generalizing m with
    | nil => exact hm
    | cons c rest ih =>
      refine ih (m.upsert c.openTime c) fun e he => ?_
      rcases SortedMap.mem_entries_upsert.mp he with rfl | ⟨he, -⟩
      · rfl
      · exact hm e he
  exact hgrow candles .empty (fun e he => absurd he List.not_mem_nil) e h

lemma mem_ascending_merged {candles : List (ParquetCandle α)} {c : ParquetCandle α} :
    c ∈ ascending (merged candles) ↔ c.entry ∈ (merged candles).entries := by
  rw [ascending, List.mem_map]
  constructor
  · rintro ⟨e, he, rfl⟩
    rw [List.mem_reverse] at he
    rwa [← entry_of_mem_merged he]
  · intro hc
    exact ⟨c.entry, List.mem_reverse.mpr hc, rfl⟩

lemma pairwise_ascending_merged (candles : List (ParquetCandle α)) :
    (ascending (merged candles)).Pairwise fun a b => a.openTime < b.openTime := by
  rw [ascending, List.map_reverse, List.pairwise_reverse, List.pairwise_map]
  refine (merged candles).sorted.imp_of_mem fun {a b} ha hb hlt => ?_
  rw [entry_of_mem_merged ha, entry_of_mem_merged hb] at hlt
  exact hlt

/-- Reading the tails is reading everything and taking the tail, when the rows of every file ascend; and
everything is, in the order of the open times, each candle that no later file has a candle instead of. -/
theorem readParquetCandles_tail (symbolDir : Option (List (ParquetFile α)))
    (hsorted : ∀ listing, symbolDir = some listing → ∀ file ∈ listing, Ascends file) (n : ℤ) (hn : 0 < n) :
    let full := readParquetCandles symbolDir none
    readParquetCandles symbolDir (some n) = full.drop (full.length - n.toNat) ∧
      full.Pairwise (fun a b => a.openTime < b.openTime) ∧
      ∀ c, c ∈ full ↔ ∃ listing, symbolDir = some listing ∧ Latest (sortedFiles listing) c := by
  intro full
  cases symbolDir with
  | none => exact ⟨List.drop_nil.symm, .nil, fun c => iff_of_false List.not_mem_nil fun ⟨_, h, _⟩ => nomatch h⟩
  | some listing =>
    have hfiles : ∀ file ∈ sortedFiles listing, Ascends file := fun file hfile =>
      hsorted listing rfl file (List.mem_filter.mp ((List.mem_insertionSort _).mp hfile)).1
    have hfull : full = ascending (merged ((sortedFiles listing).flatMap (fileRows none))) :=
      sorted_byOpenTime _
    refine ⟨?_, ?_, fun c => ?_⟩
    · have htail : readParquetCandles (some listing) (some n) =
          ascending ((merged ((sortedFiles listing).flatMap (fileRows (some n)))).keep n.toNat) := by
        rw [readParquetCandles, if_pos hn, sorted_byOpenTime, drop_ascending]
      rw [htail, hfull, drop_ascending, merged, merged, keep_files hfiles rfl]
    · rw [hfull]
      exact pairwise_ascending_merged _
    · rw [hfull, mem_ascending_merged, merged, mem_putAll_files hfiles]
      simp only [SortedMap.entries_empty, List.not_mem_nil, false_and, or_false, Option.some.injEq,
        exists_eq_left']

/-- A base file and a delta that overlap. -/
def overlapping : List (ParquetFile String) :=
  [("delta-1.parquet", some [⟨120000, "delta"⟩, ⟨180000, "delta"⟩]),
    ("base.parquet", some [⟨0, "base"⟩, ⟨60000, "base"⟩, ⟨120000, "base"⟩])]

theorem readParquetCandles_tail_overlapping :
    readParquetCandles (some overlapping) (some 2) = [⟨120000, "delta"⟩, ⟨180000, "delta"⟩] := by
  have htail := (readParquetCandles_tail (some overlapping)
    (fun listing hlisting => by cases hlisting; decide) 2 (by decide)).1
  rw [htail]
  decide +kernel

end Tail

end PaperTrade.Runner
