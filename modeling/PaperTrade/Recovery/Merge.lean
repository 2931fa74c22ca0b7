import PaperTrade.Recovery.CandidateAgrees
import PaperTrade.Runtime.RowSets
import PaperTrade.Worker.EquitySnapshots

/-!
# Merging a candidate into production

`merge_main_database` appends the trades and signals that the candidate has over its baseline,
replaces the positions of the affected alphas, and compares what it has with the candidate before it
commits. `merge_equity_database` overwrites the three figures of the snapshots that the candidate
changed. Both begin by comparing production with the baseline.

A merge goes through exactly when production still is the baseline and the candidate only did what the
merge repeats (`Mergeable`, `EquityMergeable`); then production holds the rows of the candidate.

The rows are of any type: the source copies whole rows by the column names of the schema. Only the
primary key and the alpha of a position are looked at.
-/

namespace PaperTrade.Recovery

open PaperTrade.Runtime PaperTrade.Worker

/-! ## Attached databases -/

/-- The names under which a merge sees the three databases. -/
inductive Schema
  | main
  | baseline
  | candidate
deriving DecidableEq

/-- What stops a merge. -/
inductive MergeError
  /-- `the affected alpha set is empty` -/
  | affectedEmpty
  /-- `missing table: …` -/
  | missingTable (schema : Schema) (table : String)
  /-- `schema mismatch for …` -/
  | schemaMismatch (table : String)
  /-- `table drift: … differs from …` -/
  | tableDrift (source target : Schema) (table : String)
  /-- `UNIQUE constraint failed: …` -/
  | uniqueFailed (table : String)
deriving DecidableEq

/-- A table of an attached database. One that is missing has no columns. -/
structure SqlTable {ρ κ : Type} (key : ρ → κ) where
  columns : List String
  rows : Table key

section Tables

variable {ρ κ : Type} {key : ρ → κ}

/-- A table that is there, and another of the same columns and rows. -/
structure SqlTable.Same (l r : SqlTable key) : Prop where
  present : l.columns ≠ []
  columns : l.columns = r.columns
  rows : l.rows.SameRows r.rows

/-- `_columns`. -/
def columnsOf (schema : Schema) (table : String) (t : SqlTable key) :
    Except MergeError (List String) :=
  if t.columns = [] then .error (.missingTable schema table) else .ok t.columns

/-- `_assert_tables_equal`: one direction of the loop. -/
def assertContained [DecidableEq ρ] (source target : Schema) (table : String)
    (l r : SqlTable key) : Except MergeError Unit :=
  if (l.rows.except r.rows).length ≠ 0 then .error (.tableDrift source target table) else .ok ()

/-- `_assert_tables_equal`. -/
def assertTablesEqual [DecidableEq ρ] (leftSchema rightSchema : Schema) (table : String)
    (left right : SqlTable key) : Except MergeError Unit := do
  let leftColumns ← columnsOf leftSchema table left
  let rightColumns ← columnsOf rightSchema table right
  if leftColumns ≠ rightColumns then .error (.schemaMismatch table)
  else do
    assertContained leftSchema rightSchema table left right
    assertContained rightSchema leftSchema table right left

/-- `INSERT INTO table (…) SELECT …`. -/
def insertInto [DecidableEq κ] (table : String) (t : SqlTable key) (rows : List ρ) :
    Except MergeError (SqlTable key) :=
  match t.rows.insertAll? rows with
  | some rows => .ok { t with rows := rows }
  | none => .error (.uniqueFailed table)

/-- `_insert_candidate_delta`. -/
def insertCandidateDelta [DecidableEq ρ] [DecidableEq κ] (table : String)
    (main baseline candidate : SqlTable key) : Except MergeError (SqlTable key) := do
  let columns ← columnsOf .main table main
  let baselineColumns ← columnsOf .baseline table baseline
  if columns ≠ baselineColumns then .error (.schemaMismatch table)
  else do
    let candidateColumns ← columnsOf .candidate table candidate
    if columns ≠ candidateColumns then .error (.schemaMismatch table)
    else insertInto table main (candidate.rows.except baseline.rows)

end Tables

/-! ## The main database -/

section Main

variable {P T S : Type} {positionId : P → String} {tradeId : T → String} {signalRow : S → ℕ}

/-- The tables of a main database that a merge reads. -/
structure MainTables (positionId : P → String) (tradeId : T → String) (signalRow : S → ℕ) where
  positions : SqlTable positionId
  trades : SqlTable tradeId
  signals : SqlTable signalRow

/-- The same tables. -/
structure MainTables.Same (a b : MainTables positionId tradeId signalRow) : Prop where
  positions : a.positions.Same b.positions
  trades : a.trades.Same b.trades
  signals : a.signals.Same b.signals

variable [DecidableEq P] [DecidableEq T] [DecidableEq S] (alphaId : P → String)

/-- `for table in ("positions", "trades", "signals"): _assert_tables_equal(…)`. -/
def assertMainEqual (leftSchema rightSchema : Schema)
    (left right : MainTables positionId tradeId signalRow) : Except MergeError Unit := do
  assertTablesEqual leftSchema rightSchema "positions" left.positions right.positions
  assertTablesEqual leftSchema rightSchema "trades" left.trades right.trades
  assertTablesEqual leftSchema rightSchema "signals" left.signals right.signals

/-- The positions of the affected alphas, taken from the candidate. -/
def replacePositions (affected : List String) (main candidate : SqlTable positionId) :
    Except MergeError (SqlTable positionId) :=
  insertInto "positions" { main with rows := main.rows.filter fun p => alphaId p ∉ affected }
    (candidate.rows.rows.filter fun p => alphaId p ∈ affected)

/-- The statements of `merge_main_database`. -/
def mergeMain (production baseline candidate : MainTables positionId tradeId signalRow)
    (affected : List String) : Except MergeError (MainTables positionId tradeId signalRow) := do
  if affected = [] then .error .affectedEmpty
  assertMainEqual .main .baseline production baseline
  let trades ← insertCandidateDelta "trades" production.trades baseline.trades candidate.trades
  let signals ←
    insertCandidateDelta "signals" production.signals baseline.signals candidate.signals
  let positions ← replacePositions alphaId affected production.positions candidate.positions
  assertMainEqual .main .candidate ⟨positions, trades, signals⟩ candidate
  pure ⟨positions, trades, signals⟩

/-- `merge_main_database`: what production holds afterwards, and what was raised. -/
def mergeMainDatabase (production baseline candidate : MainTables positionId tradeId signalRow)
    (affected : List String) :
    MainTables positionId tradeId signalRow × Option MergeError :=
  transaction production (mergeMain alphaId production baseline candidate affected)

/-- What a candidate may be for a merge to repeat it: it keeps the columns, the trades and signals of
its baseline and the positions of the other alphas. -/
structure Mergeable (production baseline candidate : MainTables positionId tradeId signalRow)
    (affected : List String) : Prop where
  nonempty : affected ≠ []
  unchanged : production.Same baseline
  positionColumns : candidate.positions.columns = baseline.positions.columns
  tradeColumns : candidate.trades.columns = baseline.trades.columns
  signalColumns : candidate.signals.columns = baseline.signals.columns
  trades : ∀ t ∈ baseline.trades.rows.rows, t ∈ candidate.trades.rows.rows
  signals : ∀ s ∈ baseline.signals.rows.rows, s ∈ candidate.signals.rows.rows
  others : ∀ p, alphaId p ∉ affected →
    (p ∈ baseline.positions.rows.rows ↔ p ∈ candidate.positions.rows.rows)

end Main

/-! ## The equity database -/

deriving instance DecidableEq for EquityRow

/-- A row of `equity_snapshots` with its id. -/
structure EquitySnapshotRow extends EquityRow where
  id : ℕ
deriving DecidableEq

namespace EquitySnapshotRow

/-- The figures that a recovery recalculates. -/
def figures (r : EquitySnapshotRow) : PyFloat × Option PyFloat × Option PyFloat :=
  (r.balance, r.unrealizedPnl, r.realizedPnl)

/-- The row with the figures of another. -/
def withFigures (r c : EquitySnapshotRow) : EquitySnapshotRow :=
  { r with balance := c.balance, unrealizedPnl := c.unrealizedPnl, realizedPnl := c.realizedPnl }

@[simp] lemma id_withFigures (r c : EquitySnapshotRow) : (r.withFigures c).id = r.id := rfl

@[simp] lemma figures_withFigures (r c : EquitySnapshotRow) :
    (r.withFigures c).figures = c.figures := rfl

/-- Rows of the same figures can take each other's. -/
lemma withFigures_of_figures {r c : EquitySnapshotRow} (h : c.figures = r.figures) :
    r.withFigures c = r := by
  simp only [figures, Prod.mk.injEq] at h
  unfold withFigures
  rw [h.1, h.2.1, h.2.2]

end EquitySnapshotRow

/-- The table `equity_snapshots`. -/
abbrev EquityTable : Type := SqlTable EquitySnapshotRow.id

/-- `SET balance = candidate.balance, …` for a row whose candidate is not its baseline. -/
def updatedRow (baseline candidate : EquityTable) (r : EquitySnapshotRow) : EquitySnapshotRow :=
  match candidate.rows.find? r.id, baseline.rows.find? r.id with
  | some c, some b => if c.figures ≠ b.figures then r.withFigures c else r
  | _, _ => r

lemma id_updatedRow (baseline candidate : EquityTable) (r : EquitySnapshotRow) :
    (updatedRow baseline candidate r).id = r.id := by
  unfold updatedRow
  split
  · split <;> rfl
  · rfl

/-- The statements of `merge_equity_database`. -/
def mergeEquity (production baseline candidate : EquityTable) : Except MergeError EquityTable := do
  assertTablesEqual .main .baseline "equity_snapshots" production baseline
  let updated : EquityTable := { production with
    rows := production.rows.update (updatedRow baseline candidate) (id_updatedRow _ _) }
  assertTablesEqual .main .candidate "equity_snapshots" updated candidate
  pure updated

/-- `merge_equity_database`. -/
def mergeEquityDatabase (production baseline candidate : EquityTable) :
    EquityTable × Option MergeError :=
  transaction production (mergeEquity production baseline candidate)

/-- The candidate has the snapshots of its baseline with other figures. -/
structure EquityMergeable (production baseline candidate : EquityTable) : Prop where
  unchanged : production.Same baseline
  columns : candidate.columns = baseline.columns
  kept : ∀ b ∈ baseline.rows.rows, ∃ c ∈ candidate.rows.rows, c.id = b.id
  rewritten : ∀ c ∈ candidate.rows.rows, ∃ b ∈ baseline.rows.rows, b.withFigures c = c

/-! ## The checks -/

section Checks

variable {ρ κ : Type} {key : ρ → κ} {left right : Schema} {table : String} {l r t u : SqlTable key}

lemma SqlTable.Same.symm (h : l.Same r) : r.Same l :=
  ⟨h.columns ▸ h.present, h.columns.symm, h.rows.symm⟩

lemma columnsOf_ok_iff {columns : List String} :
    columnsOf left table l = .ok columns ↔ l.columns ≠ [] ∧ l.columns = columns := by
  unfold columnsOf
  by_cases h : l.columns = [] <;> simp [h]

lemma insertInto_ok_iff [DecidableEq κ] {rows : List ρ} : insertInto table t rows = .ok u ↔
    u.columns = t.columns ∧ u.rows.rows = t.rows.rows ++ rows := by
  rw [← t.rows.insertAll?_some_iff u.rows rows]
  unfold insertInto
  obtain ⟨columns, urows⟩ := u
  cases h : t.rows.insertAll? rows with
  | none => simp
  | some inserted =>
    simp only [Except.ok.injEq, SqlTable.mk.injEq, Option.some.injEq]
    exact and_congr_left' eq_comm

variable [DecidableEq ρ]

lemma assertContained_ok_iff : assertContained left right table l r = .ok () ↔
    ∀ row ∈ l.rows.rows, row ∈ r.rows.rows := by
  rw [← Table.except_eq_nil_iff, ← List.length_eq_zero_iff]
  unfold assertContained
  by_cases h : (l.rows.except r.rows).length = 0 <;> simp [h]

/-- The check passes for tables that are the same. -/
theorem assertTablesEqual_ok_iff :
    assertTablesEqual left right table l r = .ok () ↔ l.Same r := by
  constructor
  · intro h
    obtain ⟨leftColumns, hleft, h⟩ := bind_eq_ok h
    obtain ⟨rightColumns, hright, h⟩ := bind_eq_ok h
    obtain ⟨hpresent, rfl⟩ := columnsOf_ok_iff.mp hleft
    obtain ⟨-, rfl⟩ := columnsOf_ok_iff.mp hright
    split at h
    · cases h
    rename_i hcolumns
    obtain ⟨_, hcontained, h⟩ := bind_eq_ok h
    refine ⟨hpresent, not_not.mp hcolumns, fun row => ⟨?_, ?_⟩⟩
    · exact assertContained_ok_iff.mp hcontained row
    · exact assertContained_ok_iff.mp h row
  · rintro ⟨hpresent, hcolumns, hrows⟩
    have hleft : columnsOf left table l = .ok l.columns := columnsOf_ok_iff.mpr ⟨hpresent, rfl⟩
    have hright : columnsOf right table r = .ok l.columns :=
      columnsOf_ok_iff.mpr ⟨hcolumns ▸ hpresent, hcolumns.symm⟩
    have hlr : assertContained left right table l r = .ok () :=
      assertContained_ok_iff.mpr fun row => (hrows row).mp
    have hrl : assertContained right left table r l = .ok () :=
      assertContained_ok_iff.mpr fun row => (hrows row).mpr
    simp only [assertTablesEqual, hleft, hright, hlr, hrl, Except.bind, bind, ne_eq, not_true_eq_false,
      if_false]

variable [DecidableEq κ]

/-- What a delta leaves: the rows of the table and those that the candidate has over its baseline. -/
lemma insertCandidateDelta_ok {main baseline candidate : SqlTable key}
    (h : insertCandidateDelta table main baseline candidate = .ok u) :
    u.columns = main.columns ∧
      u.rows.rows = main.rows.rows ++ candidate.rows.except baseline.rows := by
  obtain ⟨_, -, h⟩ := bind_eq_ok h
  obtain ⟨_, -, h⟩ := bind_eq_ok h
  split at h
  · cases h
  obtain ⟨_, -, h⟩ := bind_eq_ok h
  split at h
  · cases h
  exact insertInto_ok_iff.mp h

/-- A candidate that keeps the rows of its baseline is reached. -/
lemma exists_insertCandidateDelta (table : String) {main baseline candidate : SqlTable key}
    (hmain : main.Same baseline) (hcolumns : candidate.columns = baseline.columns)
    (hkept : ∀ row ∈ baseline.rows.rows, row ∈ candidate.rows.rows) :
    ∃ u, insertCandidateDelta table main baseline candidate = .ok u ∧ u.Same candidate := by
  have hkept' : ∀ row ∈ main.rows.rows, row ∈ candidate.rows.rows :=
    fun row hrow => hkept row ((hmain.rows row).mp hrow)
  obtain ⟨inserted, hinserted⟩ :
      ∃ t, main.rows.insertAll? (candidate.rows.except baseline.rows) = some t :=
    Table.exists_insertAll? hkept' (fun row hrow => (Table.mem_except.mp hrow).1)
      (Table.nodup_except _ _)
      fun row hrow hmem => (Table.mem_except.mp hrow).2 ((hmain.rows row).mp hmem)
  have hrows := (main.rows.insertAll?_some_iff inserted _).mp hinserted
  refine ⟨{ main with rows := inserted }, ?_, hmain.present, hmain.columns.trans hcolumns.symm, ?_⟩
  · have h₁ : columnsOf .main table main = .ok main.columns :=
      columnsOf_ok_iff.mpr ⟨hmain.present, rfl⟩
    have h₂ : columnsOf .baseline table baseline = .ok main.columns :=
      columnsOf_ok_iff.mpr ⟨hmain.symm.present, hmain.columns.symm⟩
    have h₃ : columnsOf .candidate table candidate = .ok main.columns :=
      columnsOf_ok_iff.mpr ⟨hcolumns ▸ hmain.symm.present, hcolumns.trans hmain.columns.symm⟩
    simp only [insertCandidateDelta, h₁, h₂, h₃, Except.bind, bind, ne_eq, not_true_eq_false, if_false,
      insertInto, hinserted]
  · intro row
    show row ∈ inserted.rows ↔ _
    rw [hrows, List.mem_append, Table.mem_except, hmain.rows row]
    constructor
    · rintro (hrow | hrow)
      · exact hkept row hrow
      · exact hrow.1
    · intro hrow
      by_cases hbase : row ∈ baseline.rows.rows
      · exact .inl hbase
      · exact .inr ⟨hrow, hbase⟩

end Checks

/-! ## The merge of the main database -/

section MergeMain

variable {P T S : Type} {positionId : P → String} {tradeId : T → String} {signalRow : S → ℕ}
  [DecidableEq P] [DecidableEq T] [DecidableEq S] {alphaId : P → String}
  {production baseline candidate merged : MainTables positionId tradeId signalRow}
  {affected : List String} {left right : Schema}

lemma assertMainEqual_ok_iff :
    assertMainEqual left right production baseline = .ok () ↔ production.Same baseline := by
  constructor
  · intro h
    obtain ⟨_, hpositions, h⟩ := bind_eq_ok h
    obtain ⟨_, htrades, h⟩ := bind_eq_ok h
    exact ⟨assertTablesEqual_ok_iff.mp hpositions, assertTablesEqual_ok_iff.mp htrades,
      assertTablesEqual_ok_iff.mp h⟩
  · rintro ⟨hpositions, htrades, hsignals⟩
    unfold assertMainEqual
    rw [assertTablesEqual_ok_iff.mpr hpositions, assertTablesEqual_ok_iff.mpr htrades,
      assertTablesEqual_ok_iff.mpr hsignals]
    rfl

lemma replacePositions_ok {main cand u : SqlTable positionId}
    (h : replacePositions alphaId affected main cand = .ok u) {p : P} :
    p ∈ u.rows.rows ↔ if alphaId p ∈ affected then p ∈ cand.rows.rows else p ∈ main.rows.rows := by
  rw [(insertInto_ok_iff.mp h).2]
  simp only [Table.rows_filter, List.mem_append, List.mem_filter, decide_eq_true_eq]
  split
  · rename_i hp
    simp [hp]
  · rename_i hp
    simp [hp]

/-- The positions of the other alphas may stay, so those of the affected ones can be taken over. -/
lemma exists_replacePositions (alphaId : P → String) (affected : List String)
    (main cand : SqlTable positionId)
    (hothers : ∀ p, alphaId p ∉ affected → (p ∈ main.rows.rows ↔ p ∈ cand.rows.rows)) :
    ∃ u, replacePositions alphaId affected main cand = .ok u ∧ u.columns = main.columns ∧
      u.rows.SameRows cand.rows := by
  have hkept : ∀ p ∈ (main.rows.filter fun p => alphaId p ∉ affected).rows, p ∈ cand.rows.rows := by
    intro p hp
    obtain ⟨hp, hnot⟩ := List.mem_filter.mp hp
    exact (hothers p (of_decide_eq_true hnot)).mp hp
  have hnew : ∀ p ∈ cand.rows.rows.filter fun p => alphaId p ∈ affected,
      p ∉ (main.rows.filter fun p => alphaId p ∉ affected).rows := by
    intro p hp hmem
    exact of_decide_eq_true (List.mem_filter.mp hmem).2 (of_decide_eq_true (List.mem_filter.mp hp).2)
  obtain ⟨inserted, hinserted⟩ := Table.exists_insertAll? hkept
    (fun p hp => (List.mem_filter.mp hp).1) ((List.Nodup.of_map _ cand.rows.nodup_keys).filter _) hnew
  refine ⟨{ main with rows := inserted }, ?_, rfl, fun p => ?_⟩
  · simp only [replacePositions, insertInto, hinserted]
  · show p ∈ inserted.rows ↔ _
    rw [(Table.insertAll?_some_iff _ _ _).mp hinserted]
    simp only [Table.rows_filter, List.mem_append, List.mem_filter, decide_eq_true_eq]
    by_cases hp : alphaId p ∈ affected
    · simp [hp]
    · simp [hp, hothers p hp]

/-- What a merge that goes through has found, and what it leaves. -/
lemma mergeable_of_merged
    (h : mergeMain alphaId production baseline candidate affected = .ok merged) :
    Mergeable alphaId production baseline candidate affected ∧ merged.Same candidate := by
  unfold mergeMain at h
  split at h
  · cases h
  rename_i hnonempty
  obtain ⟨_, hunchanged, h⟩ := bind_eq_ok h
  obtain ⟨trades, htrades, h⟩ := bind_eq_ok h
  obtain ⟨signals, hsignals, h⟩ := bind_eq_ok h
  obtain ⟨positions, hpositions, h⟩ := bind_eq_ok h
  obtain ⟨_, hmerged, h⟩ := bind_eq_ok h
  have hunchanged := assertMainEqual_ok_iff.mp hunchanged
  have hmerged := assertMainEqual_ok_iff.mp hmerged
  obtain ⟨htradeColumns, htradeRows⟩ := insertCandidateDelta_ok htrades
  obtain ⟨hsignalColumns, hsignalRows⟩ := insertCandidateDelta_ok hsignals
  have hpositionColumns := (insertInto_ok_iff.mp hpositions).1
  cases h
  refine ⟨⟨hnonempty, hunchanged, ?_, ?_, ?_, ?_, ?_, ?_⟩, hmerged⟩
  · rw [← hmerged.positions.columns, hpositionColumns, ← hunchanged.positions.columns]
  · rw [← hmerged.trades.columns, htradeColumns, ← hunchanged.trades.columns]
  · rw [← hmerged.signals.columns, hsignalColumns, ← hunchanged.signals.columns]
  · intro t ht
    refine (hmerged.trades.rows t).mp ?_
    rw [htradeRows]
    exact List.mem_append_left _ ((hunchanged.trades.rows t).mpr ht)
  · intro s hs
    refine (hmerged.signals.rows s).mp ?_
    rw [hsignalRows]
    exact List.mem_append_left _ ((hunchanged.signals.rows s).mpr hs)
  · intro p hp
    rw [← hmerged.positions.rows p, ← hunchanged.positions.rows p, replacePositions_ok hpositions,
      if_neg hp]

/-- A candidate that can be repeated is reached. -/
lemma exists_merged (h : Mergeable alphaId production baseline candidate affected) :
    ∃ merged, mergeMain alphaId production baseline candidate affected = .ok merged := by
  obtain ⟨trades, htrades, htradesSame⟩ :=
    exists_insertCandidateDelta "trades" h.unchanged.trades h.tradeColumns h.trades
  obtain ⟨signals, hsignals, hsignalsSame⟩ :=
    exists_insertCandidateDelta "signals" h.unchanged.signals h.signalColumns h.signals
  obtain ⟨positions, hpositions, hcolumns, hrows⟩ :=
    exists_replacePositions alphaId affected production.positions candidate.positions
      fun p hp => (h.unchanged.positions.rows p).trans (h.others p hp)
  have hpositionsSame : positions.Same candidate.positions := by
    refine ⟨hcolumns ▸ h.unchanged.positions.present, ?_, hrows⟩
    rw [hcolumns, h.unchanged.positions.columns, h.positionColumns]
  have hunchanged : assertMainEqual .main .baseline production baseline = .ok () :=
    assertMainEqual_ok_iff.mpr h.unchanged
  have hmerged : assertMainEqual .main .candidate ⟨positions, trades, signals⟩ candidate = .ok () :=
    assertMainEqual_ok_iff.mpr ⟨hpositionsSame, htradesSame, hsignalsSame⟩
  refine ⟨⟨positions, trades, signals⟩, ?_⟩
  unfold mergeMain
  rw [if_neg h.nonempty, hunchanged, htrades, hsignals, hpositions]
  simp only [bind, Except.bind, hmerged, pure, Except.pure]

/-- A merge that returns was one of a candidate that can be repeated, and has repeated it. -/
lemma mergeable_of_returned
    (h : (mergeMainDatabase alphaId production baseline candidate affected).2 = none) :
    Mergeable alphaId production baseline candidate affected ∧
      (mergeMainDatabase alphaId production baseline candidate affected).1.Same candidate :=
  mergeable_of_merged (transaction_returned_iff.mp (Prod.ext rfl h))

/-- A candidate that can be repeated is merged. -/
lemma Mergeable.merges (h : Mergeable alphaId production baseline candidate affected) :
    ∃ merged, mergeMainDatabase alphaId production baseline candidate affected = (merged, none) ∧
      merged.Same candidate := by
  obtain ⟨merged, hmerged⟩ := exists_merged h
  refine ⟨merged, ?_, (mergeable_of_merged hmerged).2⟩
  unfold mergeMainDatabase
  rw [hmerged]
  rfl

/-- A merge returns exactly when production still is the baseline and the candidate can be repeated.
Production then holds the tables of the candidate, and else the ones it held. -/
theorem mergeMainDatabase_exact (alphaId : P → String)
    (production baseline candidate : MainTables positionId tradeId signalRow)
    (affected : List String) :
    ((mergeMainDatabase alphaId production baseline candidate affected).2 = none ↔
      Mergeable alphaId production baseline candidate affected) ∧
    ((mergeMainDatabase alphaId production baseline candidate affected).2 = none →
      (mergeMainDatabase alphaId production baseline candidate affected).1.Same candidate) ∧
    ((mergeMainDatabase alphaId production baseline candidate affected).2 ≠ none →
      (mergeMainDatabase alphaId production baseline candidate affected).1 = production) := by
  refine ⟨⟨fun h => (mergeable_of_returned h).1, fun h => ?_⟩, fun h => (mergeable_of_returned h).2,
    transaction_raised⟩
  obtain ⟨merged, hmerged, -⟩ := h.merges
  rw [hmerged]

end MergeMain

/-! ## The merge of the equity database -/

section MergeEquity

variable {production baseline candidate merged : EquityTable}

/-- A row of the baseline takes the figures that the candidate has for it. -/
lemma updatedRow_eq {b c : EquitySnapshotRow} (hb : b ∈ baseline.rows.rows)
    (hc : c ∈ candidate.rows.rows) (hid : c.id = b.id) :
    updatedRow baseline candidate b = b.withFigures c := by
  have hfound : candidate.rows.find? b.id = some c :=
    (candidate.rows.find?_some_iff _ _).mpr ⟨hc, hid⟩
  have hbase : baseline.rows.find? b.id = some b := (baseline.rows.find?_some_iff _ _).mpr ⟨hb, rfl⟩
  unfold updatedRow
  rw [hfound, hbase]
  dsimp only
  split
  · rfl
  · rename_i h
    exact (EquitySnapshotRow.withFigures_of_figures (not_not.mp h)).symm

lemma equityMergeable_of_merged (h : mergeEquity production baseline candidate = .ok merged) :
    EquityMergeable production baseline candidate ∧ merged.Same candidate := by
  obtain ⟨_, hunchanged, h⟩ := bind_eq_ok h
  obtain ⟨_, hmerged, h⟩ := bind_eq_ok h
  cases h
  have hunchanged := assertTablesEqual_ok_iff.mp hunchanged
  have hmerged := assertTablesEqual_ok_iff.mp hmerged
  refine ⟨⟨hunchanged, hmerged.columns.symm.trans hunchanged.columns, ?_, ?_⟩, hmerged⟩
  · intro b hb
    refine ⟨updatedRow baseline candidate b, ?_, id_updatedRow _ _ b⟩
    exact (hmerged.rows _).mp ((Table.mem_update (id_updatedRow _ _)).mpr
      ⟨b, (hunchanged.rows b).mpr hb, rfl⟩)
  · intro c hc
    obtain ⟨b, hb, hupdated⟩ := (Table.mem_update (id_updatedRow _ _)).mp
      ((hmerged.rows c).mpr hc)
    have hb := (hunchanged.rows b).mp hb
    have hid : c.id = b.id := by rw [← hupdated, id_updatedRow]
    exact ⟨b, hb, by rw [← updatedRow_eq hb hc hid, hupdated]⟩

lemma exists_equityMerged (h : EquityMergeable production baseline candidate) :
    ∃ merged, mergeEquity production baseline candidate = .ok merged := by
  have hunchanged : assertTablesEqual .main .baseline "equity_snapshots" production baseline =
      .ok () := assertTablesEqual_ok_iff.mpr h.unchanged
  have hmerged : assertTablesEqual .main .candidate "equity_snapshots" { production with
      rows := production.rows.update (updatedRow baseline candidate) (id_updatedRow _ _) }
      candidate = .ok () := by
    refine assertTablesEqual_ok_iff.mpr ⟨h.unchanged.present,
      h.unchanged.columns.trans h.columns.symm, 
      fun r => (Table.mem_update (id_updatedRow _ _)).trans ⟨?_, ?_⟩⟩
    · rintro ⟨b, hb, rfl⟩
      have hb := (h.unchanged.rows b).mp hb
      obtain ⟨c, hc, hid⟩ := h.kept b hb
      obtain ⟨b', hb', hfigures⟩ := h.rewritten c hc
      have hsame : b' = b := by
        refine baseline.rows.eq_of_key_eq hb' hb ?_
        rw [← hid, ← hfigures, EquitySnapshotRow.id_withFigures]
      rw [updatedRow_eq hb hc hid, ← hsame, hfigures]
      exact hc
    · intro hr
      obtain ⟨b, hb, hfigures⟩ := h.rewritten r hr
      have hid : r.id = b.id := by rw [← hfigures, EquitySnapshotRow.id_withFigures]
      exact ⟨b, (h.unchanged.rows b).mpr hb, by rw [updatedRow_eq hb hr hid, hfigures]⟩
  unfold mergeEquity
  rw [hunchanged]
  simp only [bind, Except.bind, hmerged]
  exact ⟨_, rfl⟩

@[inherit_doc mergeable_of_returned]
lemma equityMergeable_of_returned
    (h : (mergeEquityDatabase production baseline candidate).2 = none) :
    EquityMergeable production baseline candidate ∧
      (mergeEquityDatabase production baseline candidate).1.Same candidate :=
  equityMergeable_of_merged (transaction_returned_iff.mp (Prod.ext rfl h))

@[inherit_doc Mergeable.merges]
lemma EquityMergeable.merges (h : EquityMergeable production baseline candidate) :
    ∃ merged, mergeEquityDatabase production baseline candidate = (merged, none) ∧
      merged.Same candidate := by
  obtain ⟨merged, hmerged⟩ := exists_equityMerged h
  refine ⟨merged, ?_, (equityMergeable_of_merged hmerged).2⟩
  unfold mergeEquityDatabase
  rw [hmerged]
  rfl

/-- The equity merge returns exactly when production still is the baseline and the candidate has its
snapshots with other figures. Production then holds the candidate, and else what it held. -/
theorem mergeEquityDatabase_exact (production baseline candidate : EquityTable) :
    ((mergeEquityDatabase production baseline candidate).2 = none ↔
      EquityMergeable production baseline candidate) ∧
    ((mergeEquityDatabase production baseline candidate).2 = none →
      (mergeEquityDatabase production baseline candidate).1.Same candidate) ∧
    ((mergeEquityDatabase production baseline candidate).2 ≠ none →
      (mergeEquityDatabase production baseline candidate).1 = production) := by
  refine ⟨⟨fun h => (equityMergeable_of_returned h).1, fun h => ?_⟩,
    fun h => (equityMergeable_of_returned h).2, transaction_raised⟩
  obtain ⟨merged, hmerged, -⟩ := h.merges
  rw [hmerged]

end MergeEquity

/-! # The candidate of a ledger merges

The build of a candidate only appends trades and signals, and touches the positions of the alphas of
its ledger alone (`Extends`). That is what a merge repeats, so into a production that did not move since
the baseline was taken every such candidate is merged (`candidate_merges`). -/

/-! ## What the build may do -/

/-- The second database has the trades and signals of the first, and its positions but for those of
some alphas. -/
structure Extends (alphas : List String) (db db' : MainDb) : Prop where
  trades : ∀ t ∈ db.trades.rows, t ∈ db'.trades.rows
  signals : ∀ s ∈ db.signals.rows, s ∈ db'.signals.rows
  others : ∀ p : PositionRow, p.alphaId ∉ alphas →
    (p ∈ db.positions.rows ↔ p ∈ db'.positions.rows)

section Extends

variable {alphas : List String} {db db' db'' : MainDb} {recoveredAt : String} {slippagePct : PyFloat}

lemma Extends.refl (alphas : List String) (db : MainDb) : Extends alphas db db :=
  ⟨fun _ h => h, fun _ h => h, fun _ _ => Iff.rfl⟩

lemma Extends.trans (h : Extends alphas db db') (h' : Extends alphas db' db'') :
    Extends alphas db db'' where
  trades t ht := h'.trades t (h.trades t ht)
  signals s hs := h'.signals s (h.signals s hs)
  others p hp := (h.others p hp).trans (h'.others p hp)

lemma signals_insertTrade {trade : TradeRow} (h : db.insertTrade trade = .ok db') :
    db'.signals = db.signals := by
  unfold MainDb.insertTrade at h
  split at h
  · cases h
  cases hunique : lift (insertUnique "trades.trade_id" db.trades trade) with
  | error e =>
    rw [hunique] at h
    cases h
  | ok trades =>
    rw [hunique] at h
    cases h
    rfl

lemma signals_insertPosition {position : PositionRow} (h : db.insertPosition position = .ok db') :
    db'.signals = db.signals := by
  unfold MainDb.insertPosition at h
  split at h
  · cases h
  cases hunique : lift (insertUnique "positions.position_id" db.positions position) with
  | error e =>
    rw [hunique] at h
    cases h
  | ok positions =>
    rw [hunique] at h
    cases h
    rfl

/-- Every entry leaves its row in `signals`. -/
lemma signals_applyEntry {entry : LedgerEntry}
    (h : applyEntry recoveredAt slippagePct db entry = .ok db') :
    db'.signals = (db.insertSignal recoveredAt entry).signals := by
  cases entry with
  | close entry =>
    change applyClose recoveredAt slippagePct db entry = .ok db' at h
    unfold applyClose at h
    split at h
    · cases h
    split at h
    · cases h
    obtain ⟨trade, -, h⟩ := bind_eq_ok h
    obtain ⟨inserted, hinserted, h⟩ := bind_eq_ok h
    cases h
    show inserted.signals = _
    exact signals_insertTrade hinserted
  | «open» entry => exact signals_insertPosition h

/-- An entry extends the database for its alpha. -/
lemma extends_applyEntry {entry : LedgerEntry} (halpha : entry.alphaId ∈ alphas)
    (h : applyEntry recoveredAt slippagePct db entry = .ok db') : Extends alphas db db' := by
  have hsignals : ∀ s ∈ db.signals.rows, s ∈ db'.signals.rows := by
    intro s hs
    rw [signals_applyEntry h]
    exact List.mem_append_left _ hs
  cases entry with
  | close entry =>
    -- the position that goes is one of the entry's alpha
    have hclose : applyClose recoveredAt (Executor.slippagePct { slippagePct }) db entry = .ok db' := h
    obtain ⟨position, trade, hfind, hown, -, -, -, -, htrades, hpositions⟩ := applyClose_spec hclose
    refine ⟨fun t ht => ?_, hsignals, fun p hp => ?_⟩
    · rw [htrades]
      exact List.mem_append_left _ ht
    · rw [hpositions, Table.mem_erase]
      refine ⟨fun hmem => ⟨hmem, fun hid => hp ?_⟩, fun hmem => hmem.1⟩
      obtain ⟨hposition, hid'⟩ := (db.positions.find?_some_iff _ _).mp hfind
      rw [db.positions.eq_of_key_eq hmem hposition (hid.trans hid'.symm), hown]
      exact halpha
  | «open» entry =>
    obtain ⟨-, hpositions, htrades⟩ := applyOpen_spec h
    refine ⟨fun t ht => htrades ▸ ht, hsignals, fun p hp => ?_⟩
    rw [hpositions, List.mem_append, List.mem_singleton]
    refine ⟨.inl, fun hmem => hmem.resolve_right ?_⟩
    rintro rfl
    exact hp halpha

/-- So does a ledger for its alphas. -/
theorem extends_buildMainCandidate {entries : List LedgerEntry}
    (halphas : ∀ entry ∈ entries, entry.alphaId ∈ alphas)
    (h : buildMainCandidate recoveredAt slippagePct entries db = .ok db') : Extends alphas db db' := by
  unfold buildMainCandidate at h
  induction entries generalizing db with
  | nil =>
    obtain rfl : db = db' := Except.ok.inj h
    exact Extends.refl alphas db
  | cons entry entries ih =>
    obtain ⟨hentry, hrest⟩ := List.forall_mem_cons.mp halphas
    rw [List.foldlM_cons] at h
    obtain ⟨next, hnext, h⟩ := bind_eq_ok h
    exact (extends_applyEntry hentry hnext).trans (ih hrest h)

end Extends

/-! ## The files -/

deriving instance DecidableEq for PositionRow
deriving instance DecidableEq for TradeRow

/-- The columns of `Database._create_tables`. -/
def positionColumns : List String :=
  ["position_id", "alpha_id", "signal_id", "symbol", "side", "entry_price", "qty", "tp", "sl",
   "leverage", "opened_at", "metadata", "exchange", "fee_pct"]

@[inherit_doc positionColumns]
def tradeColumns : List String :=
  ["trade_id", "position_id", "alpha_id", "signal_id", "symbol", "side", "entry_price", "exit_price",
   "qty", "pnl", "pnl_percent", "leverage", "tp", "sl", "reason", "duration_hours", "opened_at",
   "closed_at", "metadata", "fee", "exchange"]

@[inherit_doc positionColumns]
def signalColumns : List String :=
  ["id", "signal_id", "alpha_id", "type", "payload", "received_at", "processed", "error"]

/-- A database as a merge sees it. -/
def MainDb.tables (db : MainDb) :
    MainTables PositionRow.positionId TradeRow.tradeId StoredSignal.id where
  positions := ⟨positionColumns, db.positions⟩
  trades := ⟨tradeColumns, db.trades⟩
  signals := ⟨signalColumns, db.signals⟩

lemma same_tables (db : MainDb) : db.tables.Same db.tables :=
  ⟨⟨List.cons_ne_nil _ _, rfl, .refl _⟩, ⟨List.cons_ne_nil _ _, rfl, .refl _⟩,
    ⟨List.cons_ne_nil _ _, rfl, .refl _⟩⟩

/-- What an extension of the baseline needs to be merged. -/
lemma mergeable_of_extends
    {production : MainTables PositionRow.positionId TradeRow.tradeId StoredSignal.id}
    {baseline candidate : MainDb} {affected : List String} (hnonempty : affected ≠ [])
    (hunchanged : production.Same baseline.tables) (h : Extends affected baseline candidate) :
    Mergeable PositionRow.alphaId production baseline.tables candidate.tables affected where
  nonempty := hnonempty
  unchanged := hunchanged
  positionColumns := rfl
  tradeColumns := rfl
  signalColumns := rfl
  trades := h.trades
  signals := h.signals
  others := h.others

/-- The candidate that a ledger makes of a baseline is merged into every production that still holds
the rows of the baseline, for every list of alphas with those of the ledger, and production then has the
rows of the candidate. -/
theorem candidate_merges (recoveredAt : String) (slippagePct : PyFloat) (entries : List LedgerEntry)
    (production : MainTables PositionRow.positionId TradeRow.tradeId StoredSignal.id)
    (baseline candidate : MainDb) (affected : List String)
    (hbuilt : buildMainCandidate recoveredAt slippagePct entries baseline = .ok candidate)
    (hunchanged : production.Same baseline.tables) (hnonempty : affected ≠ [])
    (hledger : ∀ entry ∈ entries, entry.alphaId ∈ affected) :
    ∃ merged, mergeMainDatabase PositionRow.alphaId production baseline.tables candidate.tables
        affected = (merged, none) ∧ merged.Same candidate.tables := by
  exact (mergeable_of_extends hnonempty hunchanged (extends_buildMainCandidate hledger hbuilt)).merges

/-- The close of a position whose fee is zero. -/
theorem candidate_merges_free : ∃ candidate merged,
    buildMainCandidate "now" 0 [closeFree 0] freeDb = .ok candidate ∧
      mergeMainDatabase PositionRow.alphaId freeDb.tables freeDb.tables candidate.tables ["a"] =
        (merged, none) ∧ merged.Same candidate.tables := by
  have hbuilt : (buildMainCandidate "now" 0 [closeFree 0] freeDb).isOk = true := by decide +kernel
  obtain ⟨candidate, hcandidate⟩ : ∃ candidate,
      buildMainCandidate "now" 0 [closeFree 0] freeDb = .ok candidate := by
    cases h : buildMainCandidate "now" 0 [closeFree 0] freeDb with
    | error e =>
      rw [h] at hbuilt
      cases hbuilt
    | ok candidate => exact ⟨candidate, rfl⟩
  obtain ⟨merged, hmerged⟩ := candidate_merges "now" 0 [closeFree 0] freeDb.tables freeDb candidate ["a"]
    hcandidate (same_tables freeDb) (by decide) (by simp [closeFree, LedgerEntry.alphaId])
  exact ⟨candidate, merged, hcandidate, hmerged⟩

end PaperTrade.Recovery
