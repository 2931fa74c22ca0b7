import Mathlib.Data.List.Nodup
import Mathlib.Data.List.Range
import Mathlib.Tactic

/-!
# Consumer groups

A stream from which nothing is trimmed, as one group reads it: entries are numbered in the order in
which they are added, a read hands out the next ones and makes them pending, and an acknowledgement
takes an entry off the pending ones. An entry that was handed out is pending or acknowledged
(`length_pending_add_acknowledged`).
-/

namespace PaperTrade.Runtime

/-- A stream and one group of its consumers. -/
structure ConsumerGroup (μ : Type) where
  entries : List μ
  /-- how many entries have been handed out -/
  entriesRead : ℕ
  /-- the entries that were handed out and are not acknowledged -/
  pending : List ℕ
  read_le : entriesRead ≤ entries.length
  pending_lt : ∀ i ∈ pending, i < entriesRead
  nodup_pending : pending.Nodup

namespace ConsumerGroup

variable {μ : Type}

/-- A stream without entries. -/
def empty : ConsumerGroup μ := ⟨[], 0, [], le_rfl, fun _ h => absurd h List.not_mem_nil, List.nodup_nil⟩

variable (g : ConsumerGroup μ)

/-- `XADD`. -/
def add (m : μ) : ConsumerGroup μ where
  entries := g.entries ++ [m]
  entriesRead := g.entriesRead
  pending := g.pending
  read_le := by
    rw [List.length_append]
    exact Nat.le_add_right_of_le g.read_le
  pending_lt := g.pending_lt
  nodup_pending := g.nodup_pending

/-- The numbers of the entries that a read of at most `count` hands out. -/
def next (count : ℕ) : List ℕ := List.range' g.entriesRead (min count (g.entries.length - g.entriesRead))

/-- These entries with their numbers. -/
def handOut (count : ℕ) : List (μ × ℕ) :=
  ((g.entries.drop g.entriesRead).take count).zipIdx g.entriesRead

lemma map_snd_handOut (count : ℕ) : (g.handOut count).map Prod.snd = g.next count := by
  rw [handOut, List.zipIdx_map_snd, List.length_take, List.length_drop]
  rfl

lemma mem_next {count i : ℕ} : i ∈ g.next count ↔
    g.entriesRead ≤ i ∧ i < g.entriesRead + min count (g.entries.length - g.entriesRead) :=
  List.mem_range'_1

/-- `XREADGROUP` of new entries. -/
def readGroup (count : ℕ) : ConsumerGroup μ where
  entries := g.entries
  entriesRead := g.entriesRead + min count (g.entries.length - g.entriesRead)
  pending := g.pending ++ g.next count
  read_le := by
    have := g.read_le
    omega
  pending_lt i hi := by
    rcases List.mem_append.mp hi with hi | hi
    · exact Nat.lt_add_right _ (g.pending_lt i hi)
    · exact (g.mem_next.mp hi).2
  nodup_pending := by
    refine g.nodup_pending.append List.nodup_range' fun i hi hnext => ?_
    exact absurd (g.pending_lt i hi) (g.mem_next.mp hnext).1.not_gt

/-- `XACK`. -/
def ack (id : ℕ) : ConsumerGroup μ where
  entries := g.entries
  entriesRead := g.entriesRead
  pending := g.pending.erase id
  read_le := g.read_le
  pending_lt i hi := g.pending_lt i (List.mem_of_mem_erase hi)
  nodup_pending := g.nodup_pending.erase id

/-- The entries that were never handed out. -/
def lag : ℕ := g.entries.length - g.entriesRead

/-- The entries that were handed out and acknowledged. -/
def acknowledged : List ℕ := (List.range g.entriesRead).filter fun i => i ∉ g.pending

lemma mem_acknowledged {i : ℕ} : i ∈ g.acknowledged ↔ i < g.entriesRead ∧ i ∉ g.pending := by
  simp [acknowledged]

/-- What was handed out is pending or acknowledged. -/
theorem length_pending_add_acknowledged :
    g.pending.length + g.acknowledged.length = g.entriesRead := by
  have hperm : g.pending.Perm ((List.range g.entriesRead).filter fun i => i ∈ g.pending) := by
    refine (List.perm_ext_iff_of_nodup g.nodup_pending (List.nodup_range.filter _)).mpr fun i => ?_
    rw [List.mem_filter, List.mem_range, decide_eq_true_eq]
    exact ⟨fun hi => ⟨g.pending_lt i hi, hi⟩, And.right⟩
  have hsplit := List.length_eq_length_filter_add (l := List.range g.entriesRead)
    fun i => decide (i ∈ g.pending)
  rw [List.length_range, ← hperm.length_eq] at hsplit
  rw [hsplit, acknowledged]
  simp only [decide_not]

@[simp] lemma acknowledged_add (m : μ) : (g.add m).acknowledged = g.acknowledged := rfl

/-- A read acknowledges nothing. -/
lemma length_acknowledged_readGroup (count : ℕ) :
    (g.readGroup count).acknowledged.length = g.acknowledged.length := by
  have hbefore := g.length_pending_add_acknowledged
  have hafter := (g.readGroup count).length_pending_add_acknowledged
  have hpending : (g.readGroup count).pending.length =
      g.pending.length + min count (g.entries.length - g.entriesRead) := by
    show (g.pending ++ g.next count).length = _
    rw [List.length_append, next, List.length_range']
  have hread : (g.readGroup count).entriesRead =
      g.entriesRead + min count (g.entries.length - g.entriesRead) := rfl
  omega

/-- An acknowledgement of a pending entry is one more. -/
lemma length_acknowledged_ack {id : ℕ} (h : id ∈ g.pending) :
    (g.ack id).acknowledged.length = g.acknowledged.length + 1 := by
  have hbefore := g.length_pending_add_acknowledged
  have hafter := (g.ack id).length_pending_add_acknowledged
  have hpending : (g.ack id).pending.length = g.pending.length - 1 := List.length_erase_of_mem h
  have hpos : 0 < g.pending.length := List.length_pos_of_mem h
  have hread : (g.ack id).entriesRead = g.entriesRead := rfl
  omega

end ConsumerGroup

end PaperTrade.Runtime
