import PaperTrade.Worker.Delivery

/-!
# Redelivery

The stream delivers a message more than once. Every message that is not a duplicate leaves a marked
row of `signals` with its id behind, whichever way it goes, and no row is ever unmarked, so a later
message with that id is skipped. The literal id `unknown` stands for a missing one and is exempt
from the check; it is the only exception.
-/

namespace PaperTrade.Worker

open PaperTrade.Runtime

/-! ## The audit log only grows marks -/

lemma isProcessed_mark {s : Tables} {id x : String} {error : Option PyError}
    (h : isProcessed s x = true) : isProcessed (s.mark id error) x = true := by
  simp only [isProcessed, Tables.mark, List.any_map, List.any_eq_true, Bool.and_eq_true,
    decide_eq_true_eq, Function.comp_apply] at h ⊢
  obtain ⟨r, hr, hid, hproc⟩ := h
  refine ⟨r, hr, ?_⟩
  subst hid
  by_cases hm : r.signalId = id <;> simp [markRow, hm, hproc]

lemma isProcessed_log {s : Tables} {r : SignalRow} {x : String} (h : isProcessed s x = true) :
    isProcessed (s.log r) x = true := by
  simp only [isProcessed, Tables.log, List.any_append, Bool.or_eq_true] at h ⊢
  exact .inl h

/-- Marking an id that has a row leaves it processed. -/
lemma isProcessed_mark_self {s : Tables} {id : String} {error : Option PyError}
    (h : ∃ r ∈ s.signals, r.signalId = id) : isProcessed (s.mark id error) id = true := by
  obtain ⟨r, hr, rfl⟩ := h
  simp only [isProcessed, Tables.mark, List.any_map, List.any_eq_true]
  exact ⟨r, hr, by simp [markRow]⟩

lemma isProcessed_congr {s s' : Tables} (h : SameAudit s s') (x : String) :
    isProcessed s' x = isProcessed s x := by
  rw [isProcessed, isProcessed, h.signals]

/-- What is left of a message in the audit log. -/
lemma Delivers.exists_mark {self : Executor} {m : Delivery} {s s' : Tables} {r : Option Outcome}
    (h : Delivers self m s r s') (hnew : ¬ Duplicate s m.data) :
    ∃ s₁ error, SameAudit (s.log (logRow m.env m.data)) s₁ ∧
      s' = s₁.mark m.data.signalIdOr error := by
  cases h with
  | duplicate hdup => exact absurd hdup hnew
  | unparsable _ _ => exact ⟨_, _, ⟨rfl, rfl, rfl, rfl⟩, rfl⟩
  | rejected _ _ hhandle => exact ⟨_, _, hhandle.sameAudit, rfl⟩
  | accepted _ _ hhandle => exact ⟨_, _, hhandle.sameAudit, rfl⟩

/-- A duplicate changes nothing. -/
lemma deliver_of_duplicate {self : Executor} {m : Delivery} {s : Tables}
    (hdup : Duplicate s m.data) : deliver self s m = s := by
  have hd := deliver_cases self m s
  generalize deliver self s m = s', reply self s m = r at hd
  cases hd with
  | duplicate _ => rfl
  | _ hnew => exact absurd hdup hnew

/-- A processed id stays processed. -/
lemma isProcessed_deliver {self : Executor} {m : Delivery} {s : Tables} {x : String}
    (h : isProcessed s x = true) : isProcessed (deliver self s m) x = true := by
  by_cases hdup : Duplicate s m.data
  · rwa [deliver_of_duplicate hdup]
  · obtain ⟨s₁, error, hsame, heq⟩ := (deliver_cases self m s).exists_mark hdup
    rw [heq]
    refine isProcessed_mark ?_
    rw [isProcessed_congr hsame]
    exact isProcessed_log h

/-- Every message leaves its id processed. -/
lemma isProcessed_deliver_self {self : Executor} {m : Delivery} {s : Tables} :
    isProcessed (deliver self s m) m.data.signalIdOr = true := by
  by_cases hdup : Duplicate s m.data
  · exact isProcessed_deliver hdup.2
  · obtain ⟨s₁, error, hsame, heq⟩ := (deliver_cases self m s).exists_mark hdup
    rw [heq]
    refine isProcessed_mark_self ⟨logRow m.env m.data, ?_, rfl⟩
    rw [hsame.signals]
    exact List.mem_append_right _ (List.mem_singleton_self _)

/-! ## Dropping redeliveries -/

/-- The messages whose id has occurred neither in `seen` nor earlier in the list. -/
def withoutRedeliveries : List String → List Delivery → List Delivery
  | _, [] => []
  | seen, m :: ms =>
    if m.data.signalIdOr ∈ seen then withoutRedeliveries seen ms
    else m :: withoutRedeliveries (m.data.signalIdOr :: seen) ms

/-- The message carries a `signal_id`, and not the sentinel that stands for a missing one. -/
def HasId (data : RawSignal) : Prop := ∃ id, data.signalId = some id ∧ id ≠ "unknown"

lemma HasId.ne_unknown {data : RawSignal} (h : HasId data) : data.signalIdOr ≠ "unknown" := by
  obtain ⟨id, hid, hne⟩ := h
  rwa [RawSignal.signalIdOr, hid, Option.getD_some]

lemma deliverAll_withoutRedeliveries_seen (self : Executor) (seen : List String)
    (ms : List Delivery) (s : Tables) (hids : ∀ m ∈ ms, HasId m.data)
    (hseen : ∀ x ∈ seen, isProcessed s x = true) :
    deliverAll self s ms = deliverAll self s (withoutRedeliveries seen ms) := by
  induction ms generalizing seen s with
  | nil => rfl
  | cons m ms ih =>
    have hne := (hids m List.mem_cons_self).ne_unknown
    have hrest : ∀ m ∈ ms, HasId m.data := fun m' hm => hids m' (List.mem_cons_of_mem _ hm)
    unfold withoutRedeliveries
    split
    · rename_i hmem
      have hskip : deliver self s m = s := deliver_of_duplicate ⟨hne, hseen _ hmem⟩
      rw [deliverAll, List.foldl_cons, hskip]
      exact ih seen s hrest hseen
    · refine ih (m.data.signalIdOr :: seen) (deliver self s m) hrest fun x hx => ?_
      rcases List.mem_cons.mp hx with rfl | hx
      · exact isProcessed_deliver_self
      · exact isProcessed_deliver (hseen x hx)

/-- Redelivered messages have no effect: the database is the one that the first deliveries alone
lead to. -/
theorem deliverAll_withoutRedeliveries (self : Executor) (s : Tables) (ms : List Delivery)
    (hids : ∀ m ∈ ms, HasId m.data) :
    deliverAll self s ms = deliverAll self s (withoutRedeliveries [] ms) :=
  deliverAll_withoutRedeliveries_seen self [] ms s hids fun _ hx => nomatch hx

/-- An OPEN of ten and the same partial CLOSE of four delivered twice. -/
def closeTwice (closeId : String) : List Delivery :=
  let opening : RawSignal := {
    type := "OPEN", alphaId := "alpha", signalId := "open-1", symbol := "BTCUSDT", side := "LONG"
    timestamp := "2024-01-01T00:00:00Z", positionId := "p1"
    entry := some (.chars "100"), qty := some (.chars "10") }
  let closing : RawSignal := {
    type := "CLOSE", alphaId := "alpha", signalId := closeId, positionId := "p1"
    timestamp := "2024-01-01T01:00:00Z", exitPrice := some (.chars "110"), qty := some (.chars "4") }
  [⟨opening, { now := "t1", uuid := "u1" }⟩, ⟨closing, { now := "t2", uuid := "u2" }⟩,
    ⟨closing, { now := "t3", uuid := "u3" }⟩]

theorem deliverAll_withoutRedeliveries_closeTwice :
    deliverAll {} .empty (closeTwice "close-1") =
      deliverAll {} .empty (withoutRedeliveries [] (closeTwice "close-1")) :=
  deliverAll_withoutRedeliveries {} .empty (closeTwice "close-1") (by
    intro m hm
    simp only [closeTwice, List.mem_cons, List.not_mem_nil, or_false] at hm
    rcases hm with rfl | rfl | rfl
    · exact ⟨"open-1", rfl, by decide⟩
    · exact ⟨"close-1", rfl, by decide⟩
    · exact ⟨"close-1", rfl, by decide⟩)

/-- With the sentinel for an id the second delivery closes another four. -/
theorem closeTwice_unknown :
    (∀ m ∈ closeTwice "unknown", m.data.signalId.isSome = true) ∧
      (deliverAll {} .empty (closeTwice "unknown")).trades ≠
        (deliverAll {} .empty (withoutRedeliveries [] (closeTwice "unknown"))).trades := by
  refine ⟨by decide, fun h => ?_⟩
  have hlen := congrArg (fun t : Table TradeRow.tradeId => t.rows.length) h
  exact absurd hlen (by decide +kernel)

end PaperTrade.Worker
