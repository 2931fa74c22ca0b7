import Mathlib.Tactic

/-!
# A book that follows a direction

A follower of a direction holds at most one position, on the side of the direction. It opens only when
the direction turns, closes what it holds at the latest then, and is in cash from an early exit until the
next turn. `CashUntilFlip` says this of one step from a book to the next with the trades in between; the
lemmas after it are the steps there are, and `Balanced` counts the trades of a whole run.

Ids, sides and directions are of any types; `fits` says which side belongs to a direction.
-/

namespace PaperTrade.Runtime

/-- A position is opened or closed. -/
inductive Trade (ι : Type)
  | opened (id : ι)
  | closed (id : ι)
deriving DecidableEq

def Trade.isOpened {ι : Type} : Trade ι → Bool
  | .opened _ => true
  | .closed _ => false

/-- The positions that are held, with their sides, and the direction that is remembered. -/
structure FlipBook (ι β δ : Type) where
  held : List (ι × β)
  direction : δ

variable {ι β δ : Type} [DecidableEq ι]

/-- How many positions of the id are held. -/
def FlipBook.count (b : FlipBook ι β δ) (id : ι) : ℕ := (b.held.map Prod.fst).count id

/-- At most one position is held, on the side of the direction. -/
structure FlipBook.Fits (fits : β → δ → Prop) (b : FlipBook ι β δ) : Prop where
  one : b.held.length ≤ 1
  side : ∀ p ∈ b.held, fits p.2 b.direction

/-- What one step may do to a book with its trades. -/
structure CashUntilFlip (fits : β → δ → Prop) (b : FlipBook ι β δ) (trades : List (Trade ι))
    (b' : FlipBook ι β δ) : Prop where
  after : b'.Fits fits
  openedOnce : trades.countP Trade.isOpened ≤ 1
  openedAtFlip : trades.any Trade.isOpened = true → b'.direction ≠ b.direction
  closedAtFlip : b'.direction ≠ b.direction → ∀ p ∈ b.held, .closed p.1 ∈ trades
  balance : ∀ id, trades.count (.closed id) + b'.count id = trades.count (.opened id) + b.count id

/-- The trades of a run that started in cash: a position is closed as often as it has been opened, or
once less while it is held. -/
def FlipBook.Balanced (b : FlipBook ι β δ) (trades : List (Trade ι)) : Prop :=
  ∀ id, trades.count (.closed id) + b.count id = trades.count (.opened id)

namespace CashUntilFlip

variable {fits : β → δ → Prop} {b b' : FlipBook ι β δ} {trades : List (Trade ι)}

/-- Nothing happens. -/
lemma stay (h : b.Fits fits) : CashUntilFlip fits b [] b where
  after := h
  openedOnce := Nat.zero_le 1
  openedAtFlip hopen := by cases hopen
  closedAtFlip hne := absurd rfl hne
  balance _ := rfl

/-- In cash the direction may change without a trade. -/
lemma turn (d d' : δ) : CashUntilFlip fits (⟨[], d⟩ : FlipBook ι β δ) [] ⟨[], d'⟩ where
  after := ⟨Nat.zero_le 1, fun _ hp => absurd hp List.not_mem_nil⟩
  openedOnce := Nat.zero_le 1
  openedAtFlip hopen := by cases hopen
  closedAtFlip _ _ hp := absurd hp List.not_mem_nil
  balance _ := rfl

/-- The position is closed after the other trades of the step. -/
lemma close {p : ι × β} {d : δ} (h : CashUntilFlip fits b trades ⟨[p], d⟩) :
    CashUntilFlip fits b (trades ++ [.closed p.1]) ⟨[], d⟩ where
  after := ⟨Nat.zero_le 1, fun _ hp => absurd hp List.not_mem_nil⟩
  openedOnce := by
    rw [List.countP_append]
    exact h.openedOnce
  openedAtFlip hopen := by
    rw [List.any_append, Bool.or_eq_true] at hopen
    rcases hopen with hopen | hopen
    · exact h.openedAtFlip hopen
    · cases hopen
  closedAtFlip hne q hq := List.mem_append_left _ (h.closedAtFlip hne q hq)
  balance id := by
    have hbalance := h.balance id
    have hheld : FlipBook.count (⟨[p], d⟩ : FlipBook ι β δ) id = if p.1 = id then 1 else 0 := by
      simp [FlipBook.count, List.count_singleton]
    have hcash : FlipBook.count (⟨[], d⟩ : FlipBook ι β δ) id = 0 := rfl
    have hopened : [Trade.closed p.1].count (.opened id) = 0 := by simp
    have hclosed : [Trade.closed p.1].count (.closed id) = if p.1 = id then 1 else 0 := by
      simp [List.count_singleton]
    rw [List.count_append, List.count_append]
    omega

/-- One step of a run. -/
lemma balanced {all : List (Trade ι)} (h : CashUntilFlip fits b trades b') (hb : b.Balanced all) :
    b'.Balanced (all ++ trades) := by
  intro id
  have hstep := h.balance id
  have hrun := hb id
  rw [List.count_append, List.count_append]
  omega

end CashUntilFlip

/-! ## Within a step -/

/-- So far the step has closed some of what was held and opened nothing, in the old direction. -/
structure BeforeFlip (fits : β → δ → Prop) (b : FlipBook ι β δ) (trades : List (Trade ι))
    (b' : FlipBook ι β δ) : Prop where
  cycle : CashUntilFlip fits b trades b'
  direction : b'.direction = b.direction
  noneOpened : trades.any Trade.isOpened = false
  closed : ∀ p ∈ b.held, .closed p.1 ∈ trades ∨ p ∈ b'.held

namespace BeforeFlip

variable {fits : β → δ → Prop} {b : FlipBook ι β δ} {trades : List (Trade ι)} {d d' : δ}

lemma start (h : b.Fits fits) : BeforeFlip fits b [] b where
  cycle := .stay h
  direction := rfl
  noneOpened := rfl
  closed _ hp := .inr hp

lemma close {p : ι × β} (h : BeforeFlip fits b trades ⟨[p], d⟩) :
    BeforeFlip fits b (trades ++ [.closed p.1]) ⟨[], d⟩ where
  cycle := h.cycle.close
  direction := h.direction
  noneOpened := by
    rw [List.any_append, h.noneOpened]
    rfl
  closed q hq := by
    refine .inl ?_
    rcases h.closed q hq with hq | hq
    · exact List.mem_append_left _ hq
    · rw [List.mem_singleton.mp hq]
      exact List.mem_append_right _ (List.mem_singleton_self _)

lemma closed_of_cash (h : BeforeFlip fits b trades ⟨[], d⟩) : ∀ p ∈ b.held, .closed p.1 ∈ trades :=
  fun p hp => (h.closed p hp).resolve_right List.not_mem_nil

/-- The direction turns in cash. -/
lemma turn (h : BeforeFlip fits b trades ⟨[], d⟩) (d' : δ) : CashUntilFlip fits b trades ⟨[], d'⟩ where
  after := ⟨Nat.zero_le 1, fun _ hp => absurd hp List.not_mem_nil⟩
  openedOnce := h.cycle.openedOnce
  openedAtFlip hopen := by
    rw [h.noneOpened] at hopen
    cases hopen
  closedAtFlip _ := h.closed_of_cash
  balance := h.cycle.balance

/-- A position is opened on the side of the new direction. -/
lemma reopen {side : β} (h : BeforeFlip fits b trades ⟨[], d⟩) (id : ι) (hne : d' ≠ d)
    (hside : fits side d') : CashUntilFlip fits b (trades ++ [.opened id]) ⟨[(id, side)], d'⟩ where
  after := by
    refine ⟨le_rfl, fun p hp => ?_⟩
    rw [List.mem_singleton.mp hp]
    exact hside
  openedOnce := by
    have hzero : trades.countP Trade.isOpened = 0 := by
      rw [List.countP_eq_zero]
      intro t ht hopen
      exact List.any_eq_false.mp h.noneOpened t ht hopen
    rw [List.countP_append, hzero]
    exact le_rfl
  openedAtFlip _ := by
    rw [← h.direction]
    exact hne
  closedAtFlip _ p hp := List.mem_append_left _ (h.closed_of_cash p hp)
  balance id' := by
    have hbalance := h.cycle.balance id'
    have hheld : FlipBook.count (⟨[(id, side)], d'⟩ : FlipBook ι β δ) id' =
        if id = id' then 1 else 0 := by
      simp [FlipBook.count, List.count_singleton]
    have hcash : FlipBook.count (⟨[], d⟩ : FlipBook ι β δ) id' = 0 := rfl
    have hclosed : [Trade.opened id].count (.closed id') = 0 := by simp
    have hopened : [Trade.opened id].count (.opened id') = if id = id' then 1 else 0 := by
      simp [List.count_singleton]
    rw [List.count_append, List.count_append]
    omega

end BeforeFlip

/-- In the trades of a run no position is closed more often than it has been opened. -/
theorem FlipBook.Balanced.closed_le {b : FlipBook ι β δ} {trades : List (Trade ι)}
    (h : b.Balanced trades) (id : ι) : trades.count (.closed id) ≤ trades.count (.opened id) :=
  (Nat.le_add_right _ _).trans (h id).le

end PaperTrade.Runtime
