import PaperTrade.Runtime.FlipCycle
import PaperTrade.Runner.Acts
import PaperTrade.Runner.SupertrendAdx
import PaperTrade.Runner.MinuteTrailing
import PaperTrade.Runner.SmoothChan

/-!
# The books of the Supertrend strategies

How the state and the signals of a strategy are read as a book that follows a direction, for each of
the four strategies, and what the steps they share do to it.
-/

namespace PaperTrade.Runner

open PaperTrade.Runtime Dispatcher

/-! ## Trades -/

/-- An OPEN or a CLOSE. -/
def Call.trade? (c : Call) : Option (Trade String) :=
  match c.logical.positionId with
  | .str id =>
    if c.type = "OPEN" then some (.opened id)
    else if c.type = "CLOSE" then some (.closed id)
    else none
  | _ => none

def trades (cs : List Call) : List (Trade String) := cs.filterMap Call.trade?

@[simp] lemma trades_nil : trades [] = [] := rfl

@[simp] lemma trades_append (cs cs' : List Call) : trades (cs ++ cs') = trades cs ++ trades cs' :=
  List.filterMap_append ..

/-- The side that a direction asks for. -/
def SideFits (side : String) (direction : ℤ) : Prop :=
  (side = "LONG" ∧ direction = uptrend) ∨ (side = "SHORT" ∧ direction = downtrend)

instance (side : String) (direction : ℤ) : Decidable (SideFits side direction) :=
  inferInstanceAs (Decidable (_ ∨ _))

/-- The side of a flip. -/
def sideOf (direction : ℤ) : String := if direction = downtrend then "SHORT" else "LONG"

/-- A direction of the Supertrend. -/
def IsDirection (direction : ℤ) : Prop := direction = downtrend ∨ direction = uptrend

lemma sideFits_sideOf {direction : ℤ} (h : IsDirection direction) :
    SideFits (sideOf direction) direction := by
  rcases h with rfl | rfl
  · exact .inr ⟨rfl, rfl⟩
  · exact .inl ⟨rfl, rfl⟩

/-- A new direction is against the side of the old one. -/
lemma opposite_of_sideFits {side : String} {direction direction' : ℤ} (h : SideFits side direction)
    (hdir : IsDirection direction') (hne : direction' ≠ direction) :
    (side = "LONG" ∧ direction' = downtrend) ∨ (side = "SHORT" ∧ direction' = uptrend) := by
  rcases h with ⟨hside, rfl⟩ | ⟨hside, rfl⟩
  · exact .inl ⟨hside, hdir.resolve_right hne⟩
  · exact .inr ⟨hside, hdir.resolve_left hne⟩

/-! ## Directions -/

lemma isDirection_next (factor : PyFloat) (prev : Bands) (c : Candle) (atr : PyFloat) :
    IsDirection (prev.next factor c atr).direction := by
  rw [Bands.next]
  dsimp only
  by_cases hprev : prev.direction = 1
  · rw [if_pos hprev]
    exact (ite_eq_or_eq _ _ _).symm
  · rw [if_neg hprev]
    exact ite_eq_or_eq _ _ _

lemma isDirection_directionLoop (factor : PyFloat) (candles : List Candle) (b : Bands)
    (atrs : List PyFloat) : ∀ d ∈ directionLoop factor b candles atrs, IsDirection d := by
  induction candles generalizing b atrs with
  | nil =>
    intro d hd
    rw [directionLoop] at hd
    · exact absurd hd List.not_mem_nil
    · intro _ _ _ _ h
      cases h
  | cons c candles ih =>
    cases atrs with
    | nil => exact fun d hd => absurd hd List.not_mem_nil
    | cons atr atrs =>
      intro d hd
      rcases List.mem_cons.mp hd with rfl | hd
      · exact isDirection_next factor b c atr
      · exact ih _ _ d hd

lemma isDirection_of_mem {factor : PyFloat} {period : ℕ} {candles : List Candle} :
    ∀ d ∈ supertrendDirections factor period candles, IsDirection d := by
  intro d hd
  unfold supertrendDirections at hd
  split at hd
  · rcases List.mem_cons.mp hd with rfl | hd
    · exact .inl rfl
    · exact isDirection_directionLoop _ _ _ _ d hd
  · exact absurd hd List.not_mem_nil

lemma supertrendDirections_ne_nil (factor : PyFloat) (period : ℕ) {candles : List Candle}
    (h : candles ≠ []) : supertrendDirections factor period candles ≠ [] := by
  cases candles with
  | nil => exact absurd rfl h
  | cons c candles => exact List.cons_ne_nil _ _

/-- The last direction of candles is one. -/
lemma isDirection_last (factor : PyFloat) (period : ℕ) {candles : List Candle} (h : candles ≠ []) :
    IsDirection ((supertrendDirections factor period candles).getLast?.getD 0) := by
  have hne := supertrendDirections_ne_nil factor period h
  rw [List.getLast?_eq_some_getLast hne, Option.getD_some]
  exact isDirection_of_mem _ (List.getLast_mem hne)

/-! ## Steps on a book -/

section Goes

variable {σ α β : Type} {book : σ → FlipBook String String ℤ} {b : FlipBook String String ℤ}
  {ts : List (Trade String)} {s s₁ : σ}

/-- After the trades `ts`, the method ends in a book that the step from `b` may lead to. -/
def Goes (book : σ → FlipBook String String ℤ) (b : FlipBook String String ℤ)
    (ts : List (Trade String)) : Effect σ α :=
  fun _ cs s' => CashUntilFlip SideFits b (ts ++ trades cs) (book s')

lemma goes_done {r : Except StrategyError α} (h : CashUntilFlip SideFits b ts (book s)) :
    Goes book b ts r [] s := by
  rw [Goes, trades_nil, List.append_nil]
  exact h

lemma goes_pure {a : α} (h : CashUntilFlip SideFits b ts (book s)) :
    Acts (pure a : Method σ α) s (Goes book b ts) :=
  Acts.pure (goes_done h)

/-- After a method that ends in one way. -/
lemma goes_then {p : Method σ α} {k : α → Method σ β} {a : α} {cs : List Call}
    (h : Ends p s a cs s₁) (hk : Acts (k a) s₁ (Goes book b (ts ++ trades cs))) :
    Acts (p >>= k) s (Goes book b ts) := by
  refine h.then_acts (Acts.mono hk fun r cs' s' hgoes => ?_)
  unfold Goes at hgoes ⊢
  rw [trades_append, ← List.append_assoc]
  exact hgoes

/-- From `w` to `w'` the book follows the direction, and over the whole history no position has been
closed more often than it has been opened. -/
structure FollowsFlips (book : σ → FlipBook String String ℤ) (w w' : σ × Outbox) : Prop where
  cycle : CashUntilFlip SideFits (book w.1) (trades (sentSince w w')) (book w'.1)
  balanced : (book w'.1).Balanced (trades (calls w'.2.history))

/-- A step that sends nothing and keeps the book. -/
lemma followsFlips_silent {w w' : σ × Outbox} (hfits : (book w.1).Fits SideFits)
    (hbalanced : (book w.1).Balanced (trades (calls w.2.history))) (hbook : book w'.1 = book w.1)
    (hbox : w'.2 = w.2) : FollowsFlips book w w' := by
  have hsent : sentSince w w' = [] := by
    rw [sentSince, hbox]
    exact List.drop_length
  refine ⟨?_, ?_⟩
  · rw [hsent, hbook]
    exact .stay hfits
  · rw [hbook, hbox]
    exact hbalanced

/-- A step that is a method. -/
lemma followsFlips_run {p : Method σ Unit} {J : σ → Prop} {w : σ × Outbox}
    (h : Acts p w.1 fun _ cs s' => CashUntilFlip SideFits (book w.1) (trades cs) (book s') ∧ J s')
    (hbalanced : (book w.1).Balanced (trades (calls w.2.history))) :
    FollowsFlips book w (p.run w).2 ∧ J (p.run w).2.1 := by
  obtain ⟨hcycle, hj⟩ := h.run w.2
  refine ⟨⟨hcycle, ?_⟩, hj⟩
  have hcalls := h.calls_run w.2
  rw [hcalls, trades_append]
  exact hcycle.balanced hbalanced

end Goes

/-! ## Tables of at most one row -/

section Tables

variable {ρ κ γ : Type} {key : ρ → κ} [DecidableEq κ] {t : Table key} {r : ρ}

lemma rows_eq_singleton (hhead : t.rows.head? = some r) (hone : t.rows.length ≤ 1) : t.rows = [r] := by
  obtain ⟨tail, htail⟩ := List.head?_eq_some_iff.mp hhead
  rw [htail, List.length_cons] at hone
  have hnil : tail = [] := List.eq_nil_of_length_eq_zero (by omega)
  rw [htail, hnil]

lemma rows_erase_singleton (h : t.rows = [r]) : (t.erase (key r)).rows = [] := by
  rw [Table.erase, Table.rows_filter, h, List.filter_cons_of_neg (by simp), List.filter_nil]

lemma rows_insertOrIgnore_empty (h : t.rows = []) (r : ρ) : (t.insertOrIgnore r).rows = [r] := by
  rw [Table.rows_insertOrIgnore_of_not_contains, h, List.nil_append]
  rw [Table.not_contains_iff, h]
  exact fun _ hr => absurd hr List.not_mem_nil

lemma rows_modify_singleton {f : ρ → ρ} (hf : ∀ r, key (f r) = key r) (h : t.rows = [r]) :
    (t.modify (key r) f hf).rows = [f r] := by
  have hmap : (t.rows.map fun r' => if key r' = key r then f r' else r') = [f r] := by
    rw [h, List.map_singleton, if_pos rfl]
  exact hmap

/-- An update of a row that is removed. -/
lemma erase_modify {f : ρ → ρ} (k : κ) (hf : ∀ r, key (f r) = key r) (t : Table key) :
    (t.modify k f hf).erase k = t.erase k := by
  refine Table.ext ?_
  have hrows : ∀ rows : List ρ, (rows.map fun r => if key r = k then f r else r).filter
      (fun r => decide (key r ≠ k)) = rows.filter fun r => decide (key r ≠ k) := by
    intro rows
    induction rows with
    | nil => rfl
    | cons r rows ih =>
      rw [List.map_cons]
      by_cases hr : key r = k
      · rw [if_pos hr, List.filter_cons_of_neg (by simp [hf, hr]), ih,
          List.filter_cons_of_neg (by simp [hr])]
      · rw [if_neg hr, List.filter_cons_of_pos (by simp [hr]), ih,
          List.filter_cons_of_pos (by simp [hr])]
  exact hrows t.rows

/-- What an update leaves alone in the rows. -/
lemma map_rows_modify {g : ρ → γ} {f : ρ → ρ} (k : κ) (hf : ∀ r, key (f r) = key r)
    (hg : ∀ r, g (f r) = g r) : (t.modify k f hf).rows.map g = t.rows.map g := by
  rw [Table.modify, List.map_map]
  refine List.map_congr_left fun r _ => ?_
  rw [Function.comp_apply]
  split
  · exact hg r
  · rfl

end Tables

end PaperTrade.Runner
