import PaperTrade.Recovery.Replay
import PaperTrade.Runner.RebalanceFollows

/-!
# The pairing of an opened book

`_apply_selection` drops the names without a price and those that are not tradable, trims the longer
side to the shorter one, and opens the rest. The trim is skipped when a side has nothing left, and then
the other side is opened alone: the book of a balanced selection is paired exactly when the two sides
lose all their names together (`rebalance_paired_iff`). A price of NaN passes the filter, too.

The dispatches are taken to succeed, so that the book is what the strategy decides to open.
-/

namespace PaperTrade.Runner

open PaperTrade.Runtime PaperTrade.CrossAlpha PaperTrade.Recovery Dispatcher

namespace CrossSectional

/-! ## The trim -/

section Trim

variable {selection : Selection} {weights : List (String × PyFloat)}

lemma excess_le (side other : List String) : excess side other ≤ side.length := by
  unfold excess
  split <;> omega

/-- A side loses as many names as the trim takes. -/
lemma length_kept {side : List String} (hside : side.Nodup) {n : ℕ} (hn : n ≤ side.length) :
    (side.filter fun s => s ∉ weakestNames selection n (side.insertionSort (· ≤ ·))).length =
      side.length - n := by
  let drop := weakestNames selection n (side.insertionSort (· ≤ ·))
  have hperm : (sortedBy (strength selection) (side.insertionSort (· ≤ ·))).Perm side :=
    (perm_sortedBy _).trans (List.perm_insertionSort (· ≤ ·) side)
  have hdrop : drop.Nodup := (hperm.nodup_iff.mpr hside).sublist (List.take_sublist _ _)
  have hlength : drop.length = n := by
    show (List.take n _).length = n
    rw [List.length_take, hperm.length_eq]
    omega
  have hsame : (side.filter fun s => s ∈ drop).Perm drop := by
    refine (List.perm_ext_iff_of_nodup (hside.filter _) hdrop).mpr fun s => ?_
    rw [List.mem_filter, decide_eq_true_iff]
    exact and_iff_right_of_imp fun hs => hperm.mem_iff.mp (List.mem_of_mem_take hs)
  have hsplit := List.length_eq_length_filter_add (l := side) fun s => decide (s ∈ drop)
  rw [hsame.length_eq, hlength] at hsplit
  simp only [decide_not]
  show (side.filter fun s => !decide (s ∈ drop)).length = _
  omega

lemma not_short_of_long (hw : weights.Sublist selection.weights.rows) {s : String}
    (hlong : s ∈ longNames weights) : s ∉ shortNames weights := by
  intro hshort
  obtain ⟨e, he, rfl⟩ := List.mem_map.mp hlong
  obtain ⟨e', he', heq⟩ := List.mem_map.mp hshort
  obtain ⟨he, hpos⟩ := List.mem_filter.mp he
  obtain ⟨he', hneg⟩ := List.mem_filter.mp he'
  have hsame : e'.2 = e.2 := by
    rw [← weightIn_of_mem hw he, ← weightIn_of_mem hw he', heq]
  rw [hsame] at hneg
  exact not_lt_of_pos (of_decide_eq_true hpos) (of_decide_eq_true hneg)

/-- A side of what is left, when what is left of the side goes by the names. -/
lemma side_filter {f side : String × PyFloat → Bool} {g : String → Bool}
    (h : ∀ e ∈ weights, side e = true → f e = g e.1) :
    ((weights.filter f).filter side).map (fun e => e.1) =
      ((weights.filter side).map fun e => e.1).filter g := by
  rw [List.filter_map, List.filter_filter, List.filter_filter]
  congr 1
  refine List.filter_congr fun e he => ?_
  cases hside : side e with
  | false => rw [Bool.false_and, Bool.and_false]
  | true => rw [Bool.true_and, Bool.and_true, h e he hside, Function.comp]

lemma length_longNames_balance (hw : weights.Sublist selection.weights.rows) :
    (longNames (balance weights)).length =
      (longNames weights).length - excess (longNames weights) (shortNames weights) := by
  have hkept : longNames (balance weights) = (longNames weights).filter fun s =>
      s ∉ weakestNames selection (excess (longNames weights) (shortNames weights))
        ((longNames weights).insertionSort (· ≤ ·)) := by
    rw [balance_eq hw]
    refine side_filter fun e he hpos => ?_
    have hlong : e.1 ∈ longNames weights := List.mem_map.mpr ⟨e, List.mem_filter.mpr ⟨he, hpos⟩, rfl⟩
    refine decide_eq_decide.mpr (and_iff_left fun hin => not_short_of_long hw hlong ?_)
    exact (List.mem_insertionSort _).mp (mem_of_mem_weakestNames hin)
  rw [hkept, length_kept (nodup_longNames hw) (excess_le _ _)]

lemma length_shortNames_balance (hw : weights.Sublist selection.weights.rows) :
    (shortNames (balance weights)).length =
      (shortNames weights).length - excess (shortNames weights) (longNames weights) := by
  have hkept : shortNames (balance weights) = (shortNames weights).filter fun s =>
      s ∉ weakestNames selection (excess (shortNames weights) (longNames weights))
        ((shortNames weights).insertionSort (· ≤ ·)) := by
    rw [balance_eq hw]
    refine side_filter fun e he hneg => ?_
    have hshort : e.1 ∈ shortNames weights :=
      List.mem_map.mpr ⟨e, List.mem_filter.mpr ⟨he, hneg⟩, rfl⟩
    refine decide_eq_decide.mpr (and_iff_right fun hin => not_short_of_long hw ?_ hshort)
    exact (List.mem_insertionSort _).mp (mem_of_mem_weakestNames hin)
  rw [hkept, length_kept (nodup_shortNames hw) (excess_le _ _)]

/-- The trimmed sides have the same length exactly if none of them was the only one. -/
theorem balance_paired_iff (hw : weights.Sublist selection.weights.rows) :
    (longNames (balance weights)).length = (shortNames (balance weights)).length ↔
      (longNames weights = [] ↔ shortNames weights = []) := by
  rw [length_longNames_balance hw, length_shortNames_balance hw]
  simp only [← List.length_eq_zero_iff, excess]
  split <;> split <;> omega

end Trim

/-! ## What is opened -/

section Opened

variable {x : CrossSectional} {digest : Logical → String} {uuid4 : ℕ → String}
  {env : ℕ → DispatchEnv}

/-- The entry of the book that a weight is opened as. -/
structure OpenedAs (prices : Dict String PyFloat) (weight : String × PyFloat)
    (row : String × OpenPosition) : Prop where
  key : row.1 = weight.1
  symbol : row.2.symbol = weight.1
  side : row.2.side = if 0 < weight.2 then "LONG" else "SHORT"
  price : row.2.entry = some ((prices.get? weight.1).getD 0)
  unchanged : row.2.weight = some weight.2

variable (x digest uuid4) in
/-- While the dispatches succeed every weight is opened. -/
lemma run_openAll_live (henv : ∀ n k, LiveFor n k env) (selection : Selection)
    (prices : Dict String PyFloat) (candleOpenMs : ℤ) {weights : List (String × PyFloat)}
    (hnodup : (weights.map Prod.fst).Nodup) {w : CrossState × Outbox}
    (hlease : w.1.runtime.leaseValid = true)
    (hfree : ∀ e ∈ weights, w.1.openPositions.contains e.1 = false) : ∃ s' o' opened,
      (x.openAll digest uuid4 env selection prices candleOpenMs weights).run w = (.ok (), (s', o')) ∧
      s'.openPositions.rows = w.1.openPositions.rows ++ opened ∧
      List.Forall₂ (OpenedAs prices) weights opened := by
  induction weights generalizing w with
  | nil => exact ⟨w.1, w.2, [], rfl, (List.append_nil _).symm, .nil⟩
  | cons e weights ih =>
    obtain ⟨symbol, weight⟩ := e
    rw [List.map_cons, List.nodup_cons] at hnodup
    obtain ⟨hnew, hrest⟩ := hnodup
    let pos := x.newPosition uuid4 prices candleOpenMs w.1 symbol weight
    let s : CrossState := { w.1 with
      openPositions := w.1.openPositions.set symbol pos, drawn := w.1.drawn + 1 }
    let c := x.openCall selection pos candleOpenMs (w.2.next env).now
    obtain ⟨reply, hemit⟩ := run_emit_live (w := (s, w.2)) (k := 0) digest (henv _ _) (c := c) fun _ => rfl
    have hafter : afterOpen symbol reply s = s := by
      have hs : s.runtime.leaseValid = true := hlease
      unfold afterOpen
      rw [if_pos hs]
      split <;> rfl
    have hfree' : ∀ e ∈ weights, s.openPositions.contains e.1 = false := by
      intro e he
      rw [Bool.eq_false_iff]
      intro hin
      rcases (Dict.contains_set _ _ _ _).mp hin with rfl | hin
      · exact hnew (List.mem_map.mpr ⟨e, he, rfl⟩)
      · rw [hfree e (List.mem_cons_of_mem _ he)] at hin
        cases hin
    obtain ⟨s', o', opened, hrun, hrows, hopened⟩ := ih hrest (w := (s, _)) hlease hfree'
    refine ⟨s', o', (symbol, pos) :: opened, ?_, ?_, .cons ⟨rfl, rfl, rfl, rfl, rfl⟩ hopened⟩
    · rw [openAll, Coro.run_bind_ok (run_getState w), Coro.run_bind_ok (run_modifyState _ w),
        Coro.run_bind_ok (run_getNow (s, w.2)), Coro.run_bind_ok hemit,
        Coro.run_bind_ok (run_modifyState _ _), hafter]
      exact hrun
    · have hset : s.openPositions.rows = w.1.openPositions.rows ++ [(symbol, pos)] :=
        Dict.rows_set_of_not_contains (hfree _ List.mem_cons_self) pos
      rw [hrows, hset, List.append_assoc, List.singleton_append]

variable (x digest uuid4) in
/-- The book after a rebalance: empty when nothing may be opened, and otherwise what the trim leaves. -/
lemma rebalance_opened (henv : ∀ n k, LiveFor n k env) (r : Rebalance) (w : CrossState × Outbox) :
    ((x.volTargetLeverage w.1 ≤ 0 ∨ w.1.runtime.canOpenNewTrades = false) ∧
        (x.rebalance digest uuid4 env r w).1.openPositions.rows = []) ∨
      (¬ (x.volTargetLeverage w.1 ≤ 0 ∨ w.1.runtime.canOpenNewTrades = false) ∧
        List.Forall₂ (OpenedAs r.prices)
          (balance (tradableWeights r.selection r.prices w.1.liveTradableSymbols))
          (x.rebalance digest uuid4 env r w).1.openPositions.rows) := by
  let s : CrossState := { w.1 with openPositions := adopted r w.1 }
  obtain ⟨o, hclose, -⟩ := run_closeAll x digest (w := (s, w.2)) s.openPositions.rows (henv _ _) r.prices
    r.cachedClose r.candleOpenMs
  let sized : CrossState := { s with
    openPositions := .empty
    pendingCost := turnover s.baseWeights r.selection.weights * .fin x.spec.feeBps / 10000
    strategyLeverage := x.volTargetLeverage w.1
    baseWeights := r.selection.weights }
  let rest : Method CrossState Unit :=
    if sized.strategyLeverage ≤ 0 ∨ sized.runtime.canOpenNewTrades = false then pure ()
    else x.openAll digest uuid4 env r.selection r.prices r.candleOpenMs
      (balance (tradableWeights r.selection r.prices sized.liveTradableSymbols))
  have hrun : x.rebalance digest uuid4 env r w = (rest.run (sized, o)).2 := by
    have hadopt : (modifyState fun s : CrossState => { s with
        openPositions := ((r.authoritative.map Table.rows).getD []).foldl adopt s.openPositions }).run w =
        (.ok (), (s, w.2)) := rfl
    unfold rebalance applySelection
    rw [Coro.run_bind_ok hadopt, Coro.run_bind_ok (run_getState (s, w.2)), Coro.run_bind_ok hclose,
      Coro.run_bind_ok (run_modifyState _ _), Coro.run_bind_ok (run_modifyState _ _),
      Coro.run_bind_ok (run_getState _)]
    rfl
  by_cases hflat : x.volTargetLeverage w.1 ≤ 0 ∨ w.1.runtime.canOpenNewTrades = false
  · refine .inl ⟨hflat, ?_⟩
    rw [hrun, show rest = pure () from if_pos hflat]
    rfl
  · refine .inr ⟨hflat, ?_⟩
    have hlease : sized.runtime.leaseValid = true := by
      have hcan := (not_or.mp hflat).2
      simp only [StrategyRuntimeState.canOpenNewTrades, Bool.not_eq_false, Bool.and_eq_true] at hcan
      exact hcan.1.1.1.2
    obtain ⟨s', o', opened, hopens, hrows, hopened⟩ := run_openAll_live x digest uuid4 henv r.selection
      r.prices r.candleOpenMs (w := (sized, o))
      (nodup_balance r.selection r.prices w.1.liveTradableSymbols) hlease fun _ _ => rfl
    have hall : (x.rebalance digest uuid4 env r w).1.openPositions.rows = opened := by
      rw [hrun, show rest = _ from if_neg hflat]
      exact (congrArg (fun v => v.2.1.openPositions.rows) hopens).trans hrows
    rw [hall]
    exact hopened

end Opened

/-! ## The pairing -/

section Pairing

/-- Every selected name is long or short, and as many are long as short. -/
structure Balanced (selection : Selection) : Prop where
  sided : ∀ e ∈ selection.weights.rows, 0 < e.2 ∨ e.2 < 0
  even : (longNames selection.weights.rows).length = (shortNames selection.weights.rows).length

/-- As many positions of the book are long as short, and each has a positive price of the price map, a
tradable symbol and the selected weight. -/
structure PairedBook (selection : Selection) (prices : Dict String PyFloat)
    (tradable : Option (List String)) (book : Dict String OpenPosition) : Prop where
  paired : (book.rows.filter fun e => e.2.side = "LONG").length =
    (book.rows.filter fun e => e.2.side = "SHORT").length
  priced : ∀ e ∈ book.rows, ∃ price, prices.get? e.2.symbol = some price ∧ e.2.entry = some price ∧
    0 < price
  listed : ∀ e ∈ book.rows, ∀ symbols, tradable = some symbols → e.2.symbol ∈ symbols
  unchanged : ∀ e ∈ book.rows, ∃ weight, selection.weights.get? e.2.symbol = some weight ∧
    e.2.weight = some weight

/-- The filter leaves names on both sides or on none, and of the names with a price of NaN only such as
are among the weakest that the trim takes. -/
structure PairsUp (selection : Selection) (prices : Dict String PyFloat)
    (tradable : Option (List String)) : Prop where
  sides : longNames (tradableWeights selection prices tradable) = [] ↔
    shortNames (tradableWeights selection prices tradable) = []
  unpriced : ∀ e ∈ tradableWeights selection prices tradable, prices.get? e.1 = some .nan →
    AmongWeakest selection
        (excess (longNames (tradableWeights selection prices tradable))
          (shortNames (tradableWeights selection prices tradable)))
        (longNames (tradableWeights selection prices tradable)) e.1 ∨
      AmongWeakest selection
        (excess (shortNames (tradableWeights selection prices tradable))
          (longNames (tradableWeights selection prices tradable)))
        (shortNames (tradableWeights selection prices tradable)) e.1

variable {selection : Selection} {prices : Dict String PyFloat} {tradable : Option (List String)}

lemma tradableWeights_sublist :
    (tradableWeights selection prices tradable).Sublist selection.weights.rows := List.filter_sublist

/-- The price of a name that the filter lets through is positive or not a number. -/
lemma price_of_tradable {e : String × PyFloat} (he : e ∈ tradableWeights selection prices tradable) :
    ∃ price, prices.get? e.1 = some price ∧ (0 < price ↔ price ≠ .nan) := by
  obtain ⟨-, hpass⟩ := List.mem_filter.mp he
  rw [Bool.and_eq_true] at hpass
  have hprice := hpass.1
  cases hget : prices.get? e.1 with
  | none =>
    rw [hget] at hprice
    cases hprice
  | some price =>
    rw [hget] at hprice
    simp only [Bool.and_eq_true, Bool.not_eq_true', decide_eq_false_iff_not] at hprice
    refine ⟨price, rfl, fun h => ne_nan_of_pos h, fun hnan => ?_⟩
    by_contra hpos
    exact hprice.2 (PyFloat.le_of_not_lt (by decide) hnan hpos)

lemma listed_of_tradable {e : String × PyFloat} (he : e ∈ tradableWeights selection prices tradable)
    {symbols : List String} (htradable : tradable = some symbols) : e.1 ∈ symbols := by
  obtain ⟨-, hpass⟩ := List.mem_filter.mp he
  rw [Bool.and_eq_true, htradable] at hpass
  exact of_decide_eq_true hpass.2

lemma mem_balance_iff {weights : List (String × PyFloat)}
    (hw : weights.Sublist selection.weights.rows) {e : String × PyFloat} :
    e ∈ balance weights ↔ e ∈ weights ∧
      ¬ (AmongWeakest selection (excess (longNames weights) (shortNames weights)) (longNames weights) e.1 ∨
        AmongWeakest selection (excess (shortNames weights) (longNames weights)) (shortNames weights)
          e.1) := by
  rw [balance_eq hw, trimmed, List.mem_filter, decide_eq_true_iff,
    mem_weakestNames_sorted (nodup_longNames hw), mem_weakestNames_sorted (nodup_shortNames hw), not_or]

lemma length_filter_forall₂ {α β : Type} {R : α → β → Prop} {l : List α} {l' : List β}
    (h : List.Forall₂ R l l') {p : α → Bool} {q : β → Bool} (hpq : ∀ a ∈ l, ∀ b, R a b → q b = p a) :
    (l'.filter q).length = (l.filter p).length := by
  induction h with
  | nil => rfl
  | @cons a b l l' hab _ ih =>
    have hrest := ih fun c hc => hpq c (List.mem_cons_of_mem _ hc)
    rw [List.filter_cons, List.filter_cons, hpq a List.mem_cons_self b hab]
    split
    · rw [List.length_cons, List.length_cons, hrest]
    · exact hrest

lemma length_sided {weights : List (String × PyFloat)} {rows : List (String × OpenPosition)}
    (h : List.Forall₂ (OpenedAs prices) weights rows) (hsided : ∀ e ∈ weights, 0 < e.2 ∨ e.2 < 0) :
    (rows.filter fun e => e.2.side = "LONG").length = (longNames weights).length ∧
      (rows.filter fun e => e.2.side = "SHORT").length = (shortNames weights).length := by
  unfold longNames shortNames
  rw [List.length_map, List.length_map]
  constructor
  · refine length_filter_forall₂ h fun e _ row hrow => ?_
    rw [decide_eq_decide, hrow.side]
    split
    · rename_i hpos
      exact iff_of_true rfl hpos
    · rename_i hpos
      exact iff_of_false (by decide) hpos
  · refine length_filter_forall₂ h fun e he row hrow => ?_
    rw [decide_eq_decide, hrow.side]
    split
    · rename_i hpos
      exact iff_of_false (by decide) (not_lt_of_pos hpos)
    · rename_i hpos
      exact iff_of_true rfl ((hsided e he).resolve_left hpos)

lemma exists_of_forall₂ {α β : Type} {R : α → β → Prop} {l : List α} {l' : List β}
    (h : List.Forall₂ R l l') : (∀ a ∈ l, ∃ b ∈ l', R a b) ∧ ∀ b ∈ l', ∃ a ∈ l, R a b := by
  induction h with
  | nil => exact ⟨fun a ha => absurd ha List.not_mem_nil, fun b hb => absurd hb List.not_mem_nil⟩
  | @cons a b l l' hab _ ih =>
    refine ⟨fun c hc => ?_, fun c hc => ?_⟩
    · rcases List.mem_cons.mp hc with rfl | hc
      · exact ⟨b, List.mem_cons_self, hab⟩
      · obtain ⟨d, hd, hcd⟩ := ih.1 c hc
        exact ⟨d, List.mem_cons_of_mem _ hd, hcd⟩
    · rcases List.mem_cons.mp hc with rfl | hc
      · exact ⟨a, List.mem_cons_self, hab⟩
      · obtain ⟨d, hd, hdc⟩ := ih.2 c hc
        exact ⟨d, List.mem_cons_of_mem _ hd, hdc⟩

/-- The opened weights are a paired book exactly if what the filter leaves pairs up. -/
lemma pairedBook_iff (hsided : ∀ e ∈ selection.weights.rows, 0 < e.2 ∨ e.2 < 0)
    {book : Dict String OpenPosition}
    (h : List.Forall₂ (OpenedAs prices) (balance (tradableWeights selection prices tradable)) book.rows) :
    PairedBook selection prices tradable book ↔ PairsUp selection prices tradable := by
  have hw : (tradableWeights selection prices tradable).Sublist selection.weights.rows :=
    tradableWeights_sublist
  obtain ⟨hopened, horigin⟩ := exists_of_forall₂ h
  have hleft : ∀ e ∈ balance (tradableWeights selection prices tradable),
      e ∈ tradableWeights selection prices tradable := fun e he => ((mem_balance_iff hw).mp he).1
  obtain ⟨hlong, hshort⟩ := length_sided h fun e he => hsided e (hw.subset (hleft e he))
  constructor
  · intro hbook
    refine ⟨(balance_paired_iff hw).mp ?_, fun e he hnan => ?_⟩
    · rw [← hlong, ← hshort]
      exact hbook.paired
    · by_contra hkept
      obtain ⟨row, hrow, hopen⟩ := hopened e ((mem_balance_iff hw).mpr ⟨he, hkept⟩)
      obtain ⟨price, hget, -, hpos⟩ := hbook.priced row hrow
      rw [hopen.symbol, hnan, Option.some_inj] at hget
      exact ne_nan_of_pos hpos hget.symm
  · intro hpairs
    refine ⟨?_, fun row hrow => ?_, fun row hrow symbols htradable => ?_, fun row hrow => ?_⟩
    · rw [hlong, hshort]
      exact (balance_paired_iff hw).mpr hpairs.sides
    · obtain ⟨e, he, hopen⟩ := horigin row hrow
      obtain ⟨hmem, hkept⟩ := (mem_balance_iff hw).mp he
      obtain ⟨price, hget, hpositive⟩ := price_of_tradable hmem
      refine ⟨price, by rw [hopen.symbol, hget], by rw [hopen.price, hget]; rfl, hpositive.mpr ?_⟩
      rintro rfl
      exact hkept (hpairs.unpriced e hmem hget)
    · obtain ⟨e, he, hopen⟩ := horigin row hrow
      rw [hopen.symbol]
      exact listed_of_tradable (hleft e he) htradable
    · obtain ⟨e, he, hopen⟩ := horigin row hrow
      refine ⟨e.2, ?_, hopen.unchanged⟩
      rw [hopen.symbol]
      exact get?_of_mem hw (hleft e he)

/-- A rebalance with a balanced selection leaves a paired book exactly if it may not open anything, or
what the filter leaves pairs up. -/
theorem rebalance_paired_iff (x : CrossSectional) (digest : Logical → String) (uuid4 : ℕ → String)
    {env : ℕ → DispatchEnv} (henv : ∀ n k, LiveFor n k env) (r : Rebalance) (w : CrossState × Outbox)
    (hbalanced : Balanced r.selection) :
    PairedBook r.selection r.prices w.1.liveTradableSymbols
        (x.rebalance digest uuid4 env r w).1.openPositions ↔
      (x.volTargetLeverage w.1 ≤ 0 ∨ w.1.runtime.canOpenNewTrades = false) ∨
        PairsUp r.selection r.prices w.1.liveTradableSymbols := by
  rcases rebalance_opened x digest uuid4 henv r w with ⟨hflat, hempty⟩ | ⟨hopen, hopened⟩
  · refine iff_of_true ?_ (.inl hflat)
    constructor <;> rw [hempty]
    · rfl
    all_goals exact fun e he => absurd he List.not_mem_nil
  · rw [pairedBook_iff hbalanced.sided hopened, or_iff_right hopen]

/-- One name on each side. -/
def twoNames : Selection where
  weights := ⟨[("BTC", .fin (1 / 2)), ("ETH", .fin (-1 / 2))], by decide⟩

lemma balanced_twoNames : Balanced twoNames := ⟨by decide +kernel, by decide +kernel⟩

/-- A rebalance into the two names. -/
def intoTwoNames (prices : Dict String PyFloat) : Rebalance where
  selection := twoNames
  prices := prices
  candleOpenMs := 86400000
  authoritative := none
  cachedClose _ := none

def bothPriced : Dict String PyFloat := ⟨[("BTC", .fin 100), ("ETH", .fin 10)], by decide⟩

def onePriced : Dict String PyFloat := ⟨[("BTC", .fin 100)], by decide⟩

/-- A strategy that may open. -/
def readyState : CrossState where
  runtime := { ready := true }

theorem rebalance_pairs_twoNames : PairedBook twoNames bothPriced none
    (daily.rebalance digestOf (fun _ => "p") liveEnv (intoTwoNames bothPriced)
      (readyState, { dispatcher := {} })).1.openPositions := by
  have hno : ∀ e ∈ tradableWeights twoNames bothPriced none, bothPriced.get? e.1 ≠ some .nan := by
    decide +kernel
  refine (rebalance_paired_iff daily digestOf (fun _ => "p") (fun _ _ _ _ _ => ⟨rfl, rfl⟩)
    (intoTwoNames bothPriced) (readyState, { dispatcher := {} }) balanced_twoNames).mpr (.inr ⟨?_, ?_⟩)
  · decide +kernel
  · exact fun e he hnan => absurd hnan (hno e he)

/-- Without a price for one side the other side is opened alone. -/
theorem onePriced_unpaired : Balanced twoNames ∧ ¬ PairedBook twoNames onePriced none
    (daily.rebalance digestOf (fun _ => "p") liveEnv (intoTwoNames onePriced)
      (readyState, { dispatcher := {} })).1.openPositions := by
  refine ⟨balanced_twoNames, fun h => ?_⟩
  have hpaired := h.paired
  revert hpaired
  decide +kernel

end Pairing

end CrossSectional

end PaperTrade.Runner
