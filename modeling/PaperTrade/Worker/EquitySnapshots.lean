import PaperTrade.Worker.Accounts
import PaperTrade.Worker.Rows

/-!
# Equity snapshots

`EquitySnapshotCollector.snapshot_once`: every alpha's balance is its capital, the PnL of its trades and
the mark of its open positions; a shadow sleeve's is the published one moved by the mark of its virtual
positions. A close at the mark price takes from the mark what it books as a trade, so the balance of
the alpha stays (`snapshot_after_close`).

The prices, the capitals and the published shadow PnL are inputs. The mark prices that a snapshot
writes for the next start are left out.
-/

namespace PaperTrade.Worker

open PaperTrade.Runtime

/-! ## Marks -/

/-- What a mark reads of a position. -/
structure MarkRow where
  symbol : String
  side : String
  entryPrice : Option PyFloat
  qty : Option PyFloat
  feePct : Option PyFloat

def PositionRow.toMark (p : PositionRow) : MarkRow :=
  ⟨p.symbol, p.side, p.entryPrice, p.qty, p.feePct⟩

/-- `virtual_positions` has no fee. -/
def VirtualPositionRow.toMark (p : VirtualPositionRow) : MarkRow :=
  ⟨p.symbol, p.side, p.entryPrice, p.qty, none⟩

/-- `_has_finite_qty_entry`. -/
def hasFiniteQtyEntry (position : MarkRow) : Bool :=
  position.qty.any PyFloat.isFinite && position.entryPrice.any PyFloat.isFinite

/-- `EquitySnapshotCollector._compute_position_pnl`. -/
def computePositionPnl (position : MarkRow) (currentPrice : PyFloat) : PyFloat :=
  if !hasFiniteQtyEntry position then 0
  else
    let entry := position.entryPrice.getD 0
    let qty := position.qty.getD 0
    let gross := (currentPrice - entry) * qty * direction position.side
    let fee := (entry + currentPrice) * qty * position.feePct.getD 0
    gross - fee

/-! ## Sums of trades -/

/-- `SUM(v)`: a NULL is passed over, and a sum of none is NULL, as a NaN is. -/
def sqlSum (values : List (Option PyFloat)) : Option PyFloat :=
  match values.filterMap id with
  | [] => none
  | x :: xs => real (xs.foldl (· + ·) x)

/-- The row of the alpha in `SELECT alpha_id, COALESCE(SUM(pnl), 0) … GROUP BY alpha_id`. -/
def realizedPnl (trades : List TradeRow) (alphaId : String) : Option PyFloat :=
  let own := trades.filter fun t => t.alphaId = alphaId
  if own = [] then none else some ((sqlSum (own.map TradeRow.pnl)).getD 0)

/-! ## A snapshot -/

/-- The published PnL of a shadow sleeve. -/
structure ShadowPnl where
  balance : PyFloat
  capital : PyFloat
  prices : Dict String PyFloat

/-- What a snapshot takes from outside. -/
structure SnapshotEnv where
  timestamp : String
  /-- `_get_price` -/
  price : String → Option PyFloat
  capitals : Dict String PyFloat
  shadow : Dict String ShadowPnl

/-- A row of `equity_snapshots`. -/
structure EquityRow where
  timestamp : String
  alphaId : String
  balance : PyFloat
  unrealizedPnl : Option PyFloat
  realizedPnl : Option PyFloat

/-- The rows of a snapshot. -/
structure Snapshot where
  alphas : List EquityRow
  sleeves : List EquityRow
  total : EquityRow

/-- `TOTAL_KEY`. -/
def totalKey : String := "__TOTAL__"

namespace SnapshotEnv

/-! The order in which a snapshot writes the alphas is that of the strings. -/

lemma trans_ids : IsTrans String fun a b => a ≤ b := inferInstance

lemma antisymm_ids : Std.Antisymm fun a b : String => a ≤ b := inferInstance

lemma total_ids : Std.Total fun a b : String => a ≤ b := inferInstance

attribute [local instance] trans_ids antisymm_ids total_ids

variable (env : SnapshotEnv)

/-- One pass of the loop over the open positions. -/
def addMark (unrealized : Dict String PyFloat) (pos : PositionRow) : Dict String PyFloat :=
  if !hasFiniteQtyEntry pos.toMark then unrealized
  else match env.price pos.symbol with
    | none => unrealized
    | some price => unrealized.set pos.alphaId
        ((unrealized.get? pos.alphaId).getD 0 + computePositionPnl pos.toMark price)

/-- `unrealized_by_alpha`; `get_all_open_positions` lists the latest position first. -/
def unrealizedByAlpha (positions : List PositionRow) : Dict String PyFloat :=
  (positions.mergeSort fun p p' => p'.openedAt ≤ p.openedAt).foldl env.addMark .empty

/-- The alphas of a snapshot. -/
def alphaIds (t : Tables) : Finset String :=
  ((t.alphas.rows.map AlphaRow.alphaId).toFinset ∪ (t.trades.rows.map TradeRow.alphaId).toFinset ∪
    (env.unrealizedByAlpha t.positions.rows).keys.toFinset).filter fun a => !env.shadow.contains a

/-- `INSERT INTO equity_snapshots`. -/
def insertEquity (alphaId : String) (balance unrealized realized : PyFloat) :
    Except PyError EquityRow :=
  match real balance with
  | none => .error (.notNullFailed "equity_snapshots.balance")
  | some balance => .ok ⟨env.timestamp, alphaId, balance, real unrealized, real realized⟩

/-- The figures of an alpha. -/
structure Figures where
  balance : PyFloat
  unrealized : PyFloat
  realized : PyFloat

/-- The body of the loop over the alphas. -/
def figures (t : Tables) (alphaId : String) : Figures :=
  let cap := (env.capitals.get? alphaId).getD (.fin 10000)
  let realized := (realizedPnl t.trades.rows alphaId).getD 0
  let unrealized := ((env.unrealizedByAlpha t.positions.rows).get? alphaId).getD 0
  ⟨cap + realized + unrealized, unrealized, realized⟩

/-- The PnL of a virtual position from its anchor price to the live one. -/
def shadowDelta (anchors : Dict String PyFloat) (position : MarkRow) : PyFloat :=
  if !hasFiniteQtyEntry position then 0
  else match anchors.get? position.symbol, env.price position.symbol with
    | some anchor, some live => computePositionPnl position live - computePositionPnl position anchor
    | _, _ => 0

/-- `_mark_shadow_balance`. -/
def markShadowBalance (values : ShadowPnl) (positions : List MarkRow) : PyFloat :=
  if positions = [] then values.balance
  else values.balance + (positions.map (env.shadowDelta values.prices)).foldl (· + ·) 0

/-- The row of a shadow sleeve. -/
def sleeveRow (t : Tables) (sleeve : String × ShadowPnl) : Except PyError EquityRow :=
  let own := (t.virtualPositions.rows.mergeSort fun p p' => p'.openedAt ≤ p.openedAt).filter
    fun p => p.alphaId = sleeve.1
  let balance := env.markShadowBalance sleeve.2 (own.map VirtualPositionRow.toMark)
  let realized := (realizedPnl t.virtualTrades.rows sleeve.1).getD 0
  env.insertEquity sleeve.1 balance (balance - sleeve.2.capital - realized) realized

/-- `snapshot_once`. -/
def snapshotOnce (t : Tables) : Except PyError Snapshot := do
  let ids := (env.alphaIds t).sort
  let figures := ids.map (env.figures t)
  let alphas ← ids.mapM fun a =>
    let f := env.figures t a
    env.insertEquity a f.balance f.unrealized f.realized
  let sleeves ← (env.shadow.rows.mergeSort fun e e' => e.1 ≤ e'.1).mapM (env.sleeveRow t)
  let total ← env.insertEquity totalKey ((figures.map Figures.balance).foldl (· + ·) 0)
    ((figures.map Figures.unrealized).foldl (· + ·) 0)
    ((figures.map Figures.realized).foldl (· + ·) 0)
  pure ⟨alphas, sleeves, total⟩

end SnapshotEnv

/-! ## Finite rows -/

/-- A position row with numbers; no fee counts as none. -/
def MarkablePosition (p : PositionRow) : Prop :=
  ∃ entry qty fee, p.entryPrice = some (.fin entry) ∧ p.qty = some (.fin qty) ∧
    p.feePct.getD 0 = .fin fee

/-- A trade whose PnL is a number or NULL. -/
def FinitePnl (t : TradeRow) : Prop := ∀ x, t.pnl = some x → ∃ q, x = .fin q

lemma hasFinite_of_finite {p : PositionRow} (h : MarkablePosition p) :
    hasFiniteQtyEntry p.toMark = true := by
  obtain ⟨entry, qty, fee, hentry, hqty, -⟩ := h
  simp [hasFiniteQtyEntry, PositionRow.toMark, hentry, hqty]

/-- The mark of a position is the PnL that a close at the price would book. -/
lemma computePositionPnl_eq {p : PositionRow} {entry qty fee : ℚ}
    (hentry : p.entryPrice = some (.fin entry)) (hqty : p.qty = some (.fin qty))
    (hfee : p.feePct.getD 0 = .fin fee) (price : ℚ) :
    computePositionPnl p.toMark (.fin price) = .fin (pnlOf p.side entry price fee qty) := by
  have hfinite := hasFinite_of_finite ⟨entry, qty, fee, hentry, hqty, hfee⟩
  unfold computePositionPnl
  rw [hfinite]
  simp only [Bool.not_true, Bool.false_eq_true, if_false, PositionRow.toMark, hentry, hqty, hfee,
    Option.getD_some, direction_eq, PyFloat.sub_fin, PyFloat.add_fin, PyFloat.mul_fin, pnlOf, feeOf]

lemma add_zero_fin (x : PyFloat) : x + .fin 0 = x := by
  cases x with
  | nan => rfl
  | inf _ => rfl
  | fin q => rw [PyFloat.add_fin, add_zero]

lemma add_fin_add_fin (x : PyFloat) (p q : ℚ) : x + .fin p + .fin q = x + .fin (p + q) := by
  cases x with
  | nan => rfl
  | inf _ => rfl
  | fin r => rw [PyFloat.add_fin, PyFloat.add_fin, PyFloat.add_fin, add_assoc]

/-- A sum of numbers. -/
lemma foldl_add_fin {xs : List PyFloat} (h : ∀ x ∈ xs, ∃ q, x = .fin q) (p : ℚ) :
    xs.foldl (· + ·) (.fin p) = .fin (p + (xs.map fun x => amount (some x)).sum) := by
  induction xs generalizing p with
  | nil => simp
  | cons x xs ih =>
    obtain ⟨⟨q, rfl⟩, hxs⟩ := List.forall_mem_cons.mp h
    rw [List.foldl_cons, PyFloat.add_fin, ih hxs, List.map_cons, List.sum_cons, add_assoc]
    rfl

/-- `COALESCE(SUM(v), 0)` over numbers and NULLs. -/
lemma sqlSum_fin {values : List (Option PyFloat)} (h : ∀ v ∈ values, ∀ x, v = some x → ∃ q, x = .fin q) :
    (sqlSum values).getD 0 = .fin (values.map amount).sum := by
  have hsum : ((values.filterMap id).map fun x => amount (some x)).sum = (values.map amount).sum := by
    clear h
    induction values with
    | nil => rfl
    | cons v values ih =>
      cases v with
      | none =>
        rw [List.filterMap_cons_none rfl, List.map_cons, List.sum_cons, ih]
        exact (zero_add _).symm
      | some x =>
        have hid : id (some x) = some x := rfl
        rw [List.filterMap_cons_some hid, List.map_cons, List.map_cons, List.sum_cons, List.sum_cons,
          ih]
  have hfin : ∀ x ∈ values.filterMap id, ∃ q, x = .fin q := by
    intro x hx
    obtain ⟨v, hv, hid⟩ := List.mem_filterMap.mp hx
    exact h v hv x hid
  unfold sqlSum
  rw [← hsum]
  cases hvalues : values.filterMap id with
  | nil => rfl
  | cons x xs =>
    rw [hvalues] at hfin
    obtain ⟨⟨q, rfl⟩, hxs⟩ := List.forall_mem_cons.mp hfin
    dsimp only
    rw [foldl_add_fin hxs, real_fin, Option.getD_some, List.map_cons, List.sum_cons]
    rfl

/-- The PnL of the trades of an alpha. -/
lemma realizedPnl_fin {trades : List TradeRow} (h : ∀ t ∈ trades, FinitePnl t) (alphaId : String) :
    (realizedPnl trades alphaId).getD 0 =
      .fin (total TradeRow.pnl (trades.filter fun t => t.alphaId = alphaId)) := by
  unfold realizedPnl
  dsimp only
  split
  · rename_i hnone
    rw [hnone]
    rfl
  · rw [Option.getD_some, sqlSum_fin]
    · rw [List.map_map]
      rfl
    · intro v hv x hx
      obtain ⟨t, ht, rfl⟩ := List.mem_map.mp hv
      exact h t (List.mem_of_mem_filter ht) x hx

namespace SnapshotEnv

variable (env : SnapshotEnv)

/-- The mark of a position, as a part of the alpha's. -/
def markFor (alphaId : String) (p : PositionRow) : ℚ :=
  if p.alphaId = alphaId then
    amount ((env.price p.symbol).map fun price => computePositionPnl p.toMark price)
  else 0

/-- The positions of the alpha that have a price. -/
def Marks (alphaId : String) (p : PositionRow) : Prop :=
  p.alphaId = alphaId ∧ (env.price p.symbol).isSome = true

variable {env}

lemma get?_addMark (hprices : ∀ symbol x, env.price symbol = some x → ∃ q, x = .fin q)
    {p : PositionRow} (hp : MarkablePosition p) (d : Dict String PyFloat) (alphaId : String) :
    ((env.addMark d p).get? alphaId).getD 0 =
      (d.get? alphaId).getD 0 + .fin (env.markFor alphaId p) := by
  unfold addMark markFor
  rw [hasFinite_of_finite hp]
  simp only [Bool.not_true, Bool.false_eq_true, if_false]
  cases hprice : env.price p.symbol with
  | none => simp [amount, add_zero_fin]
  | some price =>
    obtain ⟨q, rfl⟩ := hprices _ _ hprice
    obtain ⟨entry, qty, fee, hentry, hqty, hfee⟩ := hp
    simp only [computePositionPnl_eq hentry hqty hfee, Dict.get?_set, Option.map_some, amount]
    by_cases h : alphaId = p.alphaId
    · rw [if_pos h, if_pos h.symm, h]
      rfl
    · rw [if_neg h, if_neg (Ne.symm h), add_zero_fin]

lemma contains_addMark {p : PositionRow} (hp : MarkablePosition p) (d : Dict String PyFloat)
    (alphaId : String) : (env.addMark d p).contains alphaId = true ↔
      d.contains alphaId = true ∨ env.Marks alphaId p := by
  unfold addMark Marks
  rw [hasFinite_of_finite hp]
  simp only [Bool.not_true, Bool.false_eq_true, if_false]
  cases hprice : env.price p.symbol with
  | none => simp
  | some price =>
    rw [Dict.contains_set, or_comm, eq_comm (a := alphaId)]
    simp only [Option.isSome_some, and_true]

lemma get?_foldl_addMark (hprices : ∀ symbol x, env.price symbol = some x → ∃ q, x = .fin q)
    {rows : List PositionRow} (hrows : ∀ p ∈ rows, MarkablePosition p) (d : Dict String PyFloat)
    (alphaId : String) : ((rows.foldl env.addMark d).get? alphaId).getD 0 =
      (d.get? alphaId).getD 0 + .fin ((rows.map (env.markFor alphaId)).sum) := by
  induction rows generalizing d with
  | nil => exact (add_zero_fin _).symm
  | cons p rows ih =>
    obtain ⟨hp, hrest⟩ := List.forall_mem_cons.mp hrows
    rw [List.foldl_cons, ih hrest, get?_addMark hprices hp, add_fin_add_fin, List.map_cons,
      List.sum_cons]

lemma contains_foldl_addMark {rows : List PositionRow} (hrows : ∀ p ∈ rows, MarkablePosition p)
    (d : Dict String PyFloat) (alphaId : String) :
    (rows.foldl env.addMark d).contains alphaId = true ↔
      d.contains alphaId = true ∨ ∃ p ∈ rows, env.Marks alphaId p := by
  induction rows generalizing d with
  | nil => simp
  | cons p rows ih =>
    obtain ⟨hp, hrest⟩ := List.forall_mem_cons.mp hrows
    rw [List.foldl_cons, ih hrest, contains_addMark hp, or_assoc]
    simp

/-- The mark of an alpha is the sum of those of its positions, in any order. -/
lemma unrealized_eq (hprices : ∀ symbol x, env.price symbol = some x → ∃ q, x = .fin q)
    {rows : List PositionRow} (hrows : ∀ p ∈ rows, MarkablePosition p) (alphaId : String) :
    ((env.unrealizedByAlpha rows).get? alphaId).getD 0 =
      .fin ((rows.map (env.markFor alphaId)).sum) := by
  have hperm := List.mergeSort_perm rows fun p p' => decide (p'.openedAt ≤ p.openedAt)
  unfold unrealizedByAlpha
  rw [get?_foldl_addMark hprices fun p hp => hrows p (hperm.mem_iff.mp hp),
    (hperm.map (env.markFor alphaId)).sum_eq]
  simp [Dict.get?, Table.find?, Table.empty]

lemma mem_unrealized {rows : List PositionRow} (hrows : ∀ p ∈ rows, MarkablePosition p)
    (alphaId : String) :
    alphaId ∈ (env.unrealizedByAlpha rows).keys ↔ ∃ p ∈ rows, env.Marks alphaId p := by
  have hperm := List.mergeSort_perm rows fun p p' => decide (p'.openedAt ≤ p.openedAt)
  have hkeys : ∀ d : Dict String PyFloat, alphaId ∈ d.keys ↔ d.contains alphaId = true := by
    intro d
    rw [Table.contains_iff, Dict.keys, List.mem_map]
  rw [hkeys]
  unfold unrealizedByAlpha
  rw [contains_foldl_addMark fun p hp => hrows p (hperm.mem_iff.mp hp)]
  simp [Table.contains, Table.empty, hperm.mem_iff]

end SnapshotEnv

/-! ## A close at the mark price -/

/-- The PnL of a quantity is the sum of those of its parts. -/
lemma pnlOf_sub (side : String) (entry exit feePct o c : ℚ) :
    pnlOf side entry exit feePct (o - c) =
      pnlOf side entry exit feePct o - pnlOf side entry exit feePct c := by
  unfold pnlOf feeOf
  ring

/-- An amount goes from the mark of an alpha into its trades. -/
structure MovesPnl (env : SnapshotEnv) (s s' : Tables) (alphaId : String) (moved : ℚ) : Prop where
  alphas : s'.alphas = s.alphas
  virtualPositions : s'.virtualPositions = s.virtualPositions
  virtualTrades : s'.virtualTrades = s.virtualTrades
  trades : ∃ t, s'.trades.rows = s.trades.rows ++ [t] ∧ t.alphaId = alphaId ∧
    t.pnl = some (.fin moved)
  finite : ∀ p ∈ s'.positions.rows, MarkablePosition p
  marks : ∀ a, (s'.positions.rows.map (env.markFor a)).sum =
    (s.positions.rows.map (env.markFor a)).sum - if a = alphaId then moved else 0
  marked : ∃ p ∈ s.positions.rows, env.Marks alphaId p
  others : ∀ a, a ≠ alphaId → ((∃ p ∈ s'.positions.rows, env.Marks a p) ↔
    ∃ p ∈ s.positions.rows, env.Marks a p)

section Close

variable {env : SnapshotEnv} {s s' : Tables} {pos : PositionRow} {m c : ℚ} {a : CloseArgs}

/-- A close at the mark price that leaves no dust behind moves the mark of what it closes. -/
lemma moves_of_close (hrows : ∀ p ∈ s.positions.rows, MarkablePosition p)
    (hpos : pos ∈ s.positions.rows) (hid : a.positionId = pos.positionId)
    (hmark : env.price pos.symbol = some (.fin m)) (hexit : a.exitPrice = some (.fin m))
    (hqty : closeQuantity pos a.qty = .ok (.fin c)) (hpositive : 0 < c)
    (hdust : ∀ o, pos.qty = some (.fin o) → o = c ∨ dustQty < o - c)
    (h : ClosePosition s a (.ok ()) s') {entry o fee : ℚ}
    (hentry : pos.entryPrice = some (.fin entry)) (ho : pos.qty = some (.fin o))
    (hfee : pos.feePct.getD 0 = .fin fee) :
    MovesPnl env s s' pos.alphaId (pnlOf pos.side entry m fee c) := by
  have hfound : s.positions.find? a.positionId = some pos :=
    (Table.find?_some_iff _ _ _).mpr ⟨hpos, hid.symm⟩
  have hmarkFor : ∀ (p : PositionRow) (q : ℚ), p.alphaId = pos.alphaId → p.symbol = pos.symbol →
      p.side = pos.side → p.entryPrice = some (.fin entry) → p.feePct.getD 0 = .fin fee →
      p.qty = some (.fin q) → ∀ alpha, env.markFor alpha p =
        if alpha = pos.alphaId then pnlOf pos.side entry m fee q else 0 := by
    intro p q halpha hsymbol hside hentry' hfee' hq alpha
    unfold SnapshotEnv.markFor
    rw [halpha, hsymbol, hmark, Option.map_some, computePositionPnl_eq hentry' hq hfee', hside]
    by_cases heq : alpha = pos.alphaId
    · rw [if_pos heq, if_pos heq.symm]
      rfl
    · rw [if_neg heq, if_neg (Ne.symm heq)]
  have hmarks : env.Marks pos.alphaId pos := ⟨rfl, by rw [hmark]; rfl⟩
  have hperm := s.positions.perm_cons_erase hpos
  have hleft : ∀ p ∈ (s.positions.erase pos.positionId).rows, p ∈ s.positions.rows :=
    fun p hp => ((Table.mem_erase _ _ _).mp hp).1
  have hother : ∀ {p : PositionRow} {alpha : String}, p ∈ s.positions.rows → env.Marks alpha p →
      alpha ≠ pos.alphaId → p ∈ (s.positions.erase pos.positionId).rows := by
    intro p alpha hp hm hne
    refine (Table.mem_erase _ _ _).mpr ⟨hp, fun hkey => hne ?_⟩
    rw [← hm.1, s.positions.eq_of_key_eq hp hpos hkey]
  -- the trade of a settled close
  have htrade : ∀ {pos' : PositionRow} {q o' : PyFloat} {trade : TradeRow},
      Settles s a pos' q o' trade → pos = pos' ∧ .fin c = q ∧ .fin o = o' ∧
        trade.alphaId = pos.alphaId ∧ trade.pnl = some (.fin (pnlOf pos.side entry m fee c)) := by
    intro pos' q o' trade hset
    have hsame := hset.found
    rw [hfound] at hsame
    cases hsame
    have hq := hset.quantity
    rw [hqty] at hq
    cases hq
    have ho' := hset.openQty
    rw [ho] at ho'
    cases ho'
    obtain ⟨hbooks, -, x, hx, hprice⟩ := closingTrade_books hentry hfee hset.row
    rw [hexit] at hx
    cases hx
    exact ⟨rfl, rfl, rfl, closingTrade_alphaId hset.row, hbooks.pnl m hprice⟩
  cases h with
  | missing hf =>
    rw [hfound] at hf
    cases hf
  | nothing hf hq hle =>
    rw [hfound] at hf
    cases hf
    rw [hqty] at hq
    cases hq
    exact absurd ((PyFloat.fin_le_fin _ _).mp hle) (not_le.mpr hpositive)
  | full hset hle hnew htrades =>
    obtain ⟨rfl, rfl, rfl, halpha, hpnl⟩ := htrade hset
    have hall : o = c := by
      rcases hdust o ho with hall | hmore
      · exact hall
      · rw [PyFloat.sub_fin, PyFloat.zero_eq, PyFloat.max_fin, dust, PyFloat.fin_le_fin] at hle
        have hrest := (le_max_left (o - c) 0).trans hle
        unfold dustQty at hmore
        linarith
    subst hall
    rw [hid]
    refine ⟨rfl, rfl, rfl, ⟨_, htrades, halpha, hpnl⟩, fun p hp => hrows p (hleft p hp), ?_,
      ⟨_, hpos, hmarks⟩, ?_⟩
    · intro alpha
      rw [(hperm.map (env.markFor alpha)).sum_eq, List.map_cons, List.sum_cons,
        hmarkFor _ o rfl rfl rfl hentry hfee ho alpha]
      ring
    · intro alpha hne
      constructor
      · rintro ⟨p, hp, hm⟩
        exact ⟨p, hleft p hp, hm⟩
      · rintro ⟨p, hp, hm⟩
        exact ⟨p, hother hp hm hne, hm⟩
  | @partly _ _ _ _ merged hset hmore trades hnew htrades hmerge =>
    obtain ⟨rfl, rfl, rfl, halpha, hpnl⟩ := htrade hset
    have hopen : dustQty < o - c := by
      rcases hdust o ho with rfl | hmore'
      · refine absurd ?_ hmore
        rw [PyFloat.sub_fin, sub_self, PyFloat.zero_eq, PyFloat.max_fin, dust, PyFloat.fin_le_fin]
        norm_num
      · exact hmore'
    have hpositive' : (0 : ℚ) ≤ o - c := by
      have hzero : (0 : ℚ) < dustQty := by norm_num [dustQty]
      linarith
    have hrest : (PyFloat.fin o - .fin c).max 0 = .fin (o - c) := by
      rw [PyFloat.sub_fin, PyFloat.zero_eq, PyFloat.max_fin, max_eq_left hpositive']
    rw [hid, hrest]
    have hreduced := s.positions.perm_modify (·.reduced (.fin (o - c)) merged)
      (PositionRow.positionId_reduced _ merged) hpos
    have hnewrow : MarkablePosition (pos.reduced (.fin (o - c)) merged) :=
      ⟨entry, o - c, fee, hentry, rfl, hfee⟩
    refine ⟨rfl, rfl, rfl, ⟨_, htrades, halpha, hpnl⟩, fun p hp => ?_, ?_, ⟨_, hpos, hmarks⟩, ?_⟩
    · rcases List.mem_cons.mp (hreduced.mem_iff.mp hp) with rfl | hp
      · exact hnewrow
      · exact hrows p (hleft p hp)
    · intro alpha
      have hsum := (hreduced.map (env.markFor alpha)).sum_eq
      refine hsum.trans ?_
      rw [(hperm.map (env.markFor alpha)).sum_eq, List.map_cons, List.sum_cons, List.map_cons,
        List.sum_cons, hmarkFor _ o rfl rfl rfl hentry hfee ho alpha,
        hmarkFor (pos.reduced (.fin (o - c)) merged) (o - c) rfl rfl rfl hentry hfee rfl alpha,
        pnlOf_sub]
      split <;> ring
    · intro alpha hne
      constructor
      · rintro ⟨p, hp, hm⟩
        rcases List.mem_cons.mp (hreduced.mem_iff.mp hp) with rfl | hp
        · exact absurd hm.1.symm hne
        · exact ⟨p, hleft p hp, hm⟩
      · rintro ⟨p, hp, hm⟩
        exact ⟨p, hreduced.mem_iff.mpr (List.mem_cons_of_mem _ (hother hp hm hne)), hm⟩

end Close

/-! ## The snapshots before and after -/

/-- The row with an amount moved from the unrealized to the realized PnL. -/
def EquityRow.shift (amount : ℚ) (r : EquityRow) : EquityRow :=
  { r with
    unrealizedPnl := r.unrealizedPnl.map (· - .fin amount)
    realizedPnl := r.realizedPnl.map (· + .fin amount) }

/-- The snapshot with an amount moved in the rows of an alpha and of the total. -/
def Snapshot.shift (alphaId : String) (amount : ℚ) (snap : Snapshot) : Snapshot :=
  { snap with
    alphas := snap.alphas.map fun r => if r.alphaId = alphaId then r.shift amount else r
    total := snap.total.shift amount }

/-- A loop whose results all change by `g`. -/
lemma mapM_map {ε α β γ : Type} {f : α → Except ε β} {f' : α → Except ε γ} {g : β → γ} {l : List α}
    (h : ∀ a ∈ l, f' a = (f a).map g) : l.mapM f' = (l.mapM f).map (List.map g) := by
  induction l with
  | nil => rfl
  | cons a l ih =>
    obtain ⟨ha, hl⟩ := List.forall_mem_cons.mp h
    rw [List.mapM_cons, List.mapM_cons, ha, ih hl]
    cases f a with
    | error e => rfl
    | ok b => cases l.mapM f <;> rfl

namespace SnapshotEnv

variable {env : SnapshotEnv} {s s' : Tables} {alphaId : String} {moved : ℚ}

lemma insertEquity_shift (a : String) (balance : PyFloat) (u r amount : ℚ) :
    env.insertEquity a balance (.fin (u - amount)) (.fin (r + amount)) =
      (env.insertEquity a balance (.fin u) (.fin r)).map (EquityRow.shift amount) := by
  unfold insertEquity
  cases real balance with
  | none => rfl
  | some b => simp [EquityRow.shift, Except.map]

/-- The rows of one alpha are changed where they are inserted. -/
lemma insertEquity_of_alpha (a : String) (balance u r : PyFloat) (amount : ℚ) :
    ((env.insertEquity a balance u r).map fun row =>
      if row.alphaId = alphaId then row.shift amount else row) =
      if a = alphaId then (env.insertEquity a balance u r).map (EquityRow.shift amount)
      else env.insertEquity a balance u r := by
  unfold insertEquity
  by_cases h : a = alphaId
  · rw [if_pos h]
    cases real balance with
    | none => rfl
    | some b => simp only [Except.map, if_pos h]
  · rw [if_neg h]
    cases real balance with
    | none => rfl
    | some b => simp only [Except.map, if_neg h]

/-- The tables of a snapshot hold numbers. -/
structure Numbers (env : SnapshotEnv) (s : Tables) : Prop where
  positions : ∀ p ∈ s.positions.rows, MarkablePosition p
  trades : ∀ t ∈ s.trades.rows, FinitePnl t
  prices : ∀ symbol x, env.price symbol = some x → ∃ q, x = .fin q

variable (env) in
/-- The unrealized PnL of an alpha. -/
def unrealizedOf (s : Tables) (a : String) : ℚ := (s.positions.rows.map (env.markFor a)).sum

/-- The realized PnL of an alpha. -/
def realizedOf (s : Tables) (a : String) : ℚ :=
  total TradeRow.pnl (s.trades.rows.filter fun t => t.alphaId = a)

lemma figures_eq (h : Numbers env s) (a : String) : env.figures s a =
    ⟨(env.capitals.get? a).getD (.fin 10000) + .fin (realizedOf s a) + .fin (env.unrealizedOf s a),
      .fin (env.unrealizedOf s a), .fin (realizedOf s a)⟩ := by
  unfold figures
  dsimp only
  rw [unrealized_eq h.prices h.positions, realizedPnl_fin h.trades]
  rfl

lemma Numbers.after (h : Numbers env s) (hmoves : MovesPnl env s s' alphaId moved) :
    Numbers env s' := by
  obtain ⟨t, hrows, -, hpnl⟩ := hmoves.trades
  refine ⟨hmoves.finite, fun t' ht' => ?_, h.prices⟩
  rw [hrows] at ht'
  rcases List.mem_append.mp ht' with ht' | ht'
  · exact h.trades t' ht'
  · rw [List.mem_singleton.mp ht']
    intro x hx
    rw [hpnl] at hx
    cases hx
    exact ⟨moved, rfl⟩

lemma realizedOf_moved (hmoves : MovesPnl env s s' alphaId moved) (a : String) :
    realizedOf s' a = realizedOf s a + if a = alphaId then moved else 0 := by
  obtain ⟨t, hrows, halpha, hpnl⟩ := hmoves.trades
  unfold realizedOf total
  rw [hrows, List.filter_append, List.map_append, List.sum_append]
  by_cases h : a = alphaId
  · rw [if_pos h, h, List.filter_cons_of_pos (by simp [halpha])]
    simp [hpnl, amount]
  · rw [if_neg h, List.filter_cons_of_neg (by simp [halpha, Ne.symm h])]
    simp

/-- The figures of the alpha change by the amount, and nothing else does. -/
lemma figures_moved (h : Numbers env s) (hmoves : MovesPnl env s s' alphaId moved) (a : String) :
    env.figures s' a =
      { balance := (env.figures s a).balance
        unrealized := .fin (env.unrealizedOf s a - if a = alphaId then moved else 0)
        realized := .fin (realizedOf s a + if a = alphaId then moved else 0) } := by
  have hunrealized : env.unrealizedOf s' a = _ := hmoves.marks a
  rw [figures_eq h, figures_eq (h.after hmoves), realizedOf_moved hmoves, hunrealized]
  simp only [add_fin_add_fin, unrealizedOf]
  congr 3
  ring

lemma alphaIds_moved (h : Numbers env s) (hmoves : MovesPnl env s s' alphaId moved) :
    env.alphaIds s' = env.alphaIds s := by
  obtain ⟨t, hrows, halpha, -⟩ := hmoves.trades
  ext a
  have hmarked : a ∈ (env.unrealizedByAlpha s.positions.rows).keys ↔
      ∃ p ∈ s.positions.rows, env.Marks a p := mem_unrealized h.positions a
  have hmarked' : a ∈ (env.unrealizedByAlpha s'.positions.rows).keys ↔
      ∃ p ∈ s'.positions.rows, env.Marks a p := mem_unrealized (h.after hmoves).positions a
  simp only [alphaIds, Finset.mem_filter, Finset.mem_union, List.mem_toFinset, hmarked, hmarked',
    hmoves.alphas, hrows, List.map_append, List.mem_append, List.map_cons, List.map_nil,
    List.mem_singleton, halpha]
  refine and_congr_left fun _ => ?_
  by_cases ha : a = alphaId
  · have hone := hmoves.marked
    rw [ha]
    constructor
    · exact fun _ => .inr hone
    · exact fun _ => .inl (.inr (.inr rfl))
  · rw [hmoves.others a ha]
    simp [ha]

lemma mem_alphaIds (h : Numbers env s) (hmoves : MovesPnl env s s' alphaId moved)
    (hshadow : env.shadow.contains alphaId = false) : alphaId ∈ env.alphaIds s := by
  have hmarked : alphaId ∈ (env.unrealizedByAlpha s.positions.rows).keys :=
    (mem_unrealized h.positions alphaId).mpr hmoves.marked
  simp only [alphaIds, Finset.mem_filter, Finset.mem_union, List.mem_toFinset]
  exact ⟨.inr hmarked, by rw [hshadow]; rfl⟩

/-- What is added to one alpha is added to the sum. -/
lemma sum_add_ite {ids : List String} (hnodup : ids.Nodup) (hmem : alphaId ∈ ids) (f : String → ℚ) :
    (ids.map fun a => f a + if a = alphaId then moved else 0).sum = (ids.map f).sum + moved := by
  rw [List.sum_map_add]
  congr 1
  rw [List.sum_map_ite_eq]
  simp [List.count_eq_one_of_mem hnodup hmem]

/-- What is taken from one alpha is taken from the sum. -/
lemma sum_sub_ite {ids : List String} (hnodup : ids.Nodup) (hmem : alphaId ∈ ids) (f : String → ℚ) :
    (ids.map fun a => f a - if a = alphaId then moved else 0).sum = (ids.map f).sum - moved := by
  have hneg : (ids.map fun a => f a - if a = alphaId then moved else 0) =
      ids.map fun a => f a + if a = alphaId then -moved else 0 := by
    refine List.map_congr_left fun a _ => ?_
    split <;> ring
  rw [hneg, sum_add_ite hnodup hmem, sub_eq_add_neg]

lemma foldl_fin_map (ids : List String) (f : String → ℚ) :
    (ids.map fun a => PyFloat.fin (f a)).foldl (· + ·) 0 = .fin (ids.map f).sum := by
  rw [PyFloat.zero_eq, foldl_add_fin]
  · rw [List.map_map, zero_add]
    rfl
  · intro x hx
    obtain ⟨a, -, rfl⟩ := List.mem_map.mp hx
    exact ⟨f a, rfl⟩

/-- The snapshot of the tables after an amount has moved. -/
theorem snapshotOnce_moved (h : Numbers env s) (hmoves : MovesPnl env s s' alphaId moved)
    (hshadow : env.shadow.contains alphaId = false) :
    env.snapshotOnce s' = (env.snapshotOnce s).map (Snapshot.shift alphaId moved) := by
  have hids := alphaIds_moved h hmoves
  have hmem : alphaId ∈ (env.alphaIds s).sort :=
    (Finset.mem_sort _).mpr (mem_alphaIds h hmoves hshadow)
  have hnodup : ((env.alphaIds s).sort).Nodup := Finset.sort_nodup _ _
  have hfigures := figures_moved h hmoves
  have hbefore := @figures_eq env s h
  unfold snapshotOnce
  rw [hids]
  generalize (env.alphaIds s).sort = ids at hmem hnodup
  -- the rows of the alphas
  have halphas : (ids.mapM fun a =>
      env.insertEquity a (env.figures s' a).balance (env.figures s' a).unrealized
        (env.figures s' a).realized) =
      (ids.mapM fun a => env.insertEquity a (env.figures s a).balance (env.figures s a).unrealized
        (env.figures s a).realized).map
        (List.map fun r => if r.alphaId = alphaId then r.shift moved else r) := by
    refine mapM_map fun a _ => ?_
    rw [hfigures a]
    dsimp only
    rw [insertEquity_of_alpha]
    by_cases ha : a = alphaId
    · rw [if_pos ha, if_pos ha, insertEquity_shift, hbefore a]
    · rw [if_neg ha, if_neg ha, sub_zero, add_zero, hbefore a]
  have hsleeves : env.sleeveRow s' = env.sleeveRow s := by
    funext sleeve
    unfold sleeveRow
    rw [hmoves.virtualPositions, hmoves.virtualTrades]
  -- the row of the total
  have htotal : env.insertEquity totalKey
      (((ids.map (env.figures s')).map Figures.balance).foldl (· + ·) 0)
      (((ids.map (env.figures s')).map Figures.unrealized).foldl (· + ·) 0)
      (((ids.map (env.figures s')).map Figures.realized).foldl (· + ·) 0) =
      (env.insertEquity totalKey
        (((ids.map (env.figures s)).map Figures.balance).foldl (· + ·) 0)
        (((ids.map (env.figures s)).map Figures.unrealized).foldl (· + ·) 0)
        (((ids.map (env.figures s)).map Figures.realized).foldl (· + ·) 0)).map
        (EquityRow.shift moved) := by
    have hbalance : (ids.map (env.figures s')).map Figures.balance =
        (ids.map (env.figures s)).map Figures.balance := by
      rw [List.map_map, List.map_map]
      exact List.map_congr_left fun a _ => by rw [Function.comp_apply, hfigures a]; rfl
    have hunrealized : ∀ t : Tables, (ids.map (env.figures t)).map Figures.unrealized =
        ids.map fun a => (env.figures t a).unrealized := fun t => by rw [List.map_map]; rfl
    have hrealized : ∀ t : Tables, (ids.map (env.figures t)).map Figures.realized =
        ids.map fun a => (env.figures t a).realized := fun t => by rw [List.map_map]; rfl
    rw [hbalance, hunrealized, hunrealized, hrealized, hrealized]
    simp only [hfigures, hbefore, foldl_fin_map]
    rw [sum_add_ite hnodup hmem, sum_sub_ite hnodup hmem, insertEquity_shift]
  dsimp only
  rw [halphas, hsleeves, htotal]
  cases ids.mapM fun a => env.insertEquity a (env.figures s a).balance (env.figures s a).unrealized
    (env.figures s a).realized with
  | error e => rfl
  | ok alphas =>
    cases (env.shadow.rows.mergeSort fun e e' => e.1 ≤ e'.1).mapM (env.sleeveRow s) with
    | error e => rfl
    | ok sleeves =>
      cases env.insertEquity totalKey
        (((ids.map (env.figures s)).map Figures.balance).foldl (· + ·) 0)
        (((ids.map (env.figures s)).map Figures.unrealized).foldl (· + ·) 0)
        (((ids.map (env.figures s)).map Figures.realized).foldl (· + ·) 0) <;> rfl

/-- Every alpha has a row of its figures. -/
lemma exists_row {ids : List String} {f : String → Except PyError EquityRow} {rows : List EquityRow}
    (h : ids.mapM f = .ok rows) {a : String} (ha : a ∈ ids) : ∃ r ∈ rows, f a = .ok r := by
  induction ids generalizing rows with
  | nil => cases ha
  | cons b ids ih =>
    rw [List.mapM_cons] at h
    obtain ⟨r, hr, h⟩ := bind_eq_ok h
    obtain ⟨rest, hrest, h⟩ := bind_eq_ok h
    cases h
    rcases List.mem_cons.mp ha with rfl | ha
    · exact ⟨r, List.mem_cons_self, hr⟩
    · obtain ⟨r', hr', hf⟩ := ih hrest ha
      exact ⟨r', List.mem_cons_of_mem _ hr', hf⟩

lemma exists_alphaRow (h : Numbers env s) {snap : Snapshot} (hsnap : env.snapshotOnce s = .ok snap)
    (ha : alphaId ∈ env.alphaIds s) : ∃ balance unrealized realized,
      ⟨env.timestamp, alphaId, balance, some (.fin unrealized), some (.fin realized)⟩ ∈
        snap.alphas := by
  unfold snapshotOnce at hsnap
  obtain ⟨rows, hrows, hsnap⟩ := bind_eq_ok hsnap
  obtain ⟨_, -, hsnap⟩ := bind_eq_ok hsnap
  obtain ⟨_, -, hsnap⟩ := bind_eq_ok hsnap
  cases hsnap
  obtain ⟨r, hr, hinsert⟩ := exists_row hrows ((Finset.mem_sort _).mpr ha)
  rw [figures_eq h] at hinsert
  unfold insertEquity at hinsert
  dsimp only at hinsert
  split at hinsert
  · cases hinsert
  · cases hinsert
    exact ⟨_, _, _, hr⟩

end SnapshotEnv

/-- What `close_position` returns or raises outside a transaction. -/
def closeReply (s : Tables) (a : CloseArgs) : Except PyError Unit :=
  ((closePosition a.uuid a.positionId a.exitPrice a.reason a.closedAt a.closeMetadata a.qty).run
    (.idle s)).1

/-- The database after it. -/
def afterClose (s : Tables) (a : CloseArgs) : Tables :=
  ((closePosition a.uuid a.positionId a.exitPrice a.reason a.closedAt a.closeMetadata a.qty).run
    (.idle s)).2.committed

lemma closePosition_of_reply {s : Tables} {a : CloseArgs} (h : closeReply s a = .ok ()) :
    ClosePosition s a (.ok ()) (afterClose s a) := by
  obtain ⟨r, s', c, hrun, hclose, hleaves⟩ := closePosition_idle_run s a
  unfold closeReply at h
  unfold afterClose
  rw [hrun] at h ⊢
  cases h
  have hidle : c = .idle s' := hleaves
  rw [hidle]
  exact hclose

/-- A close at the mark price, of all of a position or leaving more than dust, moves the unrealized
PnL of what it closes to the realized PnL of the alpha and leaves its balance, and every other row
of the snapshot, as it was. -/
theorem snapshot_after_close (env : SnapshotEnv) {s : Tables} (h : env.Numbers s)
    {pos : PositionRow} (hpos : pos ∈ s.positions.rows)
    (hshadow : env.shadow.contains pos.alphaId = false) {m : ℚ}
    (hmark : env.price pos.symbol = some (.fin m)) {a : CloseArgs}
    (hid : a.positionId = pos.positionId) (hexit : a.exitPrice = some (.fin m)) {c : ℚ}
    (hqty : closeQuantity pos a.qty = .ok (.fin c)) (hpositive : 0 < c)
    (hdust : ∀ o, pos.qty = some (.fin o) → o = c ∨ dustQty < o - c)
    (hclosed : closeReply s a = .ok ()) :
    ∃ moved, computePositionPnl { pos with qty := some (.fin c) }.toMark (.fin m) = .fin moved ∧
      env.snapshotOnce (afterClose s a) =
        (env.snapshotOnce s).map (Snapshot.shift pos.alphaId moved) ∧
      ∀ snap, env.snapshotOnce s = .ok snap → ∃ balance unrealized realized,
        ⟨env.timestamp, pos.alphaId, balance, some (.fin unrealized), some (.fin realized)⟩ ∈
          snap.alphas := by
  obtain ⟨entry, o, fee, hentry, ho, hfee⟩ := h.positions pos hpos
  have hclose := closePosition_of_reply hclosed
  have hmoves := moves_of_close h.positions hpos hid hmark hexit hqty hpositive hdust hclose hentry
    ho hfee
  refine ⟨_, computePositionPnl_eq (p := { pos with qty := some (.fin c) }) hentry rfl hfee m,
    SnapshotEnv.snapshotOnce_moved h hmoves hshadow, fun snap hsnap => ?_⟩
  exact SnapshotEnv.exists_alphaRow h hsnap (SnapshotEnv.mem_alphaIds h hmoves hshadow)

/-- Prices of a test: only one symbol has one. -/
def sampleSnapshotEnv : SnapshotEnv where
  timestamp := "2024-01-01T02:00:00Z"
  price := fun symbol => if symbol = "BTCUSDT" then some (.fin 110) else none
  capitals := .empty
  shadow := .empty

/-- A close of four of the ten at the mark price. -/
def sampleClose : CloseArgs where
  uuid := "t1"
  positionId := "p1"
  exitPrice := some (.fin 110)
  reason := "SIGNAL"
  closedAt := "2024-01-01T01:00:00Z"
  closeMetadata := .chars "{}"
  qty := some (.fin 4)

lemma numbers_sample : sampleSnapshotEnv.Numbers tenOpenTables where
  positions := by
    intro p hp
    rw [List.mem_singleton.mp hp]
    exact ⟨100, 10, 1 / 1000, rfl, rfl, rfl⟩
  trades := by
    intro t ht
    cases ht
  prices := by
    intro symbol x hx
    simp only [sampleSnapshotEnv] at hx
    split at hx
    · cases hx
      exact ⟨110, rfl⟩
    · cases hx

theorem snapshot_after_close_sample : ∃ moved,
    computePositionPnl { tenOpen with qty := some (.fin 4) }.toMark (.fin 110) = .fin moved ∧
      sampleSnapshotEnv.snapshotOnce (afterClose tenOpenTables sampleClose) =
        (sampleSnapshotEnv.snapshotOnce tenOpenTables).map (Snapshot.shift "alpha" moved) := by
  have hclosed : closeReply tenOpenTables sampleClose = .ok () := by
    have hok : (closeReply tenOpenTables sampleClose).isOk = true := by decide +kernel
    cases hreply : closeReply tenOpenTables sampleClose with
    | ok _ => rfl
    | error e =>
      rw [hreply] at hok
      cases hok
  have hqty : closeQuantity tenOpen sampleClose.qty = .ok (.fin 4) := by
    simp only [closeQuantity, need, tenOpen, sampleClose, Except.map, PyFloat.min_fin]
    norm_num
  obtain ⟨moved, hmoved, hsnap, -⟩ := snapshot_after_close sampleSnapshotEnv numbers_sample
    (List.mem_singleton_self tenOpen) rfl rfl (a := sampleClose) rfl rfl hqty (by norm_num)
    (fun o ho => by
      cases ho
      exact .inr (by norm_num [dustQty])) hclosed
  exact ⟨moved, hmoved, hsnap⟩

end PaperTrade.Worker
