import PaperTrade.Runner.Scan

/-!
# Restarts of an alpha that only publishes

After a restart the equity and the last prices come from the last mark in `shadow:pnl:…`, and the
weights from the target book. The mark is written when there are weights and last prices to mark, the
last prices in memory change with every bar; so the restored process goes on as the old one would
have when no weight is held, or when the last bar was marked.

* `Stored` is what the two keys know of the state, along any run whose scans end and whose marks
  Redis accepts;
* `Alike` relates two states that the scans cannot tell apart: they hold the same weights and last
  prices, or no weights at all;
* a restart of a state that is `Restorable` leads to one that is `Alike`.
-/

namespace PaperTrade.Runner

open PaperTrade.Runtime PaperTrade.CrossAlpha

namespace Scanner

open CrossSectional

/-- The alpha publishes its book, to Redis. -/
structure Publishes (x : Scanner) : Prop where
  bookOnly : x.bookOnly = true
  hasRedis : x.hasRedis = true

/-! ## Two states that go on alike -/

/-- The same but for weights and prices. -/
structure Level (w v : ScanWorld) : Prop where
  equity : w.state.equity = v.state.equity
  peak : w.state.peakEquity = v.state.peakEquity
  cost : w.state.pendingCost = v.state.pendingCost
  shadow : w.shadowEquity = v.shadowEquity
  processed : w.state.lastProcessedCandle = v.state.lastProcessedCandle
  ready : w.state.runtime.ready = v.state.runtime.ready
  positions : w.state.openPositions = v.state.openPositions
  published : w.published = v.published

/-- The same weights, in any order, and last prices; or no weights. -/
def Held (w v : ScanWorld) : Prop :=
  (w.state.baseWeights.rows = [] ∧ v.state.baseWeights.rows = []) ∨
    (w.state.baseWeights.rows.Perm v.state.baseWeights.rows ∧
      w.state.lastPrices = v.state.lastPrices)

/-- Two states that the scans of an alpha that only publishes cannot tell apart. -/
structure Alike (w v : ScanWorld) : Prop extends Level w v where
  held : Held w v

variable {x : Scanner} {w v : ScanWorld}

lemma Alike.refl (w : ScanWorld) : Alike w w := by
  refine ⟨⟨rfl, rfl, rfl, rfl, rfl, rfl, rfl, rfl⟩, .inr ⟨.refl _, rfl⟩⟩

lemma grossReturn_perm {weights weights' : Dict String PyFloat}
    (h : weights.rows.Perm weights'.rows) (lastPrices prices : Dict String PyFloat) :
    grossReturn weights lastPrices prices = grossReturn weights' lastPrices prices :=
  PyFloat.foldl_add_perm (h.filterMap _) _

/-- Marks keep the weights, the last prices and the bar. -/
lemma recordPortfolioReturn_frame (i : ScanReads) (prices : Dict String PyFloat) (w : ScanWorld) :
    (x.recordPortfolioReturn i prices w).state.baseWeights = w.state.baseWeights ∧
    (x.recordPortfolioReturn i prices w).state.lastPrices = w.state.lastPrices ∧
    (x.recordPortfolioReturn i prices w).state.lastProcessedCandle =
      w.state.lastProcessedCandle ∧
    (x.recordPortfolioReturn i prices w).state.openPositions = w.state.openPositions ∧
    (x.recordPortfolioReturn i prices w).state.runtime = w.state.runtime ∧
    (x.recordPortfolioReturn i prices w).targetBook = w.targetBook := by
  unfold recordPortfolioReturn publishShadowPnl compound
  split
  · exact ⟨rfl, rfl, rfl, rfl, rfl, rfl⟩
  · dsimp only
    split_ifs <;> exact ⟨rfl, rfl, rfl, rfl, rfl, rfl⟩

/-- Without weights or last prices nothing is marked. -/
lemma recordPortfolioReturn_of_empty
    (h : w.state.lastPrices.rows = [] ∨ w.state.baseWeights.rows = []) (i : ScanReads)
    (prices : Dict String PyFloat) : x.recordPortfolioReturn i prices w = w := if_pos h

/-- The return of a bar. -/
def barReturn (prices : Dict String PyFloat) (w : ScanWorld) : PyFloat :=
  grossReturn w.state.baseWeights w.state.lastPrices prices - w.state.pendingCost

lemma recordPortfolioReturn_eq (hx : Publishes x)
    (h : ¬(w.state.lastPrices.rows = [] ∨ w.state.baseWeights.rows = [])) (i : ScanReads)
    (prices : Dict String PyFloat) :
    x.recordPortfolioReturn i prices w =
      x.publishShadowPnl i (barReturn prices w) prices { w with
        state := x.compound (barReturn prices w) w.state
        shadowEquity := w.shadowEquity * (1 + barReturn prices w) } := by
  unfold recordPortfolioReturn
  rw [if_neg h]
  exact if_pos hx.bookOnly

lemma Level.record (hx : Publishes x) (h : Level w v) (hheld : Held w v) (i : ScanReads)
    (prices : Dict String PyFloat) :
    Level (x.recordPortfolioReturn i prices w) (x.recordPortfolioReturn i prices v) := by
  rcases hheld with ⟨hw, hv⟩ | ⟨hperm, hlast⟩
  · rw [recordPortfolioReturn_of_empty (.inr hw), recordPortfolioReturn_of_empty (.inr hv)]
    exact h
  · have hnil : w.state.baseWeights.rows = [] ↔ v.state.baseWeights.rows = [] := by
      rw [← List.length_eq_zero_iff, hperm.length_eq, List.length_eq_zero_iff]
    by_cases hempty : w.state.lastPrices.rows = [] ∨ w.state.baseWeights.rows = []
    · rw [recordPortfolioReturn_of_empty hempty]
      rw [hlast, hnil] at hempty
      rw [recordPortfolioReturn_of_empty hempty]
      exact h
    · have hret : barReturn prices w = barReturn prices v := by
        unfold barReturn
        rw [grossReturn_perm hperm, hlast, h.cost]
      rw [recordPortfolioReturn_eq hx hempty]
      rw [hlast, hnil] at hempty
      rw [recordPortfolioReturn_eq hx hempty, hret]
      unfold publishShadowPnl compound
      rw [hx.hasRedis]
      constructor <;>
        cases i.pnlSet <;> cases i.pnlPublish <;> simp [h.equity, h.peak, h.cost, h.shadow,
          h.processed, h.ready, h.positions, h.published]

lemma Held.record (h : Held w v) (i : ScanReads) (prices : Dict String PyFloat) :
    Held (x.recordPortfolioReturn i prices w) (x.recordPortfolioReturn i prices v) := by
  obtain ⟨hw, hlw, -⟩ := recordPortfolioReturn_frame (x := x) i prices w
  obtain ⟨hv, hlv, -⟩ := recordPortfolioReturn_frame (x := x) i prices v
  unfold Held
  rw [hw, hv, hlw, hlv]
  exact h

/-- The end of the scan of a bar. -/
lemma Alike.advance (h : Level w v)
    (hheld : (w.state.baseWeights.rows = [] ∧ v.state.baseWeights.rows = []) ∨
      w.state.baseWeights.rows.Perm v.state.baseWeights.rows)
    (prices : Dict String PyFloat) (latest : ℤ) :
    Alike (advance prices latest w) (advance prices latest v) where
  equity := h.equity
  peak := h.peak
  cost := h.cost
  shadow := h.shadow
  processed := rfl
  ready := h.ready
  positions := h.positions
  published := h.published
  held := hheld.imp_right fun hperm => ⟨hperm, rfl⟩

section Scan

variable {digest : Logical → String} {uuid4 : ℕ → String} {env : ℕ → DispatchEnv}

/-- The applied book of an alpha that publishes: what is written, and the weights that are held. -/
lemma apply_eq (hx : Publishes x) (i : ScanReads) (selection : Selection)
    (prices : Dict String PyFloat) (latest : ℤ) (w : ScanWorld) :
    x.apply digest uuid4 env i selection prices latest w =
      x.publishTargetBook i selection prices latest
        { w with state := { w.state with baseWeights := selection.weights } } :=
  if_pos hx.bookOnly

/-- The revision of a book does not decide whether it is valid. -/
lemma valid_newBook (selection : Selection) (prices : Dict String PyFloat) (latest : ℤ) (n m : ℕ) :
    (x.newBook selection prices latest n).valid = (x.newBook selection prices latest m).valid := by
  have hrevision : (0 : ℤ) ≤ n ↔ (0 : ℤ) ≤ m :=
    iff_of_true (Int.natCast_nonneg n) (Int.natCast_nonneg m)
  unfold TargetBook.valid newBook
  dsimp only
  rw [decide_eq_decide.mpr (and_congr_right fun _ => and_congr_left fun _ => hrevision)]

/-- A book that is published without an error. -/
lemma publishTargetBook_ok (hx : Publishes x) {i : ScanReads} {selection : Selection}
    {prices : Dict String PyFloat} {latest : ℤ}
    (hok : (x.publishTargetBook i selection prices latest w).1 = .ok ()) (v : ScanWorld) :
    x.publishTargetBook i selection prices latest v = (.ok (), { v with
      bookRevision := v.bookRevision + 1
      targetBook := some
        (x.newBook selection prices latest (v.bookRevision + 1 : ℕ)).stored }) := by
  unfold publishTargetBook at hok ⊢
  rw [hx.hasRedis, if_pos rfl] at hok ⊢
  dsimp only at hok ⊢
  split at hok
  · rename_i hvalid
    split at hok
    · rename_i hset
      have hpublish : i.bookPublish = true := by
        by_contra hfalse
        simp [hfalse] at hok
      have hvalid' : ((x.newBook selection prices latest (v.bookRevision + 1 : ℕ)).valid &&
          (x.newBook selection prices latest (v.bookRevision + 1 : ℕ)).encodable) = true := by
        rw [valid_newBook _ _ _ _ (w.bookRevision + 1)]
        exact hvalid
      rw [if_pos hvalid', if_pos hset, if_pos hpublish]
    · cases hok
  · cases hok

/-- Both write the book of a selection, or neither can. -/
lemma Level.apply (hx : Publishes x) (h : Level w v) {i : ScanReads} {selection : Selection}
    {prices : Dict String PyFloat} {latest : ℤ}
    (hok : (x.apply digest uuid4 env i selection prices latest w).1 = .ok ()) :
    (x.apply digest uuid4 env i selection prices latest v).1 = .ok () ∧
      Level (x.apply digest uuid4 env i selection prices latest w).2
        (x.apply digest uuid4 env i selection prices latest v).2 ∧
      (x.apply digest uuid4 env i selection prices latest w).2.state.baseWeights =
        (x.apply digest uuid4 env i selection prices latest v).2.state.baseWeights := by
  rw [apply_eq hx] at hok
  rw [apply_eq hx, apply_eq hx, publishTargetBook_ok hx hok, publishTargetBook_ok hx hok]
  exact ⟨rfl, ⟨h.equity, h.peak, h.cost, h.shadow, h.processed, h.ready, h.positions,
    h.published⟩, rfl⟩

/-- The selection of a scan that ends. -/
lemma Level.select (hx : Publishes x) (h : Level w v) {i : ScanReads}
    {prices : Dict String PyFloat} {latest : ℤ} {r : ScanEnd}
    (hok : (x.select digest uuid4 env i prices latest w).1 = .ok r) :
    Alike (x.select digest uuid4 env i prices latest w).2
      (x.select digest uuid4 env i prices latest v).2 := by
  have hdrawdown : currentDrawdown w.state = currentDrawdown v.state := by
    unfold currentDrawdown
    rw [h.equity, h.peak]
  obtain ⟨selection, hselect, haudit, happly⟩ := select_ok hok
  obtain ⟨happly', hlevel, hbase⟩ := h.apply hx happly
  rw [select_applied hselect haudit happly]
  rw [hdrawdown] at hselect
  rw [select_applied hselect haudit happly']
  exact .advance hlevel (.inr (by rw [hbase])) prices latest

/-- A bar that is processed to the end. -/
lemma Alike.process (hx : Publishes x) (h : Alike w v) {i : ScanReads}
    {prices : Dict String PyFloat} {latest tfMs : ℤ} {r : ScanEnd}
    (hok : (x.process digest uuid4 env i prices latest tfMs w).1 = .ok r) :
    Alike (x.process digest uuid4 env i prices latest tfMs w).2
      (x.process digest uuid4 env i prices latest tfMs v).2 := by
  have hlevel := h.toLevel.record hx h.held i prices
  have hadvance : Alike (Scanner.advance prices latest (x.recordPortfolioReturn i prices w))
      (Scanner.advance prices latest (x.recordPortfolioReturn i prices v)) := by
    refine .advance hlevel ?_ prices latest
    exact (h.held.record i prices).imp_right And.left
  unfold Scanner.process at hok ⊢
  dsimp only at hok ⊢
  split
  · exact hadvance
  · rename_i hgate
    rw [if_neg hgate] at hok
    cases hdue : x.due latest tfMs with
    | none =>
      rw [hdue] at hok
      cases hok
    | some isRebalance =>
      rw [hdue] at hok
      dsimp only at hok ⊢
      rw [hx.bookOnly, Bool.or_true, Bool.and_true] at hok ⊢
      rw [Bool.or_true, Bool.and_true]
      split
      · exact hadvance
      · rename_i hskip
        rw [if_neg hskip] at hok
        exact hlevel.select hx hok

/-- A scan that ends. -/
lemma Alike.scan (hx : Publishes x) (h : Alike w v) {i : ScanReads} {r : ScanEnd}
    (hok : (x.scan digest uuid4 env i w).1 = .ok r) :
    Alike (x.scan digest uuid4 env i w).2 (x.scan digest uuid4 env i v).2 := by
  unfold Scanner.scan at hok ⊢
  rw [h.ready, h.positions, h.processed] at hok
  rw [h.ready, h.positions, h.processed]
  split
  · exact h
  · rename_i hready
    rw [if_neg hready] at hok
    split
    · exact h
    · exact h
    · exact h
    · rename_i bundle tfMs hbundle htf
      rw [hbundle, htf] at hok
      dsimp only at hok ⊢
      split
      · exact h
      · rename_i hnew
        rw [if_neg hnew] at hok
        exact h.process hx hok

end Scan

/-! ## What Redis knows of the state -/

/-- The weights of the stored book. -/
def storedWeights (w : ScanWorld) : Dict String PyFloat :=
  (w.targetBook.map TargetBook.weights).getD .empty

/-- The prices of the stored mark. -/
def storedPrices (w : ScanWorld) : Dict String PyFloat :=
  (w.shadowPnl.map ShadowPayload.prices).getD .empty

/-- What the keys of an alpha know of its state. -/
structure Stored (w : ScanWorld) : Prop where
  shadow : w.shadowEquity = w.state.equity
  cost : w.state.pendingCost = 0
  peak : w.state.peakEquity ≠ .nan
  below : ¬ w.state.peakEquity < w.state.equity
  unmarked : w.shadowPnl = none → w.state.equity = 1 ∧ w.state.peakEquity = 1
  marked : ∀ p, w.shadowPnl = some p →
    p.equity = w.state.equity ∧ p.peakEquity = w.state.peakEquity
  book : (storedWeights w).rows.Perm (w.state.baseWeights.rows.filter fun e => e.2 ≠ 0)

lemma Stored.record (hx : Publishes x) (h : Stored w) {i : ScanReads} (hset : i.pnlSet = true)
    (prices : Dict String PyFloat) : Stored (x.recordPortfolioReturn i prices w) := by
  by_cases hempty : w.state.lastPrices.rows = [] ∨ w.state.baseWeights.rows = []
  · rw [recordPortfolioReturn_of_empty hempty]
    exact h
  · rw [recordPortfolioReturn_eq hx hempty]
    unfold publishShadowPnl compound
    rw [hx.hasRedis, hset]
    constructor
    · exact congrArg (· * (1 + barReturn prices w)) h.shadow
    · rfl
    · dsimp only
      simp only [Bool.and_self, if_true]
      split
      · rename_i hlt
        intro hnan
        rw [hnan] at hlt
        exact PyFloat.not_lt_nan _ hlt
      · exact h.peak
    · dsimp only
      simp only [Bool.and_self, if_true]
      split
      · rename_i hlt
        intro hself
        generalize w.state.equity * (1 + barReturn prices w) = q at hself
        change PyFloat.blt q q = true at hself
        rcases q with _ | (_ | _) | q <;> simp [PyFloat.blt] at hself
      · assumption
    · intro hnone
      cases hnone
    · intro p hp
      cases hp
      exact ⟨congrArg (· * (1 + barReturn prices w)) h.shadow, rfl⟩
    · exact h.book

section Scan

variable {digest : Logical → String} {uuid4 : ℕ → String} {env : ℕ → DispatchEnv}

lemma Stored.apply (hx : Publishes x) (h : Stored w) {i : ScanReads} {selection : Selection}
    {prices : Dict String PyFloat} {latest : ℤ}
    (hok : (x.apply digest uuid4 env i selection prices latest w).1 = .ok ()) :
    Stored (x.apply digest uuid4 env i selection prices latest w).2 := by
  rw [apply_eq hx] at hok ⊢
  rw [publishTargetBook_ok hx hok]
  exact ⟨h.shadow, h.cost, h.peak, h.below, h.unmarked, h.marked, Dict.perm_sorted _⟩

lemma Stored.advance (h : Stored w) (prices : Dict String PyFloat) (latest : ℤ) :
    Stored (advance prices latest w) :=
  ⟨h.shadow, h.cost, h.peak, h.below, h.unmarked, h.marked, h.book⟩

lemma Stored.scan (hx : Publishes x) (h : Stored w) {i : ScanReads} (hset : i.pnlSet = true)
    {r : ScanEnd} (hok : (x.scan digest uuid4 env i w).1 = .ok r) :
    Stored (x.scan digest uuid4 env i w).2 := by
  have hstep := scan_cases x digest uuid4 env i w
  generalize (x.scan digest uuid4 env i w).2 = w' at hstep
  rw [hok] at hstep
  cases hstep with
  | idle => exact h
  | passed => exact (h.record hx hset _).advance _ _
  | @applied bundle tfMs _ selection w' _ happly =>
    have hrecorded := h.record hx hset bundle.prices
    have hstored := hrecorded.apply hx (congrArg Prod.fst happly)
    rw [happly] at hstored
    exact hstored.advance _ _

end Scan

/-! ## Restarts -/

/-- The two keys restore what is held: the equity is positive, and no weight is held, or the stored
mark has the prices of the last bar. -/
structure Restorable (w : ScanWorld) : Prop where
  equity : 0 < w.state.equity
  held : w.state.baseWeights.rows = [] ∨
    (∀ e ∈ w.state.baseWeights.rows, e.2 ≠ 0) ∧ storedPrices w = w.state.lastPrices

/-- The new process finds the positions, the readiness and the candles of the old one. -/
structure Resumes (b : Boot) (w : ScanWorld) : Prop where
  ready : b.runtime.ready = w.state.runtime.ready
  positions : b.openPositions = w.state.openPositions
  processed : (if b.runtime.ready then b.warm.getD 0 else 0) = w.state.lastProcessedCandle

lemma restoredMark_newProcess (h : Stored w) (hequity : 0 < w.state.equity) (b : Boot) :
    restoredMark (x.newProcess b w) = w.shadowPnl := by
  change w.shadowPnl.filter _ = _
  cases hp : w.shadowPnl with
  | none => rfl
  | some p =>
    have hpositive : 0 < p.equity := by
      rw [(h.marked p hp).1]
      exact hequity
    exact if_pos (decide_eq_true hpositive)

/-- What `_restore_shadow_state` restores. -/
structure Restored (w v : ScanWorld) : Prop where
  equity : v.state.equity = w.state.equity
  peak : v.state.peakEquity = w.state.peakEquity
  shadow : v.shadowEquity = w.shadowEquity
  prices : v.state.lastPrices = storedPrices w
  weights : v.state.baseWeights.rows = (storedWeights w).rows

lemma restored_newProcess (h : Stored w) (hequity : 0 < w.state.equity) (b : Boot) :
    Restored w (restoreShadowState (x.newProcess b w)) := by
  have hmark := restoredMark_newProcess (x := x) h hequity b
  unfold restoreShadowState
  rw [hmark]
  cases hp : w.shadowPnl with
  | none =>
    obtain ⟨he, hpeak⟩ := h.unmarked hp
    have hprices : storedPrices w = .empty := by
      rw [storedPrices, hp]
      rfl
    have hshadow : w.shadowEquity = 1 := h.shadow.trans he
    dsimp only
    split
    · rename_i hnil
      exact ⟨he.symm, hpeak.symm, hshadow.symm, hprices.symm, hnil.symm⟩
    · exact ⟨he.symm, hpeak.symm, hshadow.symm, hprices.symm, rfl⟩
  | some p =>
    obtain ⟨he, hpeak⟩ := h.marked p hp
    have hmax : p.equity.max p.peakEquity = w.state.peakEquity := by
      rw [he, hpeak]
      refine PyFloat.max_eq_right (fun hnan => ?_) h.peak h.below
      rw [hnan] at hequity
      exact PyFloat.not_lt_nan _ hequity
    have hprices : (if p.prices.rows = [] then .empty else p.prices) = storedPrices w := by
      rw [storedPrices, hp]
      split
      · rename_i hnil
        exact (Table.ext hnil).symm
      · rfl
    have hshadow : p.equity = w.shadowEquity := by rw [he, h.shadow]
    dsimp only
    split
    · rename_i hnil
      exact ⟨he, hmax, hshadow, hprices, hnil.symm⟩
    · exact ⟨he, hmax, hshadow, hprices, rfl⟩

/-- What `_restore_shadow_state` leaves as it was. -/
lemma restoreShadowState_frame (w : ScanWorld) :
    (restoreShadowState w).state.pendingCost = w.state.pendingCost ∧
    (restoreShadowState w).state.lastProcessedCandle = w.state.lastProcessedCandle ∧
    (restoreShadowState w).state.runtime = w.state.runtime ∧
    (restoreShadowState w).state.openPositions = w.state.openPositions ∧
    (restoreShadowState w).published = w.published ∧
    (restoreShadowState w).shadowPnl = w.shadowPnl ∧
    (restoreShadowState w).targetBook = w.targetBook := by
  unfold restoreShadowState
  dsimp only
  split <;> split <;> exact ⟨rfl, rfl, rfl, rfl, rfl, rfl, rfl⟩

/-- A restart of a restorable state. -/
lemma restart_alike (hx : Publishes x) (h : Stored w) (hrestorable : Restorable w) {b : Boot}
    (hresumes : Resumes b w) : Alike (x.restart b w) w ∧ Stored (x.restart b w) := by
  have hrestored := restored_newProcess (x := x) h hrestorable.equity b
  obtain ⟨hcost, hprocessed, hruntime, hpositions, hpublished, hpnl, hbook⟩ :=
    restoreShadowState_frame (x.newProcess b w)
  have hrestart : x.restart b w = warmUp b (restoreShadowState (x.newProcess b w)) := by
    unfold restart
    rw [hx.bookOnly, hx.hasRedis]
    rfl
  rw [hrestart]
  generalize restoreShadowState (x.newProcess b w) = v at *
  have hzero : ∀ e ∈ (storedWeights w).rows, e.2 ≠ 0 := by
    intro e he
    have hmem := h.book.mem_iff.mp he
    exact of_decide_eq_true (List.mem_filter.mp hmem).2
  have hweights : v.state.baseWeights.rows.Perm (w.state.baseWeights.rows.filter fun e => e.2 ≠ 0) := by
    rw [hrestored.weights]
    exact h.book
  have hheld : Held v w := by
    rcases hrestorable.held with hnil | ⟨hnonzero, hprices⟩
    · rw [hnil] at hweights
      exact .inl ⟨hweights.eq_nil, hnil⟩
    · rw [List.filter_eq_self.mpr fun e he => decide_eq_true (hnonzero e he)] at hweights
      exact .inr ⟨hweights, by rw [hrestored.prices, hprices]⟩
  have hstored : Stored v := {
    shadow := by rw [hrestored.shadow, hrestored.equity, h.shadow]
    cost := hcost
    peak := by
      rw [hrestored.peak]
      exact h.peak
    below := by
      rw [hrestored.peak, hrestored.equity]
      exact h.below
    unmarked := by
      rw [hpnl, hrestored.equity, hrestored.peak]
      exact h.unmarked
    marked := by
      rw [hpnl, hrestored.equity, hrestored.peak]
      exact h.marked
    book := by
      unfold storedWeights
      rw [hbook, hrestored.weights]
      change (storedWeights w).rows.Perm _
      rw [List.filter_eq_self.mpr fun e he => decide_eq_true (hzero e he)] }
  have hlevel : v.state.runtime.ready = w.state.runtime.ready := by
    rw [hruntime]
    exact hresumes.ready
  have hbar : (warmUp b v).state.lastProcessedCandle = w.state.lastProcessedCandle := by
    rw [← hresumes.processed]
    unfold warmUp
    split
    · exact congrArg b.warm.getD hprocessed
    · exact hprocessed
  have hready : (warmUp b v).state.runtime.ready = w.state.runtime.ready := by
    unfold warmUp
    split <;> exact hlevel
  unfold warmUp at hbar hready ⊢
  split at hbar
  · rename_i hwarm
    rw [if_pos hwarm] at hready ⊢
    exact ⟨⟨⟨hrestored.equity, hrestored.peak, hcost.trans h.cost.symm, hrestored.shadow, hbar,
      hready, hpositions.trans hresumes.positions, hpublished⟩, hheld⟩,
      ⟨hstored.shadow, hstored.cost, hstored.peak, hstored.below, hstored.unmarked,
        hstored.marked, hstored.book⟩⟩
  · rename_i hcold
    rw [if_neg hcold] at hready ⊢
    exact ⟨⟨⟨hrestored.equity, hrestored.peak, hcost.trans h.cost.symm, hrestored.shadow, hbar,
      hready, hpositions.trans hresumes.positions, hpublished⟩, hheld⟩, hstored⟩

/-! ## Runs -/

lemma Alike.runtime (h : Alike w v) (r : StrategyRuntimeState) (symbols : Option (List String)) :
    Alike { w with state := { w.state with runtime := r, liveTradableSymbols := symbols } }
      { v with state := { v.state with runtime := r, liveTradableSymbols := symbols } } :=
  ⟨⟨h.equity, h.peak, h.cost, h.shadow, h.processed, rfl, h.positions, h.published⟩, h.held⟩

lemma Alike.trans {u : ScanWorld} (h : Alike w v) (h' : Alike v u) : Alike w u where
  equity := h.equity.trans h'.equity
  peak := h.peak.trans h'.peak
  cost := h.cost.trans h'.cost
  shadow := h.shadow.trans h'.shadow
  processed := h.processed.trans h'.processed
  ready := h.ready.trans h'.ready
  positions := h.positions.trans h'.positions
  published := h.published.trans h'.published
  held := by
    rcases h.held with ⟨hw, hv⟩ | ⟨hperm, hprices⟩
    · rcases h'.held with ⟨-, hu⟩ | ⟨hperm', -⟩
      · exact .inl ⟨hw, hu⟩
      · rw [hv] at hperm'
        exact .inl ⟨hw, hperm'.symm.eq_nil⟩
    · rcases h'.held with ⟨hv, hu⟩ | ⟨hperm', hprices'⟩
      · rw [hv] at hperm
        exact .inl ⟨hperm.eq_nil, hu⟩
      · exact .inr ⟨hperm.trans hperm', hprices.trans hprices'⟩

section Runs

variable (x : Scanner) (digest : Logical → String) (uuid4 : ℕ → String) (env : ℕ → DispatchEnv)

/-- What the steps of a run have to meet: a scan ends and Redis takes its mark, and a restart finds
what it needs. -/
def Meets (w : ScanWorld) : ScanEvent → Prop
  | .scan i => i.pnlSet = true ∧ ∃ r, (x.scan digest uuid4 env i w).1 = .ok r
  | .runtime _ _ => True
  | .restart b => Restorable w ∧ Resumes b w

/-- The run without its restarts. -/
def uninterrupted (events : List ScanEvent) : List ScanEvent :=
  events.filter fun e => match e with
    | .restart _ => false
    | _ => true

variable {x digest uuid4 env}

lemma stored_newAlpha (o : Outbox) (b : Boot) : Stored (newAlpha o b) := by
  have hnumber : (1 : PyFloat) ≠ .nan := by decide
  have hbelow : ¬ (1 : PyFloat) < 1 := by decide
  have hmarked : ∀ p : ShadowPayload, none = some p → p.equity = 1 ∧ p.peakEquity = 1 := by
    intro p hp
    cases hp
  unfold newAlpha warmUp
  split <;> exact ⟨rfl, rfl, hnumber, hbelow, fun _ => ⟨rfl, rfl⟩, hmarked, .refl _⟩

/-- One step of the run that restarts, and the same step without restarts. -/
lemma Alike.step (hx : Publishes x) (h : Alike w v) (hstored : Stored w) {e : ScanEvent}
    (hmeets : x.Meets digest uuid4 env w e) :
    Stored (x.step digest uuid4 env w e) ∧
      Alike (x.step digest uuid4 env w e) (x.run digest uuid4 env v (uninterrupted [e])) := by
  cases e with
  | scan i =>
    obtain ⟨hset, r, hok⟩ := hmeets
    exact ⟨hstored.scan hx hset hok, h.scan hx hok⟩
  | runtime r symbols =>
    exact ⟨⟨hstored.shadow, hstored.cost, hstored.peak, hstored.below, hstored.unmarked,
      hstored.marked, hstored.book⟩, h.runtime r symbols⟩
  | restart b =>
    obtain ⟨hrestorable, hresumes⟩ := hmeets
    obtain ⟨halike, hstored'⟩ := restart_alike hx hstored hrestorable hresumes
    exact ⟨hstored', halike.trans h⟩

/-- A run that restarts, against the run without restarts. -/
lemma Alike.run (hx : Publishes x) {events : List ScanEvent} (h : Alike w v) (hstored : Stored w)
    (hmeets : x.Along digest uuid4 env (x.Meets digest uuid4 env) w events) :
    Alike (x.run digest uuid4 env w events)
      (x.run digest uuid4 env v (uninterrupted events)) := by
  induction events generalizing w v with
  | nil => exact h
  | cons e events ih =>
    obtain ⟨he, hevents⟩ := hmeets
    obtain ⟨hstored', halike⟩ := h.step hx hstored he
    have hrest := ih halike hstored' hevents
    have hsplit : uninterrupted (e :: events) = uninterrupted [e] ++ uninterrupted events :=
      List.filter_append [e] events
    rw [hsplit]
    unfold Scanner.run
    rw [List.foldl_append]
    exact hrest

/-- Restarts of an alpha that publishes are not seen in the marks it publishes. -/
theorem published_uninterrupted (hx : Publishes x) (o : Outbox) (b : Boot)
    (events : List ScanEvent)
    (hmeets : x.Along digest uuid4 env (x.Meets digest uuid4 env) (newAlpha o b) events) :
    (x.run digest uuid4 env (newAlpha o b) events).published =
      (x.run digest uuid4 env (newAlpha o b) (uninterrupted events)).published :=
  (Alike.run hx (.refl _) (stored_newAlpha o b) hmeets).published

end Runs

/-- A restart after the first mark. -/
theorem published_uninterrupted_sleeve :
    (sleeveRun 1 [.scan (sleeveScan 1 100), .scan (sleeveScan 2 110),
      .restart { warm := some 7200000 }, .scan (sleeveScan 3 121)]).published =
    (sleeveRun 1 [.scan (sleeveScan 1 100), .scan (sleeveScan 2 110),
      .scan (sleeveScan 3 121)]).published := by
  refine published_uninterrupted ⟨rfl, rfl⟩ { dispatcher := {} } { warm := some 0 }
    [.scan (sleeveScan 1 100), .scan (sleeveScan 2 110), .restart { warm := some 7200000 },
      .scan (sleeveScan 3 121)] ⟨⟨rfl, .applied 3600000, ?_⟩, ⟨rfl, .applied 7200000, ?_⟩,
      ⟨⟨?_, .inr ⟨?_, Table.ext ?_⟩⟩, ⟨?_, Table.ext ?_, ?_⟩⟩, ⟨rfl, .applied 10800000, ?_⟩, trivial⟩ <;>
    decide +kernel

/-- A restart between the first book and the first mark: the process no longer knows the prices at
which the book was taken, and the first mark is lost. -/
theorem restart_loses_mark :
    (sleeveRun 1 [.scan (sleeveScan 1 100), .restart { warm := some 3600000 },
      .scan (sleeveScan 2 110)]).published.map ShadowPayload.equity = [] ∧
    (sleeveRun 1 [.scan (sleeveScan 1 100), .scan (sleeveScan 2 110)]).published.map
      ShadowPayload.equity = [.fin (11 / 10)] := by
  decide +kernel

end Scanner

end PaperTrade.Runner
