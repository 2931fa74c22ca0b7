import PaperTrade.PortfolioManager.Service

/-!
# The book follows the target

A cycle of the portfolio publishes signals for the book that the worker has published, and the worker
processes them in order. The book that this leaves is on the side of the target in every symbol, and a
position that was on its side before is still the same position, whatever the target weight has become
(`cycles_converge`).
-/

namespace PaperTrade.PortfolioManager

open PaperTrade.Runtime PaperTrade.Worker PaperTrade.Base

/-! ## Published positions -/

section Published

variable {row : PositionRow} {target : Dict String ℚ}

/-- A weight is recorded in front of everything else. -/
def Weighed (row : PositionRow) : Prop :=
  ∃ w rest, row.metadata.loadsOrEmpty = some (.obj (("weight", w) :: rest))

/-- No published position has a weight that the service can read. -/
lemma positionWeight_published (h : Weighed row) :
    positionWeight (publishedPosition row).entries = none := by
  obtain ⟨w, rest, hloads⟩ := h
  have hmetadata : Entries.get? (publishedPosition row).entries "metadata" =
      some (.obj (("weight", w) :: rest)) := by
    show some (publishedMetadata row.metadata) = _
    rw [publishedMetadata, hloads, Option.getD_some]
  have hweight : Entries.get? (publishedPosition row).entries "weight" = none := rfl
  unfold positionWeight
  rw [hweight, hmetadata, Option.getD_some, loads_pyStr_obj "weight" w rest (by decide)]
  rfl

lemma side_published : strItemOr (publishedPosition row).entries "side" "" = row.side := rfl

/-- A published position is closed exactly when it is not on the side of its target. -/
lemma closesPosition_published (h : Weighed row) (symbol : String) :
    closesPosition target (symbol, (publishedPosition row).entries) = true ↔
      targetSide (targetWeight target symbol) ≠ row.side := by
  simp [closesPosition, positionWeight_published h, side_published]

end Published

/-! ## Books -/

/-- A book that only the service has written. -/
structure Owned (alphaId : String) (s : Tables) : Prop where
  sound : ∀ p ∈ s.positions.rows, p.alphaId = alphaId → Sound s p
  single : ∀ p ∈ s.positions.rows, ∀ p' ∈ s.positions.rows, p.alphaId = alphaId →
    p'.alphaId = alphaId → p.symbol = p'.symbol → p = p'
  named : ∀ p ∈ s.positions.rows, p.alphaId = alphaId → p.symbol ≠ ""
  sided : ∀ p ∈ s.positions.rows, p.alphaId = alphaId → p.side = "LONG" ∨ p.side = "SHORT"
  weighed : ∀ p ∈ s.positions.rows, p.alphaId = alphaId → Weighed p

section Owned

variable {alphaId : String} {s s' : Tables}

lemma Owned.congr (h : Owned alphaId s) (hpositions : s'.positions = s.positions)
    (htrades : s'.trades = s.trades) : Owned alphaId s' := by
  have hsound : ∀ p ∈ s.positions.rows, p.alphaId = alphaId → Sound s' p := fun p hp ha => by
    obtain ⟨hq, he, ho, hu⟩ := h.sound p hp ha
    exact ⟨hq, he, ho, by rwa [htrades]⟩
  constructor <;> rw [hpositions]
  · exact hsound
  · exact h.single
  · exact h.named
  · exact h.sided
  · exact h.weighed

lemma Owned.closed (h : Owned alphaId s) {p : PositionRow} {data : RawSignal}
    (hclosed : WholeClosed s s' p data) : Owned alphaId s' := by
  obtain ⟨trade, htid, htrades⟩ := hclosed.trades
  have hmem : ∀ q, q ∈ s'.positions.rows ↔ q ∈ s.positions.rows ∧ q.positionId ≠ p.positionId := by
    intro q
    rw [hclosed.positions]
    exact s.positions.mem_erase _ _
  refine ⟨fun q hq ha => ?_, fun q hq q' hq' => ?_, fun q hq => ?_, fun q hq => ?_, fun q hq => ?_⟩
  · obtain ⟨hq, hne⟩ := (hmem q).mp hq
    obtain ⟨hqty, he, ho, hu⟩ := h.sound q hq ha
    refine ⟨hqty, he, ho, ?_⟩
    rw [Table.contains_of_append htrades, hu, htid]
    simpa using hne.symm
  · exact h.single q ((hmem q).mp hq).1 q' ((hmem q').mp hq').1
  · exact h.named q ((hmem q).mp hq).1
  · exact h.sided q ((hmem q).mp hq).1
  · exact h.weighed q ((hmem q).mp hq).1

lemma Owned.opened (h : Owned alphaId s) {row : PositionRow}
    (hpositions : s'.positions.rows = s.positions.rows ++ [row]) (htrades : s'.trades = s.trades)
    (hsound : Sound s row) (hunheld : ∀ p ∈ s.positions.rows, p.alphaId = alphaId →
      p.symbol ≠ row.symbol) (hnamed : row.symbol ≠ "")
    (hsided : row.side = "LONG" ∨ row.side = "SHORT") (hweighed : Weighed row) :
    Owned alphaId s' := by
  have hmem : ∀ q, q ∈ s'.positions.rows ↔ q ∈ s.positions.rows ∨ q = row := by
    intro q
    rw [hpositions, List.mem_append, List.mem_singleton]
  have hkeep : ∀ q, Sound s q → Sound s' q := fun q hq =>
    ⟨hq.qty, hq.entryPrice, hq.opened, by rw [htrades]; exact hq.untraded⟩
  refine ⟨fun q hq ha => ?_, fun q hq q' hq' ha ha' hsymbol => ?_, fun q hq ha => ?_,
    fun q hq ha => ?_, fun q hq ha => ?_⟩
  · rcases (hmem q).mp hq with hq | rfl
    · exact hkeep q (h.sound q hq ha)
    · exact hkeep q hsound
  · rcases (hmem q).mp hq with hq | rfl <;> rcases (hmem q').mp hq' with hq' | rfl
    · exact h.single q hq q' hq' ha ha' hsymbol
    · exact absurd hsymbol (hunheld q hq ha)
    · exact absurd hsymbol.symm (hunheld q' hq' ha')
    · rfl
  · rcases (hmem q).mp hq with hq | rfl
    · exact h.named q hq ha
    · exact hnamed
  · rcases (hmem q).mp hq with hq | rfl
    · exact h.sided q hq ha
    · exact hsided
  · rcases (hmem q).mp hq with hq | rfl
    · exact h.weighed q hq ha
    · exact hweighed

end Owned

/-! ## Cycles -/

/-- What a cycle works with: the target, the prices, and what the clock, the ids and the environment of
the worker contribute. -/
structure Cycle where
  revision : ℕ
  generatedAt : String
  target : Dict String ℚ
  prices : Dict String PyFloat
  closing : String → Stamp
  opening : String → Stamp
  env : RawSignal → Env

namespace PortfolioService

variable (self : PortfolioService) (ex : Executor)

/-- The snapshot that `publish_alpha` has written. -/
def snapshot (s : Tables) (c : Cycle) : PositionSnapshot :=
  ⟨self.alphaId, c.revision, c.generatedAt, (allOpenPositions s self.alphaId).map publishedPosition⟩

/-- What the cycle publishes. -/
def signals (s : Tables) (c : Cycle) : List RawSignal :=
  (self.reconcileAndPublish (some (.json (.obj (self.snapshot s c).entries))) c.target c.prices
    c.closing c.opening).getD []

/-- The database when the worker has processed it. -/
def after (s : Tables) (c : Cycle) : Tables :=
  deliverAll ex s ((self.signals s c).map fun data => ⟨data, c.env data⟩)

/-- The stamps are fresh, the times are aware and the fills are numbers. -/
structure CycleOk (ex : Executor) (s : Tables) (c : Cycle) : Prop where
  unseen : ∀ r ∈ s.signals, ∀ x, r.signalId ≠ (c.closing x).signalId ∧
    r.signalId ≠ (c.opening x).signalId
  closingIds : Function.Injective fun x => (c.closing x).signalId
  openingIds : Function.Injective fun x => (c.opening x).signalId
  distinctIds : ∀ x y, (c.closing x).signalId ≠ (c.opening y).signalId
  closes : ∀ p ∈ s.positions.rows, ∃ d, DateTime.parse (c.closing p.symbol).timestamp = some d ∧
    d.isAware = true ∧ (isTcbs (exchangeOr p.exchange) = true →
      ∀ opened, DateTime.parse p.openedAt = some opened → EndsInCalendar opened d)
  opens : ∀ x, ∃ d, DateTime.parse (c.opening x).timestamp = some d ∧ d.isAware = true
  named : ∀ x, (c.opening x).positionId ≠ ""
  positionIds : Function.Injective fun x => (c.opening x).positionId
  untaken : ∀ p ∈ s.positions.rows, ∀ x, p.positionId ≠ (c.opening x).positionId
  untraded : ∀ x, s.trades.contains (c.opening x).positionId = false
  targets : ∀ e ∈ c.target.rows, e.1 ≠ ""
  fills : ∀ data signal t, (∃ q, signal.entry = .fin q) →
    (ex.openFill signal (fillAt (c.env data) t (.open signal))).value ≠ .nan

/-! ## What the worker reads -/

section Parsing

variable {self} {stamp : Stamp}

/-- A published CLOSE, as the worker reads it. -/
lemma parseSignal_closeSignal (symbol : String) (p : PositionRow) :
    parseSignal (self.closeSignal stamp (symbol, (publishedPosition p).entries)) =
      .ok (.close ⟨self.alphaId, stamp.signalId, p.positionId, "PM_RECONCILE", stamp.timestamp, none,
        none, .chars "{}"⟩) := rfl

/-- The OPEN signal of a target. -/
def readOpen (self : PortfolioService) (stamp : Stamp) (symbol : String) (weight price : ℚ) :
    OpenSignal where
  alphaId := self.alphaId
  signalId := stamp.signalId
  symbol := symbol
  side := if 0 < weight then "LONG" else "SHORT"
  entry := .fin price
  qty := .fin (self.capital * |weight| / price)
  timestamp := stamp.timestamp
  tp := none
  sl := none
  leverage := 1
  metadata := .json (.obj [("weight", .float (.fin weight)), ("pm_alpha_id", .str self.alphaId)])
  positionId := stamp.positionId
  exchange := self.exchange
  feePct := self.feeBps / 10000

private lemma intOr_one : intOr 1 (some (.chars "1")) = .ok 1 := by
  have hone : (Text.chars "1").float? = some (.fin 1) := by decide +kernel
  have hempty : (Text.chars "1").isEmpty = false := by decide
  simp [intOr, optFloat, toFloat, hone, hempty, Except.map, bind, Except.bind]

/-- At a finite price the worker reads it. -/
lemma parseSignal_openSignal (symbol : String) (weight : ℚ) {price : ℚ} (hprice : price ≠ 0) :
    parseSignal (self.openSignal stamp symbol weight (.fin price)) =
      .ok (.open (self.readOpen stamp symbol weight price)) := by
  have hparse : parseOpen (self.openSignal stamp symbol weight (.fin price)) =
      .ok (self.readOpen stamp symbol weight price) := by
    simp only [parseOpen, openSignal, required, optFiniteFloat, optFloat, floatOrZero, toFloat,
      Text.float?_num, Text.isEmpty, PyFloat.div_fin _ hprice, intOr_one, Bool.false_eq_true, if_false,
      Except.map, bind, Except.bind, pure, Except.pure, Option.getD_some]
    rfl
  show (parseOpen _).map Signal.open = _
  rw [hparse]
  rfl

/-- At any other price it is refused. -/
lemma parseSignal_openSignal_error (self : PortfolioService) (stamp : Stamp) (symbol : String)
    (weight : ℚ) {price : PyFloat}
    (hprice : ∀ q, price ≠ .fin q) :
    ∃ e, parseSignal (self.openSignal stamp symbol weight price) = .error e := by
  have hparse : ∃ e, parseOpen (self.openSignal stamp symbol weight price) = .error e := by
    refine ⟨.nonFinite "OPEN" "entry" symbol (.num price), ?_⟩
    cases price with
    | fin q => exact absurd rfl (hprice q)
    | nan => rfl
    | inf negative => rfl
  obtain ⟨e, he⟩ := hparse
  refine ⟨e, ?_⟩
  show (parseOpen _).map Signal.open = _
  rw [he]
  rfl

end Parsing

/-! ## What the service reads -/

section Reading

variable {self} {s : Tables} {c : Cycle}

lemma mem_allOpenPositions {alphaId : String} (halpha : alphaId ≠ "") {p : PositionRow} :
    p ∈ allOpenPositions s alphaId ↔ p ∈ s.positions.rows ∧ p.alphaId = alphaId := by
  simp [allOpenPositions, List.mem_mergeSort, halpha]

lemma readSnapshot_snapshot : readSnapshot (some (.json (.obj (self.snapshot s c).entries))) =
    some ((allOpenPositions s self.alphaId).map fun p => (publishedPosition p).entries) := by
  have hitems : ((self.snapshot s c).positions.map fun p => Json.obj p.entries).filterMap
      Json.entries? = (self.snapshot s c).positions.map fun p => p.entries := by
    rw [List.filterMap_map]
    exact congrFun List.filterMap_eq_map' _
  show some (((self.snapshot s c).positions.map fun p => Json.obj p.entries).filterMap
    Json.entries?) = _
  rw [hitems]
  show some (((allOpenPositions s self.alphaId).map publishedPosition).map _) = _
  rw [List.map_map]
  rfl

/-- The positions that a cycle finds. -/
def current (self : PortfolioService) (s : Tables) : Dict String Entries :=
  currentBySymbol ((allOpenPositions s self.alphaId).map fun p => (publishedPosition p).entries)

/-- A position of the book is found under its symbol, and nothing else is. -/
lemma mem_current (howned : Owned self.alphaId s) (halpha : self.alphaId ≠ "") {e : String × Entries} :
    e ∈ (self.current s).rows ↔ ∃ p ∈ s.positions.rows, p.alphaId = self.alphaId ∧
      e = (p.symbol, (publishedPosition p).entries) := by
  have hkey : ∀ p ∈ s.positions.rows, p.alphaId = self.alphaId →
      ((Entries.get? (publishedPosition p).entries "symbol").filter Json.truthy).map
        (fun symbol => (strOf symbol, (publishedPosition p).entries)) =
        some (p.symbol, (publishedPosition p).entries) := by
    intro p hp ha
    have htruthy : (Json.str p.symbol).truthy = true := by
      simpa [Json.truthy] using howned.named p hp ha
    show ((some (Json.str p.symbol)).filter Json.truthy).map _ = _
    rw [Option.filter_some, if_pos htruthy]
    rfl
  have horigin : ∀ e ∈ (self.current s).rows, ∃ p ∈ s.positions.rows, p.alphaId = self.alphaId ∧
      e = (p.symbol, (publishedPosition p).entries) := by
    intro e he
    obtain ⟨entries, hentries, hsome⟩ := Dict.mem_collect _ he
    obtain ⟨p, hp, rfl⟩ := List.mem_map.mp hentries
    obtain ⟨hp, ha⟩ := (mem_allOpenPositions halpha).mp hp
    rw [hkey p hp ha] at hsome
    exact ⟨p, hp, ha, (Option.some.inj hsome).symm⟩
  refine ⟨horigin e, ?_⟩
  rintro ⟨p, hp, ha, rfl⟩
  have hcontains : (self.current s).contains p.symbol = true :=
    (Dict.contains_collect _ _ _).mpr ⟨_, List.mem_map.mpr
      ⟨p, (mem_allOpenPositions halpha).mpr ⟨hp, ha⟩, rfl⟩, _, hkey p hp ha⟩
  obtain ⟨e, he, hsymbol⟩ := (Table.contains_iff _ _).mp hcontains
  obtain ⟨p', hp', ha', rfl⟩ := horigin e he
  obtain rfl := howned.single p' hp' p hp ha' ha hsymbol
  exact he

lemma signals_eq : self.signals s c =
    ((self.current s).rows.filter (closesPosition c.target)).map
        (fun e => self.closeSignal (c.closing e.1) e) ++
      c.target.rows.filterMap (self.openTarget c.target c.prices (self.current s) c.opening) := by
  unfold signals reconcileAndPublish
  rw [readSnapshot_snapshot]
  rfl

end Reading

/-! ## The closes -/

section Closes

variable {self ex} {s s' : Tables} {c : Cycle}

/-- The message of a CLOSE. -/
def closeDelivery (self : PortfolioService) (c : Cycle) (e : String × Entries) : Delivery :=
  ⟨self.closeSignal (c.closing e.1) e, c.env (self.closeSignal (c.closing e.1) e)⟩

/-- What the closes of these symbols leave. -/
structure ClosedAll (service : PortfolioService) (c : Cycle) (symbols : List String)
    (s s' : Tables) : Prop where
  owned : Owned service.alphaId s'
  positions : ∀ p, p ∈ s'.positions.rows ↔
    p ∈ s.positions.rows ∧ ¬ (p.alphaId = service.alphaId ∧ p.symbol ∈ symbols)
  trades : ∀ id, s'.trades.contains id = true → s.trades.contains id = true ∨
    ∃ p ∈ s.positions.rows, p.positionId = id
  signals : ∀ r ∈ s'.signals, r ∈ s.signals ∨ ∃ x, r.signalId = (c.closing x).signalId

lemma closes_run (es : List (String × Entries)) (howned : Owned self.alphaId s)
    (hids : Function.Injective fun x => (c.closing x).signalId) (hnodup : (es.map Prod.fst).Nodup)
    (hlisted : ∀ e ∈ es, ∃ p ∈ s.positions.rows, p.alphaId = self.alphaId ∧
      e = (p.symbol, (publishedPosition p).entries))
    (hunseen : ∀ e ∈ es, ∀ r ∈ s.signals, r.signalId ≠ (c.closing e.1).signalId)
    (htimes : ∀ p ∈ s.positions.rows, ∃ d,
      DateTime.parse (c.closing p.symbol).timestamp = some d ∧ d.isAware = true ∧
        (isTcbs (exchangeOr p.exchange) = true →
          ∀ opened, DateTime.parse p.openedAt = some opened → EndsInCalendar opened d)) :
    ClosedAll self c (es.map Prod.fst) s (deliverAll ex s (es.map (self.closeDelivery c))) := by
  induction es generalizing s with
  | nil => exact ⟨howned, fun p => by simp [deliverAll], fun id h => .inl h, fun r h => .inl h⟩
  | cons e es ih =>
    obtain ⟨hfresh, hdistinct⟩ := List.nodup_cons.mp hnodup
    obtain ⟨⟨q, hq, hqa, rfl⟩, hrest⟩ := List.forall_mem_cons.mp hlisted
    obtain ⟨hunseenFirst, hunseenRest⟩ := List.forall_mem_cons.mp hunseen
    obtain ⟨x, hx⟩ := (howned.sound q hq hqa).entryPrice
    have hclosed : WholeClosed s
        (deliver ex s (self.closeDelivery c (q.symbol, (publishedPosition q).entries))) q
        (self.closeDelivery c (q.symbol, (publishedPosition q).entries)).data :=
      deliver_wholeClose hq (howned.sound q hq hqa)
        ⟨parseSignal_closeSignal q.symbol q, rfl, rfl, ⟨x, hx⟩, htimes q hq, hunseenFirst⟩
    set next := deliver ex s (self.closeDelivery c (q.symbol, (publishedPosition q).entries))
    have hmem : ∀ p, p ∈ next.positions.rows ↔
        p ∈ s.positions.rows ∧ ¬ (p.alphaId = self.alphaId ∧ p.symbol = q.symbol) := by
      intro p
      rw [hclosed.positions, Table.mem_erase]
      refine and_congr_right fun hp => not_congr ⟨fun hid => ?_, fun h => ?_⟩
      · obtain rfl := s.positions.eq_of_key_eq hp hq hid
        exact ⟨hqa, rfl⟩
      · rw [howned.single p hp q hq h.1 hqa h.2]
    obtain ⟨row, hrow, hsignals⟩ := hclosed.signals
    obtain ⟨trade, htid, htrades⟩ := hclosed.trades
    have hnext := ih (howned.closed hclosed) hdistinct
      (fun e' he' => by
        obtain ⟨p, hp, ha, rfl⟩ := hrest e' he'
        refine ⟨p, (hmem p).mpr ⟨hp, fun hsame => hfresh ?_⟩, ha, rfl⟩
        exact List.mem_map.mpr ⟨_, he', hsame.2⟩)
      (fun e' he' r hr => by
        rw [hsignals, List.mem_append, List.mem_singleton] at hr
        rcases hr with hr | rfl
        · exact hunseenRest e' he' r hr
        · rw [hrow]
          intro hsame
          refine hfresh (List.mem_map.mpr ⟨e', he', (hids ?_).symm⟩)
          exact hsame)
      (fun p hp => htimes p ((hmem p).mp hp).1)
    refine ⟨hnext.owned, fun p => ?_, fun id hid => ?_, fun r hr => ?_⟩
    · refine (hnext.positions p).trans ?_
      rw [hmem p, List.map_cons, List.mem_cons]
      tauto
    · rcases hnext.trades id hid with hid | ⟨p, hp, hpid⟩
      · rw [Table.contains_of_append htrades, htid, Bool.or_eq_true] at hid
        rcases hid with hid | hid
        · exact .inl hid
        · exact .inr ⟨q, hq, by simpa using hid⟩
      · exact .inr ⟨p, ((hmem p).mp hp).1, hpid⟩
    · rcases hnext.signals r hr with hr | hr
      · rw [hsignals, List.mem_append, List.mem_singleton] at hr
        rcases hr with hr | rfl
        · exact .inl hr
        · exact .inr ⟨q.symbol, hrow⟩
      · exact .inr hr

end Closes

/-! ## The opens -/

section Opens

variable {self ex} {s s' : Tables} {c : Cycle} {current : Dict String Entries}

/-- The message of an OPEN. -/
def openDelivery (self : PortfolioService) (c : Cycle) (e : String × ℚ) (price : PyFloat) : Delivery :=
  ⟨self.openSignal (c.opening e.1) e.1 e.2 price,
    c.env (self.openSignal (c.opening e.1) e.1 e.2 price)⟩

/-- The position that an OPEN makes. -/
def openedRow (self : PortfolioService) (ex : Executor) (c : Cycle) (e : String × ℚ) (price : ℚ) :
    PositionRow :=
  let signal := self.readOpen (c.opening e.1) e.1 e.2 price
  ex.openRow (self.openDelivery c e (.fin price)).env signal
    (fillAt (self.openDelivery c e (.fin price)).env .empty (.open signal))

/-- The target is opened at this price. -/
def Opens (c : Cycle) (current : Dict String Entries) (e : String × ℚ) (price : ℚ) : Prop :=
  e.2 ≠ 0 ∧ heldOnSide c.target current e = false ∧ c.prices.get? e.1 = some (.fin price) ∧ 0 < price

/-- The fill of an OPEN depends on no table. -/
lemma fillAt_open (env : Env) (t t' : Tables) (signal : OpenSignal) :
    fillAt env t (.open signal) = fillAt env t' (.open signal) := by
  unfold fillAt
  cases env.fill <;> rfl

/-- What the loop over the target publishes for a symbol. -/
lemma openTarget_cases (self : PortfolioService) (c : Cycle) (current : Dict String Entries)
    (e : String × ℚ) :
    (self.openTarget c.target c.prices current c.opening e = none ∧ ∀ q, ¬ Opens c current e q) ∨
      ∃ price, self.openTarget c.target c.prices current c.opening e =
        some (self.openSignal (c.opening e.1) e.1 e.2 price) ∧ e.2 ≠ 0 ∧
        heldOnSide c.target current e = false ∧
        ((∃ q, price = .fin q ∧ 0 < q ∧ c.prices.get? e.1 = some (.fin q)) ∨
          ((∀ q, price ≠ .fin q) ∧ ∀ q, ¬ Opens c current e q)) := by
  have hnone : ∀ q price, c.prices.get? e.1 = price → price ≠ some (.fin q) → ¬ Opens c current e q :=
    fun q price hprice hne h => hne (hprice.symm.trans h.2.2.1)
  unfold openTarget
  by_cases hzero : e.2 = 0
  · rw [if_pos hzero]
    exact .inl ⟨rfl, fun q h => h.1 hzero⟩
  rw [if_neg hzero]
  by_cases hheld : heldOnSide c.target current e = true
  · rw [if_pos hheld]
    exact .inl ⟨rfl, fun q h => absurd (hheld.symm.trans h.2.1) (by decide)⟩
  rw [if_neg hheld]
  rw [Bool.not_eq_true] at hheld
  rcases hprice : c.prices.get? e.1 with _ | price
  · have hle : (0 : PyFloat) ≤ 0 := (PyFloat.fin_le_fin 0 0).mpr le_rfl
    exact .inl ⟨if_pos hle, fun q => hnone q none hprice (by simp)⟩
  dsimp only [Option.getD_some]
  by_cases hle : price ≤ 0
  · refine .inl ⟨if_pos hle, fun q h => ?_⟩
    obtain rfl : price = .fin q := Option.some.inj (hprice.symm.trans h.2.2.1)
    rw [PyFloat.zero_eq, PyFloat.fin_le_fin] at hle
    exact absurd h.2.2.2 hle.not_gt
  · refine .inr ⟨price, if_neg hle, hzero, hheld, ?_⟩
    by_cases hfinite : ∃ q, price = .fin q
    · obtain ⟨q, rfl⟩ := hfinite
      rw [PyFloat.zero_eq, PyFloat.fin_le_fin, not_le] at hle
      exact .inl ⟨q, rfl, hle, rfl⟩
    · refine .inr ⟨fun q hq => hfinite ⟨q, hq⟩, fun q => hnone q (some price) hprice fun hq => ?_⟩
      exact hfinite ⟨q, Option.some.inj hq⟩

/-- The position of a target can be closed again. -/
lemma sound_openedRow (hok : CycleOk ex s c) (hcapital : 0 < self.capital) {e : String × ℚ} {q : ℚ}
    (hweight : e.2 ≠ 0) (hq : 0 < q) {t : Tables}
    (huntraded : t.trades.contains (c.opening e.1).positionId = false) :
    Sound t (self.openedRow ex c e q) := by
  have hid : (self.openedRow ex c e q).positionId = (c.opening e.1).positionId :=
    if_neg (hok.named e.1)
  refine ⟨⟨self.capital * |e.2| / q, rfl, by positivity⟩, ?_, hok.opens e.1, by rw [hid]; exact huntraded⟩
  have hfill := hok.fills (self.openDelivery c e (.fin q)).data
    (self.readOpen (c.opening e.1) e.1 e.2 q) .empty ⟨q, rfl⟩
  exact ⟨_, real_of_ne_nan hfill⟩

lemma weighed_openedRow (e : String × ℚ) (q : ℚ) : Weighed (self.openedRow ex c e q) := by
  obtain ⟨v, rest, hupdate⟩ := Entries.update_cons_key [("pm_alpha_id", .str self.alphaId)]
    ([("decision_price", .float (.fin q)), ("recorded_fill_price",
      .float (ex.openFill (self.readOpen (c.opening e.1) e.1 e.2 q)
        (fillAt (self.openDelivery c e (.fin q)).env .empty
          (.open (self.readOpen (c.opening e.1) e.1 e.2 q)))).value)] ++
      (ex.openFill (self.readOpen (c.opening e.1) e.1 e.2 q)
        (fillAt (self.openDelivery c e (.fin q)).env .empty
          (.open (self.readOpen (c.opening e.1) e.1 e.2 q)))).executionMetadata)
    "weight" (.float (.fin e.2))
  exact ⟨v, rest, congrArg (fun d => some (Json.obj d)) hupdate⟩

/-- What the opens of these targets leave. -/
structure OpenedAll (service : PortfolioService) (ex : Executor) (c : Cycle)
    (current : Dict String Entries) (ts : List (String × ℚ)) (s s' : Tables) : Prop where
  owned : Owned service.alphaId s'
  positions : ∀ p, p ∈ s'.positions.rows ↔ p ∈ s.positions.rows ∨
    ∃ e ∈ ts, ∃ q, Opens c current e q ∧ p = service.openedRow ex c e q

/-- What the opens still to come need of the state that they find. -/
structure Openable (service : PortfolioService) (c : Cycle) (current : Dict String Entries)
    (ts : List (String × ℚ)) (s : Tables) : Prop where
  nodup : (ts.map Prod.fst).Nodup
  named : ∀ e ∈ ts, e.1 ≠ ""
  unheld : ∀ e ∈ ts, e.2 ≠ 0 → heldOnSide c.target current e = false →
    ∀ p ∈ s.positions.rows, p.alphaId = service.alphaId → p.symbol ≠ e.1
  unseen : ∀ e ∈ ts, ∀ r ∈ s.signals, r.signalId ≠ (c.opening e.1).signalId
  untaken : ∀ e ∈ ts, ∀ p ∈ s.positions.rows, p.positionId ≠ (c.opening e.1).positionId
  untraded : ∀ e ∈ ts, s.trades.contains (c.opening e.1).positionId = false

lemma Openable.tail {e : String × ℚ} {ts : List (String × ℚ)} (h : Openable self c current (e :: ts) s)
    (hids : Function.Injective fun x => (c.opening x).signalId)
    (hpositionIds : Function.Injective fun x => (c.opening x).positionId)
    (hpositions : ∀ p ∈ s'.positions.rows, p ∈ s.positions.rows ∨
      (p.symbol = e.1 ∧ p.positionId = (c.opening e.1).positionId))
    (htrades : s'.trades = s.trades)
    (hsignals : ∀ r ∈ s'.signals, r ∈ s.signals ∨ r.signalId = (c.opening e.1).signalId) :
    Openable self c current ts s' := by
  obtain ⟨hfresh, hdistinct⟩ := List.nodup_cons.mp h.nodup
  have hother : ∀ e' ∈ ts, e'.1 ≠ e.1 := fun e' he' hsame =>
    hfresh (List.mem_map.mpr ⟨e', he', hsame⟩)
  have htail : ∀ e' ∈ ts, e' ∈ e :: ts := fun e' he' => List.mem_cons_of_mem _ he'
  refine ⟨hdistinct, fun e' he' => h.named e' (htail e' he'), fun e' he' hw hheld p hp ha => ?_,
    fun e' he' r hr => ?_, fun e' he' p hp => ?_, fun e' he' => ?_⟩
  · rcases hpositions p hp with hp | ⟨hsymbol, -⟩
    · exact h.unheld e' (htail e' he') hw hheld p hp ha
    · rw [hsymbol]
      exact (hother e' he').symm
  · rcases hsignals r hr with hr | hid
    · exact h.unseen e' (htail e' he') r hr
    · rw [hid]
      exact fun hsame => hother e' he' (hids hsame).symm
  · rcases hpositions p hp with hp | ⟨-, hid⟩
    · exact h.untaken e' (htail e' he') p hp
    · rw [hid]
      exact fun hsame => hother e' he' (hpositionIds hsame).symm
  · rw [htrades]
    exact h.untraded e' (htail e' he')

lemma opens_run (ex : Executor) {s₀ : Tables} (hok : CycleOk ex s₀ c) (hcapital : 0 < self.capital)
    (ts : List (String × ℚ)) (howned : Owned self.alphaId s) (hopenable : Openable self c current ts s) :
    OpenedAll self ex c current ts s (deliverAll ex s
      ((ts.filterMap (self.openTarget c.target c.prices current c.opening)).map
        fun data => ⟨data, c.env data⟩)) := by
  induction ts generalizing s with
  | nil => exact ⟨howned, fun p => by simp [deliverAll]⟩
  | cons e ts ih =>
    have hmem := List.mem_cons_self (a := e) (l := ts)
    have hskip : ∀ next : Tables, next.positions = s.positions → next.trades = s.trades →
        (∀ r ∈ next.signals, r ∈ s.signals ∨ r.signalId = (c.opening e.1).signalId) →
        (∀ q, ¬ Opens c current e q) →
        OpenedAll self ex c current (e :: ts) s (deliverAll ex next
          ((ts.filterMap (self.openTarget c.target c.prices current c.opening)).map
            fun data => ⟨data, c.env data⟩)) := by
      intro next hpositions htrades hsignals hnone
      have hnext := ih (howned.congr hpositions htrades) (hopenable.tail hok.openingIds hok.positionIds
        (fun p hp => .inl (hpositions ▸ hp)) htrades hsignals)
      refine ⟨hnext.owned, fun p => (hnext.positions p).trans ?_⟩
      rw [hpositions]
      refine or_congr_right ⟨?_, ?_⟩
      · rintro ⟨e', he', h⟩
        exact ⟨e', List.mem_cons_of_mem _ he', h⟩
      · rintro ⟨e', he', q, hopens, hp⟩
        rcases List.mem_cons.mp he' with rfl | he'
        · exact absurd hopens (hnone q)
        · exact ⟨e', he', q, hopens, hp⟩
    rcases openTarget_cases self c current e with
      ⟨hnone, hclosed⟩ | ⟨price, hsome, hweight, hheld, hprice⟩
    · rw [List.filterMap_cons_none hnone]
      exact hskip s rfl rfl (fun r hr => .inl hr) hclosed
    · rw [List.filterMap_cons_some hsome]
      have hunseen : Unseen s (self.openSignal (c.opening e.1) e.1 e.2 price) := hopenable.unseen e hmem
      rcases hprice with ⟨q, rfl, hq, hget⟩ | ⟨hinfinite, hclosed⟩
      · -- the position is opened
        have hunheld := hopenable.unheld e hmem hweight hheld
        have hrow : ex.openRow (self.openDelivery c e (.fin q)).env
            (self.readOpen (c.opening e.1) e.1 e.2 q)
            (fillAt (self.openDelivery c e (.fin q)).env s
              (.open (self.readOpen (c.opening e.1) e.1 e.2 q))) = self.openedRow ex c e q := by
          rw [fillAt_open _ s .empty]
          rfl
        have hid : (self.openedRow ex c e q).positionId = (c.opening e.1).positionId :=
          if_neg (hok.named e.1)
        have hfresh : FreshOpen ex s (self.openDelivery c e (.fin q))
            (self.readOpen (c.opening e.1) e.1 e.2 q) := by
          refine ⟨parseSignal_openSignal e.1 e.2 hq.ne', hunheld, (by decide : fitsInt64 1 = true),
            fun p hp => ?_, hunseen⟩
          rw [hrow, hid]
          exact hopenable.untaken e hmem p hp
        have hopened := deliver_freshOpen hfresh
        rw [List.map_cons]
        show OpenedAll self ex c current (e :: ts) s (deliverAll ex
          (deliver ex s (self.openDelivery c e (.fin q))) _)
        set next := deliver ex s (self.openDelivery c e (.fin q))
        have hpositions : next.positions.rows = s.positions.rows ++ [self.openedRow ex c e q] := by
          rw [← hrow]
          exact hopened.positions
        obtain ⟨row, hrowId, hsignals⟩ := hopened.signals
        have hside : (self.openedRow ex c e q).side = "LONG" ∨
            (self.openedRow ex c e q).side = "SHORT" := by
          show (if 0 < e.2 then "LONG" else "SHORT") = _ ∨ (if 0 < e.2 then "LONG" else "SHORT") = _
          split <;> simp
        have hnext := ih (howned.opened hpositions hopened.trades
            (sound_openedRow hok hcapital hweight hq (hopenable.untraded e hmem)) hunheld
            (hopenable.named e hmem) hside (weighed_openedRow e q))
          (hopenable.tail hok.openingIds hok.positionIds (fun p hp => by
            rw [hpositions, List.mem_append, List.mem_singleton] at hp
            refine hp.imp_right ?_
            rintro rfl
            exact ⟨rfl, hid⟩) hopened.trades (fun r hr => by
            rw [hsignals, List.mem_append, List.mem_singleton] at hr
            refine hr.imp_right ?_
            rintro rfl
            exact hrowId))
        refine ⟨hnext.owned, fun p => (hnext.positions p).trans ?_⟩
        rw [hpositions, List.mem_append, List.mem_singleton, or_assoc]
        refine or_congr_right ⟨?_, ?_⟩
        · rintro (rfl | ⟨e', he', h⟩)
          · exact ⟨e, hmem, q, ⟨hweight, hheld, hget, hq⟩, rfl⟩
          · exact ⟨e', List.mem_cons_of_mem _ he', h⟩
        · rintro ⟨e', he', q', hopens, rfl⟩
          rcases List.mem_cons.mp he' with rfl | he'
          · obtain rfl : q = q' := by
              have hsame := hget.symm.trans hopens.2.2.1
              cases hsame
              rfl
            exact .inl rfl
          · exact .inr ⟨e', he', q', hopens, rfl⟩
      · -- the worker refuses a price that is not finite
        obtain ⟨err, herr⟩ := parseSignal_openSignal_error self (c.opening e.1) e.1 e.2 hinfinite
        rw [List.map_cons]
        show OpenedAll self ex c current (e :: ts) s (deliverAll ex
          (deliver ex s (self.openDelivery c e price)) _)
        obtain ⟨hpositions, htrades, row, hrowId, hsignals⟩ :=
          deliver_refused ex (self.openDelivery c e price) herr hunseen
        refine hskip _ hpositions htrades (fun r hr => ?_) hclosed
        rw [hsignals, List.mem_append, List.mem_singleton] at hr
        refine hr.imp_right ?_
        rintro rfl
        exact hrowId

end Opens

/-! ## A cycle -/

section Converged

variable {self ex} {s : Tables} {c : Cycle}

/-- The book after a cycle. -/
structure Converged (service : PortfolioService) (c : Cycle) (s s' : Tables) : Prop where
  /-- Every position is on the side of its target; without a target there is none. -/
  sides : ∀ p ∈ s'.positions.rows, p.alphaId = service.alphaId →
    targetSide (targetWeight c.target p.symbol) = p.side
  /-- A position that was on its side is the same row, whatever the weight is. -/
  kept : ∀ p ∈ s.positions.rows, p.alphaId = service.alphaId →
    targetSide (targetWeight c.target p.symbol) = p.side → p ∈ s'.positions.rows
  /-- A target with a price is held. -/
  filled : ∀ e ∈ c.target.rows, e.2 ≠ 0 → (∃ q, c.prices.get? e.1 = some (.fin q) ∧ 0 < q) →
    ∃ p ∈ s'.positions.rows, p.alphaId = service.alphaId ∧ p.symbol = e.1
  /-- A new position has the quantity of its target. -/
  sized : ∀ p ∈ s'.positions.rows, p.alphaId = service.alphaId → p ∉ s.positions.rows →
    ∃ e ∈ c.target.rows, e.2 ≠ 0 ∧ e.1 = p.symbol ∧ ∃ q, 0 < q ∧
      c.prices.get? e.1 = some (.fin q) ∧ p.qty = some (.fin (service.capital * |e.2| / q))
  /-- The positions of the other alphas are the same. -/
  others : ∀ p : PositionRow, p.alphaId ≠ service.alphaId →
    (p ∈ s'.positions.rows ↔ p ∈ s.positions.rows)

lemma targetWeight_of_mem {target : Dict String ℚ} {e : String × ℚ} (he : e ∈ target.rows) :
    targetWeight target e.1 = e.2 := by
  rw [targetWeight, (target.get?_some_iff e.1 e.2).mpr he, Option.getD_some]

lemma targetSide_of_ne_zero {weight : ℚ} (h : weight ≠ 0) :
    targetSide weight = if 0 < weight then "LONG" else "SHORT" := by
  unfold targetSide
  rcases lt_or_gt_of_ne h with hneg | hpos
  · rw [if_neg hneg.not_gt, if_pos hneg, if_neg hneg.not_gt]
  · rw [if_pos hpos, if_pos hpos]

/-- A target is held on its side when a position of the book is. -/
lemma heldOnSide_of_mem (howned : Owned self.alphaId s) (halpha : self.alphaId ≠ "")
    {e : String × ℚ} (he : e ∈ c.target.rows) (hweight : e.2 ≠ 0) {p : PositionRow}
    (hp : p ∈ s.positions.rows) (ha : p.alphaId = self.alphaId) (hsymbol : p.symbol = e.1)
    (hside : targetSide e.2 = p.side) : heldOnSide c.target (self.current s) e = true := by
  have hget : (self.current s).get? e.1 = some (publishedPosition p).entries := by
    rw [Dict.get?_some_iff, ← hsymbol]
    exact (mem_current howned halpha).mpr ⟨p, hp, ha, rfl⟩
  have hopen : closesPosition c.target (e.1, (publishedPosition p).entries) = false := by
    rw [Bool.eq_false_iff, Ne, closesPosition_published (howned.weighed p hp ha),
      targetWeight_of_mem he, not_not]
    exact hside
  have hstr : strOf (getOrNone (publishedPosition p).entries "side") = p.side := rfl
  rw [heldOnSide, hget]
  simp only [hopen, hstr, ← hside, targetSide_of_ne_zero hweight]
  simp

lemma mem_of_heldOnSide (howned : Owned self.alphaId s) (halpha : self.alphaId ≠ "")
    {e : String × ℚ} (he : e ∈ c.target.rows)
    (hheld : heldOnSide c.target (self.current s) e = true) :
    ∃ p ∈ s.positions.rows, p.alphaId = self.alphaId ∧ p.symbol = e.1 ∧ targetSide e.2 = p.side := by
  unfold heldOnSide at hheld
  split at hheld
  · cases hheld
  · rename_i position hget
    obtain ⟨p, hp, ha, heq⟩ := (mem_current howned halpha).mp ((Dict.get?_some_iff _ _ _).mp hget)
    obtain ⟨hsymbol, rfl⟩ := Prod.mk.injEq .. ▸ heq
    refine ⟨p, hp, ha, hsymbol.symm, ?_⟩
    rw [Bool.and_eq_true, Bool.not_eq_true', Bool.eq_false_iff, Ne,
      closesPosition_published (howned.weighed p hp ha), targetWeight_of_mem he, not_not] at hheld
    exact hheld.1

/-- One cycle of the service and its processing by the worker. -/
lemma cycle_converges (howned : Owned self.alphaId s) (halpha : self.alphaId ≠ "")
    (hcapital : 0 < self.capital) (hok : CycleOk ex s c) :
    Owned self.alphaId (self.after ex s c) ∧ Converged self c s (self.after ex s c) := by
  set closing := (self.current s).rows.filter (closesPosition c.target) with hclosing
  set mid := deliverAll ex s (closing.map (self.closeDelivery c)) with hmid
  have hafter : self.after ex s c = deliverAll ex mid
      ((c.target.rows.filterMap (self.openTarget c.target c.prices (self.current s) c.opening)).map
        fun data => ⟨data, c.env data⟩) := by
    rw [after, signals_eq, List.map_append, List.map_map, deliverAll, List.foldl_append]
    rfl
  have hclosed : ClosedAll self c (closing.map Prod.fst) s mid := by
    refine closes_run closing howned hok.closingIds ?_ (fun e he => ?_)
      (fun e _ r hr => (hok.unseen r hr e.1).1) hok.closes
    · exact (Dict.nodup_keys (self.current s)).sublist (List.filter_sublist.map Prod.fst)
    · exact (mem_current howned halpha).mp (List.mem_filter.mp he).1
  have hcloses : ∀ p ∈ s.positions.rows, p.alphaId = self.alphaId →
      (p.symbol ∈ closing.map Prod.fst ↔ targetSide (targetWeight c.target p.symbol) ≠ p.side) := by
    intro p hp ha
    rw [← closesPosition_published (howned.weighed p hp ha)]
    constructor
    · intro h
      obtain ⟨e, he, hsymbol⟩ := List.mem_map.mp h
      obtain ⟨hcurrent, hcloses⟩ := List.mem_filter.mp he
      obtain ⟨p', hp', ha', rfl⟩ := (mem_current howned halpha).mp hcurrent
      obtain rfl := howned.single p' hp' p hp ha' ha hsymbol
      exact hcloses
    · intro h
      exact List.mem_map.mpr ⟨_, List.mem_filter.mpr
        ⟨(mem_current howned halpha).mpr ⟨p, hp, ha, rfl⟩, h⟩, rfl⟩
  have hmidMem : ∀ p, p ∈ mid.positions.rows ↔ p ∈ s.positions.rows ∧
      (p.alphaId = self.alphaId → targetSide (targetWeight c.target p.symbol) = p.side) := by
    intro p
    rw [hclosed.positions p]
    refine and_congr_right fun hp => ?_
    rw [not_and]
    exact forall_congr' fun ha => by rw [hcloses p hp ha, not_not]
  have hopenable : Openable self c (self.current s) c.target.rows mid := by
    refine ⟨c.target.nodup_keys, hok.targets, fun e he hweight hheld p hp ha hsymbol => ?_,
      fun e _ r hr => ?_, fun e _ p hp => hok.untaken p ((hmidMem p).mp hp).1 e.1, fun e _ => ?_⟩
    · obtain ⟨hp, hside⟩ := (hmidMem p).mp hp
      have hside := hside ha
      rw [hsymbol, targetWeight_of_mem he] at hside
      rw [heldOnSide_of_mem howned halpha he hweight hp ha hsymbol hside] at hheld
      cases hheld
    · rcases hclosed.signals r hr with hr | ⟨x, hx⟩
      · exact (hok.unseen r hr e.1).2
      · rw [hx]
        exact hok.distinctIds x e.1
    · rw [Bool.eq_false_iff]
      intro hcontains
      rcases hclosed.trades _ hcontains with hold | ⟨p, hp, hid⟩
      · rw [hok.untraded e.1] at hold
        cases hold
      · exact hok.untaken p hp e.1 hid
  have hopened := opens_run ex hok hcapital c.target.rows hclosed.owned hopenable
  rw [← hafter] at hopened
  have hmem : ∀ p, p ∈ (self.after ex s c).positions.rows ↔ (p ∈ s.positions.rows ∧
      (p.alphaId = self.alphaId → targetSide (targetWeight c.target p.symbol) = p.side)) ∨
      ∃ e ∈ c.target.rows, ∃ q, Opens c (self.current s) e q ∧ p = self.openedRow ex c e q :=
    fun p => (hopened.positions p).trans (or_congr_left (hmidMem p))
  refine ⟨hopened.owned, fun p hp ha => ?_, fun p hp ha hside => ?_, fun e he hweight hprice => ?_,
    fun p hp ha hnew => ?_, fun p ha => ?_⟩
  · rcases (hmem p).mp hp with ⟨-, hside⟩ | ⟨e, he, q, hopens, rfl⟩
    · exact hside ha
    · show targetSide (targetWeight c.target e.1) = if 0 < e.2 then "LONG" else "SHORT"
      rw [targetWeight_of_mem he, targetSide_of_ne_zero hopens.1]
  · exact (hmem p).mpr (.inl ⟨hp, fun _ => hside⟩)
  · obtain ⟨q, hget, hq⟩ := hprice
    by_cases hheld : heldOnSide c.target (self.current s) e = true
    · obtain ⟨p, hp, ha, hsymbol, hside⟩ := mem_of_heldOnSide howned halpha he hheld
      refine ⟨p, (hmem p).mpr (.inl ⟨hp, fun _ => ?_⟩), ha, hsymbol⟩
      rw [hsymbol, targetWeight_of_mem he]
      exact hside
    · rw [Bool.not_eq_true] at hheld
      exact ⟨_, (hmem _).mpr (.inr ⟨e, he, q, ⟨hweight, hheld, hget, hq⟩, rfl⟩), rfl, rfl⟩
  · rcases (hmem p).mp hp with ⟨hold, -⟩ | ⟨e, he, q, ⟨hweight, -, hget, hq⟩, rfl⟩
    · exact absurd hold hnew
    · exact ⟨e, he, hweight, rfl, q, hq, hget, rfl⟩
  · rw [hmem p]
    constructor
    · rintro (⟨hp, -⟩ | ⟨e, -, q, -, rfl⟩)
      · exact hp
      · exact absurd rfl ha
    · exact fun hp => .inl ⟨hp, fun h => absurd h ha⟩

end Converged

/-! ## Runs -/

section Runs

variable {self ex} {s : Tables}

/-- The databases that a run of cycles leaves. -/
def run (self : PortfolioService) (ex : Executor) (s : Tables) (cs : List Cycle) : Tables :=
  cs.foldl (self.after ex) s

/-- Every cycle of the run is sound in the database that it finds. -/
def CyclesOk (self : PortfolioService) (ex : Executor) : Tables → List Cycle → Prop
  | _, [] => True
  | s, c :: cs => CycleOk ex s c ∧ CyclesOk self ex (self.after ex s c) cs

/-- **The book follows the target.** Whatever the targets and the prices of the cycles are, after each
of them the book is on the side of the target, every target with a price is held and the other alphas
are untouched. A position whose symbol stays on one side is at the end the row that it was at first:
no cycle changes its quantity, however its weight moves. -/
theorem cycles_converge (self : PortfolioService) (ex : Executor) (s : Tables) (cs : List Cycle)
    (howned : Owned self.alphaId s) (halpha : self.alphaId ≠ "") (hcapital : 0 < self.capital)
    (hok : CyclesOk self ex s cs) :
    Owned self.alphaId (self.run ex s cs) ∧
      (∀ earlier c later, cs = earlier ++ c :: later →
        Converged self c (self.run ex s earlier) (self.run ex s (earlier ++ [c]))) ∧
      ∀ p ∈ s.positions.rows, p.alphaId = self.alphaId →
        (∀ c ∈ cs, targetSide (targetWeight c.target p.symbol) = p.side) →
          p ∈ (self.run ex s cs).positions.rows := by
  induction cs generalizing s with
  | nil =>
    refine ⟨howned, fun earlier c later h => ?_, fun p hp _ _ => hp⟩
    exact absurd h.symm (by simp)
  | cons c cs ih =>
    obtain ⟨hfirst, hrest⟩ := hok
    obtain ⟨hownedAfter, hconverged⟩ := cycle_converges howned halpha hcapital hfirst
    obtain ⟨hend, hcycles, hkept⟩ := ih (self.after ex s c) hownedAfter hrest
    refine ⟨hend, fun earlier c' later h => ?_, fun p hp ha hsides => ?_⟩
    · cases earlier with
      | nil =>
        obtain ⟨rfl, -⟩ := List.cons.inj h
        exact hconverged
      | cons first earlier =>
        obtain ⟨rfl, htail⟩ := List.cons.inj h
        exact hcycles earlier c' later htail
    · have hsides := List.forall_mem_cons.mp hsides
      exact hkept p (hconverged.kept p hp ha hsides.1) ha hsides.2

end Runs

/-! ## A resize -/

section Resize

/-- A LONG of half the capital. -/
def halfRow : PositionRow where
  positionId := "held"
  alphaId := "pm"
  signalId := "s0"
  symbol := "BTC"
  side := "LONG"
  entryPrice := some (.fin 100)
  qty := some (.fin 5)
  tp := none
  sl := none
  leverage := 1
  openedAt := "2024-01-01T00:00:00+00:00"
  metadata := .json (.obj [("weight", .float (.fin (1 / 2)))])
  exchange := "binance"
  feePct := some (.fin 0)

def halfBook : Tables := { Tables.empty with positions := ⟨[halfRow], by decide⟩ }

lemma nodup_coins : ["BTC", "ETH"].Nodup := by decide

/-- The target wants a quarter of it, and a SHORT in another symbol. -/
def quarterCycle : Cycle where
  revision := 1
  generatedAt := "2024-01-02T00:00:00+00:00"
  target := ⟨[("BTC", 1 / 4), ("ETH", -1 / 2)], nodup_coins⟩
  prices := ⟨[("BTC", .fin 100), ("ETH", .fin 10)], nodup_coins⟩
  closing x := ⟨"2024-01-02T00:00:00+00:00", "close-" ++ x, ""⟩
  opening x := ⟨"2024-01-02T00:00:00+00:00", "open-" ++ x, "position-" ++ x⟩
  env _ := { now := "2024-01-02T00:00:00+00:00", uuid := "u" }

lemma mem_halfBook {p : PositionRow} : p ∈ halfBook.positions.rows ↔ p = halfRow := List.mem_singleton

lemma owned_halfBook : Owned "pm" halfBook := by
  have hopened : ∃ d, DateTime.parse halfRow.openedAt = some d ∧ d.isAware = true :=
    ⟨_, rfl, by decide +kernel⟩
  constructor
  · rintro p hp -
    obtain rfl := mem_halfBook.mp hp
    exact ⟨⟨5, rfl, by norm_num⟩, ⟨_, rfl⟩, hopened, rfl⟩
  · intro p hp p' hp' _ _ _
    rw [mem_halfBook.mp hp, mem_halfBook.mp hp']
  · rintro p hp -
    obtain rfl := mem_halfBook.mp hp
    decide
  · rintro p hp -
    obtain rfl := mem_halfBook.mp hp
    exact .inl rfl
  · rintro p hp -
    obtain rfl := mem_halfBook.mp hp
    exact ⟨_, _, rfl⟩

lemma quarterCycle_ok : CycleOk {} halfBook quarterCycle := by
  have htime : ∃ d, DateTime.parse "2024-01-02T00:00:00+00:00" = some d ∧ d.isAware = true :=
    ⟨_, rfl, by decide +kernel⟩
  have hinj : ∀ start : String, Function.Injective fun x => start ++ x := fun start x y h =>
    (String.append_right_inj start).mp h
  constructor
  · exact fun r hr => absurd hr List.not_mem_nil
  · exact hinj "close-"
  · exact hinj "open-"
  · intro x y h
    have hlist := congrArg String.toList h
    simp [quarterCycle] at hlist
  · intro p hp
    obtain rfl := mem_halfBook.mp hp
    obtain ⟨d, hd, haware⟩ := htime
    exact ⟨d, hd, haware, fun h => absurd h (by decide +kernel)⟩
  · exact fun _ => htime
  · intro x h
    have hlist := congrArg String.toList h
    simp [quarterCycle] at hlist
  · exact hinj "position-"
  · intro p hp x h
    obtain rfl := mem_halfBook.mp hp
    have hlist := congrArg String.toList h
    simp [quarterCycle, halfRow] at hlist
  · exact fun _ => rfl
  · decide
  · rintro data signal t ⟨q, hq⟩
    show (Executor.applySlippage {} signal.entry signal.side false) ≠ .nan
    rw [Executor.applySlippage, hq, fixedPctFill_fin]
    intro h
    cases h

/-- The resize is not made. -/
theorem cycles_converge_half :
    halfRow ∈ (run ⟨"pm", 1000, "binance", 7⟩ {} halfBook [quarterCycle]).positions.rows ∧
      ∃ p ∈ (run ⟨"pm", 1000, "binance", 7⟩ {} halfBook [quarterCycle]).positions.rows,
        p.symbol = "ETH" ∧ p.side = "SHORT" := by
  obtain ⟨-, hcycles, hkept⟩ := cycles_converge ⟨"pm", 1000, "binance", 7⟩ {} halfBook [quarterCycle]
    owned_halfBook (by decide) (by norm_num) ⟨quarterCycle_ok, trivial⟩
  have hbtc : targetSide (targetWeight quarterCycle.target "BTC") = "LONG" := by decide +kernel
  have heth : targetSide (targetWeight quarterCycle.target "ETH") = "SHORT" := by decide +kernel
  have hone := hcycles [] quarterCycle [] rfl
  obtain ⟨p, hp, ha, hsymbol⟩ := hone.filled ("ETH", -1 / 2) (by decide +kernel) (by norm_num)
    ⟨10, by decide +kernel, by norm_num⟩
  refine ⟨hkept halfRow (mem_halfBook.mpr rfl) rfl fun c hc => ?_, p, hp, hsymbol, ?_⟩
  · obtain rfl := List.mem_singleton.mp hc
    exact hbtc
  · rw [← hone.sides p hp ha, hsymbol]
    exact heth

end Resize

end PortfolioService

end PaperTrade.PortfolioManager
