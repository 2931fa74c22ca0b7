import PaperTrade.Worker.Quotes
import PaperTrade.Worker.Slippage
import PaperTrade.Worker.SlippageClient

/-!
# The fill service

`FillService.resolve`: a fill price from a walk of the order book, from the reference price where
there is none, or from both where the book fills a part. With the latency model a second walk is asked
for, and the worse of the two prices counts, at least `min_adverse_bps` worse than the first.

The divisors that are computed go through a `Division`, so that it can be told that none of them is
zero or negative: `resolve` is the same under `/` and under a division that refuses such divisors
(`resolve_bounded`). Whether `resolve` raises depends on the `snapshot_ts` of the answers alone.
-/

namespace PaperTrade.Worker

open PaperTrade.Runtime

/-! ## The prices -/

/-- What `resolve` raises. -/
inductive FillError
  | py (e : PyError)
  | zeroDivision
  /-- Raised by no Python code: the division refuses its divisor. -/
  | refused

/-- A way to divide. -/
abbrev Division := PyFloat → PyFloat → Except FillError PyFloat

/-- `x / y`. -/
def Division.python : Division := fun x y => if y = 0 then .error .zeroDivision else .ok (x / y)

/-- `x / y` for positive divisors only. -/
def Division.positive : Division := fun x y => if 0 < y then .ok (x / y) else .error .refused

/-- `_EPS`. -/
def fillEps : ℚ := 1 / 1000000000000

/-- `adverse_price`. -/
def adversePrice (orderSide : String) (initial delayed : PyFloat) : PyFloat :=
  if upper orderSide = ['B', 'U', 'Y'] then initial.max delayed else initial.min delayed

/-- `float(resp.get(key, 0.0))`. -/
def fillNumber (resp : Entries) (key : String) : Except FillError PyFloat :=
  (numberOf resp key).mapError .py

/-- `resp.get("fallback_used")`, as a condition. -/
def fallbackUsed (resp : Entries) : Bool := (resp.get? "fallback_used").any (·.truthy)

/-- The arguments of `resolve`. -/
structure FillArgs where
  exchange : String
  symbol : String
  positionSide : String
  qty : PyFloat
  refPrice : PyFloat
  isClose : Bool
  refIsExecutable : Bool

/-- `_fallback` of `resolve_fill_price`. -/
def FillArgs.fallback (args : FillArgs) (slippagePct : PyFloat) : PyFloat :=
  if args.refIsExecutable then args.refPrice
  else fixedPctFill args.refPrice args.positionSide slippagePct args.isClose

/-- `resolve_fill_price`. -/
def resolveFillPrice (divide : Division) (resp : Option Entries) (args : FillArgs)
    (slippagePct : PyFloat) : Except FillError PyFloat :=
  match resp with
  | none => .ok (args.fallback slippagePct)
  | some resp =>
    if fallbackUsed resp then .ok (args.fallback slippagePct)
    else do
      let filled ← fillNumber resp "filled_qty"
      let requested ← fillNumber resp "requested_qty"
      let avg ← fillNumber resp "avg_exec_price"
      if filled ≤ fillEps ∨ avg ≤ 0 then .ok (args.fallback slippagePct)
      else if requested - fillEps ≤ filled then .ok avg
      else
        let remainder := requested - filled
        divide (filled * avg + remainder * args.fallback slippagePct) requested

/-! ## The service -/

/-- `FillService`. The timeouts and the sleeper are part of what Redis does. -/
structure BookFillService where
  slippagePct : PyFloat
  supportedExchanges : List String := ["binance"]
  latencyModelEnabled : Bool := false
  latencyMs : PyFloat := 50
  minAdverseBps : PyFloat := 0

/-- What a walk meets: the id of its request, the clock of the breaker, Redis, and
`time.time() * 1000.0` when the answer is read. -/
structure WalkEnv where
  requestId : String
  started : ℚ
  reply : Reply
  ended : ℚ
  nowMs : PyFloat

/-- The timestamp of a book and its age, of a `snapshot_ts`. -/
def snapshotOf (snapshotTs nowMs : PyFloat) : Except FillError (Option String × Option PyFloat) :=
  if 0 < snapshotTs then
    match snapshotTs.toInt? with
    | some i => .ok (some (toString i), some (PyFloat.max 0 (nowMs - snapshotTs)))
    | none => .error (.py (.intOf .overflowError))
  else .ok (none, none)

/-- A `book_state`; the market data service writes a string. -/
def bookStateOf (resp : Entries) : Option String :=
  match resp.get? "book_state" with
  | none | some .null => none
  | some v => some (strOf v)

namespace BookFillService

variable (divide : Division) (self : BookFillService) (args : FillArgs)

/-- The order side of the request. -/
abbrev orderSide : String := orderSideFor args.positionSide args.isClose

/-- `exchange.lower() in self._supported_exchanges`. -/
def supported : Bool := self.supportedExchanges.contains (String.ofList (lower args.exchange))

/-- The query of a walk. -/
def walk (env : WalkEnv) : QueryCall where
  query :=
    { exchange := String.ofList (lower args.exchange), symbol := args.symbol
      side := orderSide args, qty := args.qty, fallbackPct := self.slippagePct
      requestId := env.requestId }
  started := env.started
  reply := env.reply
  ended := env.ended

/-- Where the initial price comes from, and why not from the book. -/
def initialSource (resp : Option Entries) : String × Option String :=
  if !self.supported args then ("fixed_pct", some "unsupported_exchange")
  else match resp with
    | none => (if args.refIsExecutable then "executable_ref" else "fixed_pct", some "rpc_unavailable")
    | some resp =>
      if fallbackUsed resp then
        let reason := (resp.get? "fallback_reason").filter (·.truthy)
        ("fixed_pct", some ((reason.map strOf).getD "mds_fallback"))
      else if resp = [] then ("fixed_pct", none)
      else (strItemOr resp "source" "unknown", none)

/-- `resolve` up to the first resolution. -/
def resolveInitial (resp : Option Entries) (nowMs : PyFloat) : Except FillError FillResolution := do
  let initial ← resolveFillPrice divide resp args self.slippagePct
  let (source, fallbackReason) := self.initialSource args resp
  let held := resp.filter (· ≠ [])   -- `if resp`: an empty answer counts as none here
  let snapshotTs ← (held.map (fillNumber · "snapshot_ts")).getD (.ok 0)
  let filledQty ← (held.map (fillNumber · "filled_qty")).getD (.ok 0)
  let (timestamp, age) ← snapshotOf snapshotTs nowMs
  let resolution : FillResolution :=
    { finalPrice := initial, orderSide := orderSide args, initialPrice := initial
      initialSource := source, requestedQty := some args.qty, filledQty := some filledQty
      fallbackReason := fallbackReason, initialBookState := held.bind bookStateOf
      initialSnapshotTimestamp := timestamp, initialSnapshotAgeMs := age }
  match resp with
  | some resp =>
    if fallbackUsed resp then .ok resolution
    else
      let slippage := (resp.get? "slippage_bps").bind fun v => (jsonFloat v).toOption
      .ok { resolution with bookSlippageBps := slippage }
  | none => .ok resolution

/-- The second quote of `resolve`. -/
def resolveDelayed (resolution : FillResolution) (delayedResp : Option Entries) (nowMs : PyFloat) :
    Except FillError FillResolution :=
  match delayedResp.filter (!fallbackUsed ·) with
  | some resp => do
    let delayed ← resolveFillPrice divide (some resp) args self.slippagePct
    let snapshotTs ← fillNumber resp "snapshot_ts"
    let (timestamp, age) ← snapshotOf snapshotTs nowMs
    .ok { resolution with
      delayedPrice := some delayed, delayedSource := some (strItemOr resp "source" "unknown")
      delayedBookState := bookStateOf resp, delayedSnapshotTimestamp := timestamp
      delayedSnapshotAgeMs := age
      finalPrice := adversePrice (orderSide args) resolution.initialPrice delayed }
  | none =>
    .ok { resolution with
      delayedSource := some "failed", fallbackReason := some "delayed_quote_failed" }

/-- The floor under the adverse movement. -/
def applyFloor (resolution : FillResolution) : FillResolution :=
  let initial := resolution.initialPrice
  let floor := initial * self.minAdverseBps / 10000
  if 0 < floor then
    let floorPrice := if orderSide args = "BUY" then initial + floor else initial - floor
    { resolution with finalPrice := adversePrice (orderSide args) resolution.finalPrice floorPrice }
  else resolution

/-- The adverse movement. -/
def measureMovement (resolution : FillResolution) : Except FillError FillResolution :=
  let initial := resolution.initialPrice
  if initial.truthy then do
    let direction : PyFloat := if orderSide args = "BUY" then 1 else -1
    let movement ← divide (direction * (resolution.finalPrice - initial)) initial
    .ok { resolution with adverseMovementBps := PyFloat.max 0 (movement * 10000) }
  else .ok resolution

/-- The answer of the first walk, and the client after it. -/
def firstWalk (client : SlippageClient) (env : WalkEnv) : SlippageClient × Option Entries :=
  if self.supported args then
    let (client, _, resp) := client.query (self.walk args env)
    (client, resp)
  else (client, none)

/-- The latency model applies to an answer. -/
def latencyApplied (resp : Option Entries) : Bool :=
  self.latencyModelEnabled && resp.any (!fallbackUsed ·)

/-- `resolve`. -/
def resolve (client : SlippageClient) (first second : WalkEnv) :
    SlippageClient × Except FillError FillResolution :=
  let (client, resp) := self.firstWalk args client first
  match self.resolveInitial divide args resp first.nowMs with
  | .error e => (client, .error e)
  | .ok resolution =>
    if !self.latencyApplied resp then (client, .ok resolution)
    else
      let (client, _, delayedResp) := client.query (self.walk args second)
      (client, do
        let resolution ← self.resolveDelayed divide args resolution delayedResp second.nowMs
        measureMovement divide args
          { self.applyFloor args resolution with modelLatencyMs := self.latencyMs })

end BookFillService

/-! ## Answers -/

/-- An answer that `query` can return. -/
def IsAnswer (resp : Entries) : Prop := ∃ rid raw, readAnswer rid raw = some resp

lemma isAnswer_query {client : SlippageClient} {call : QueryCall} {resp : Entries}
    (h : (client.query call).2.2 = some resp) : IsAnswer resp := by
  have hreply : readReply call.query.requestId call.reply = some resp := by
    unfold SlippageClient.query at h
    dsimp only at h
    split at h
    · cases h
    · split at h
      · cases h
      · rename_i resp' hreply
        rw [hreply]
        exact h
  match hraw : call.reply with
  | .raised => simp [hraw, readReply] at hreply
  | .silent => simp [hraw, readReply] at hreply
  | .item raw => exact ⟨_, raw, by rwa [hraw] at hreply⟩

/-- The three numbers of an answer are finite and not negative. -/
lemma IsAnswer.amount {resp : Entries} (h : IsAnswer resp) (key : String)
    (hkey : key ∈ ["avg_exec_price", "filled_qty", "requested_qty"]) :
    ∃ v : ℚ, 0 ≤ v ∧ fillNumber resp key = .ok (.fin v) := by
  obtain ⟨rid, raw, hread⟩ := h
  simp only [readAnswer, bind, Option.bind_eq_some_iff] at hread
  obtain ⟨v, -, resp', -, hchecks⟩ := hread
  split at hchecks
  · rename_i hall
    cases hchecks
    have hsome := hall.2 key hkey
    unfold amountOf at hsome
    split at hsome
    · rename_i value hvalue
      split at hsome
      · cases hsome
      · rename_i hneg
        exact ⟨value, not_lt.mp hneg, by rw [fillNumber, hvalue]; rfl⟩
    · cases hsome
  · cases hchecks

/-! ## The first price -/

/-- A division that divides by what is positive. -/
def Division.Sound (divide : Division) : Prop := ∀ x y, 0 < y → divide x y = .ok (x / y)

lemma Division.python_sound : Division.python.Sound := fun x y hy =>
  if_neg fun hzero => by simp [hzero] at hy

lemma Division.positive_sound : Division.positive.Sound := fun _ _ hy => if_pos hy

/-- The price between two, by the weight of each. -/
lemma blend_mem_uIcc {filled requested : ℚ} (hfilled : 0 ≤ filled) (hless : filled ≤ requested)
    (hpos : 0 < requested) (avg fallback : ℚ) :
    (filled * avg + (requested - filled) * fallback) / requested ∈ Set.uIcc avg fallback := by
  have hweight : filled / requested ∈ Set.Icc (0 : ℚ) 1 :=
    ⟨by positivity, (div_le_one hpos).mpr hless⟩
  have hblend : (filled * avg + (requested - filled) * fallback) / requested =
      fallback + filled / requested * (avg - fallback) := by
    field_simp
    ring
  rw [hblend, Set.mem_uIcc]
  rcases le_total avg fallback with hle | hle
  · left
    constructor <;> nlinarith [hweight.1, hweight.2]
  · right
    constructor <;> nlinarith [hweight.1, hweight.2]

/-- A price is the fallback, or between the book average of the answer and the fallback. -/
def Blended (resp : Option Entries) (fallback price : ℚ) : Prop :=
  price = fallback ∨
    ∃ book avg, resp = some book ∧ fillNumber book "avg_exec_price" = .ok (.fin avg) ∧ 0 < avg ∧
      price ∈ Set.uIcc avg fallback

lemma Blended.pos {resp : Option Entries} {fallback price : ℚ} (h : Blended resp fallback price)
    (hfallback : 0 < fallback) : 0 < price := by
  rcases h with rfl | ⟨book, avg, -, -, havg, hprice⟩
  · exact hfallback
  · exact (lt_min havg hfallback).trans_le hprice.1

/-- `resolve_fill_price` on an answer, whatever the division does with other divisors. -/
lemma resolveFillPrice_blended {resp : Option Entries} (hresp : ∀ book ∈ resp, IsAnswer book)
    {args : FillArgs} {slippagePct : PyFloat} {fallback : ℚ}
    (hfallback : args.fallback slippagePct = .fin fallback) :
    ∃ price, (∀ divide : Division, divide.Sound →
      resolveFillPrice divide resp args slippagePct = .ok (.fin price)) ∧
      Blended resp fallback price := by
  match resp, hresp with
  | none, _ => exact ⟨fallback, fun _ _ => congrArg Except.ok hfallback, .inl rfl⟩
  | some book, hresp =>
    have hbook := hresp book rfl
    obtain ⟨filled, hfilled, hfilledOk⟩ := hbook.amount "filled_qty" (by decide)
    obtain ⟨requested, -, hrequestedOk⟩ := hbook.amount "requested_qty" (by decide)
    obtain ⟨avg, -, havgOk⟩ := hbook.amount "avg_exec_price" (by decide)
    simp only [resolveFillPrice, hfilledOk, hrequestedOk, havgOk, hfallback, bind, Except.bind,
      PyFloat.sub_fin, PyFloat.fin_le_fin, PyFloat.zero_eq]
    by_cases hused : fallbackUsed book = true
    · exact ⟨fallback, fun _ _ => if_pos hused, .inl rfl⟩
    by_cases hnone : filled ≤ fillEps ∨ avg ≤ 0
    · exact ⟨fallback, fun _ _ => by rw [if_neg hused, if_pos hnone], .inl rfl⟩
    obtain ⟨hsome, havg⟩ := not_or.mp hnone
    have havg := not_le.mp havg
    by_cases hfull : requested - fillEps ≤ filled
    · exact ⟨avg, fun _ _ => by rw [if_neg hused, if_neg hnone, if_pos hfull],
        .inr ⟨book, avg, rfl, havgOk, havg, Set.left_mem_uIcc⟩⟩
    · -- the book fills a part, so more than `_EPS` is requested
      have heps : (0 : ℚ) < fillEps := by norm_num [fillEps]
      have hpos : 0 < requested := by linarith
      refine ⟨(filled * avg + (requested - filled) * fallback) / requested, fun divide hdivide => ?_,
        .inr ⟨book, avg, rfl, havgOk, havg, blend_mem_uIcc hfilled (by linarith) hpos _ _⟩⟩
      rw [if_neg hused, if_neg hnone, if_neg hfull, PyFloat.mul_fin, PyFloat.mul_fin, PyFloat.add_fin,
        hdivide _ _ ((PyFloat.fin_lt_fin _ _).mpr hpos), PyFloat.div_fin _ hpos.ne']

/-! ## Worse and worse -/

namespace BookFillService

variable {divide : Division} {self : BookFillService} {args : FillArgs}

/-- Up is worse for a buyer. -/
def direction (args : FillArgs) : ℚ := if orderSide args = "BUY" then 1 else -1

/-- A price is worse than another by at least `least`. -/
def WorseBy (args : FillArgs) (least initial final : ℚ) : Prop :=
  least ≤ direction args * (final - initial)

lemma adversePrice_worse (args : FillArgs) (p q : ℚ) :
    ∃ worse : ℚ, adversePrice (orderSide args) (.fin p) (.fin q) = .fin worse ∧
      WorseBy args 0 p worse ∧ WorseBy args 0 q worse := by
  unfold WorseBy direction orderSide orderSideFor adversePrice
  split
  · have hbuy : upper "BUY" = ['B', 'U', 'Y'] := by decide
    refine ⟨max p q, ?_, ?_, ?_⟩
    · rw [if_pos hbuy, PyFloat.max_fin]
    · simp
    · simp
  · have hsell : upper "SELL" ≠ ['B', 'U', 'Y'] := by decide
    refine ⟨min p q, ?_, ?_, ?_⟩
    · rw [if_neg hsell, PyFloat.min_fin]
    · simp
    · simp

lemma WorseBy.trans {p q r least : ℚ} (hpq : WorseBy args least p q) (hqr : WorseBy args 0 q r) :
    WorseBy args least p r := by
  unfold WorseBy at *
  linarith

/-- A resolution whose final price is worse than its initial price by `least`. -/
structure Adverse (args : FillArgs) (first least : ℚ) (r : FillResolution) : Prop where
  initial : r.initialPrice = .fin first
  final : ∃ final, r.finalPrice = .fin final ∧ WorseBy args least first final
  movement : ∃ movement : ℚ, r.adverseMovementBps = .fin movement ∧ 0 ≤ movement

variable {resp : Option Entries} {fallback price : ℚ} {nowMs : PyFloat} {r r' : FillResolution}

/-- The division does not matter where it divides by what is positive. -/
lemma resolveFillPrice_sound (hresp : ∀ book ∈ resp, IsAnswer book)
    (hfallback : args.fallback self.slippagePct = .fin fallback) (hdivide : divide.Sound) :
    resolveFillPrice divide resp args self.slippagePct =
      resolveFillPrice .python resp args self.slippagePct := by
  obtain ⟨price, hprice, -⟩ := resolveFillPrice_blended hresp hfallback
  rw [hprice divide hdivide, hprice .python Division.python_sound]

lemma resolveInitial_sound (hresp : ∀ book ∈ resp, IsAnswer book)
    (hfallback : args.fallback self.slippagePct = .fin fallback) (hdivide : divide.Sound) :
    self.resolveInitial divide args resp nowMs = self.resolveInitial .python args resp nowMs := by
  unfold resolveInitial
  rw [resolveFillPrice_sound hresp hfallback hdivide]

/-- The first resolution is at the first price. -/
lemma resolveInitial_ok (hprice : resolveFillPrice divide resp args self.slippagePct = .ok (.fin price))
    (h : self.resolveInitial divide args resp nowMs = .ok r) :
    Adverse args price 0 r ∧ r.finalPrice = .fin price := by
  have hworse : WorseBy args 0 price price := by simp [WorseBy]
  unfold resolveInitial at h
  rw [hprice] at h
  simp only [bind, Except.bind] at h
  split at h
  · cases h
  split at h
  · cases h
  split at h
  · cases h
  split at h
  · split at h
    · cases h
      exact ⟨⟨rfl, ⟨price, rfl, hworse⟩, ⟨0, rfl, le_rfl⟩⟩, rfl⟩
    · cases h
      exact ⟨⟨rfl, ⟨price, rfl, hworse⟩, ⟨0, rfl, le_rfl⟩⟩, rfl⟩
  · cases h
    exact ⟨⟨rfl, ⟨price, rfl, hworse⟩, ⟨0, rfl, le_rfl⟩⟩, rfl⟩

/-- The second quote is one of the answers. -/
lemma isAnswer_usable {book : Entries} (hresp : ∀ book ∈ resp, IsAnswer book)
    (hbook : resp.filter (!fallbackUsed ·) = some book) : ∀ book' ∈ some book, IsAnswer book' := by
  intro book' hbook'
  rw [Option.mem_some] at hbook'
  exact hbook' ▸ hresp _ (Option.filter_eq_some_iff.mp hbook).1

lemma resolveDelayed_sound (hresp : ∀ book ∈ resp, IsAnswer book)
    (hfallback : args.fallback self.slippagePct = .fin fallback) (hdivide : divide.Sound) :
    self.resolveDelayed divide args r resp nowMs = self.resolveDelayed .python args r resp nowMs := by
  unfold resolveDelayed
  split
  · rename_i book hbook
    have hanswer := isAnswer_usable hresp hbook
    rw [resolveFillPrice_sound hanswer hfallback hdivide]
  · rfl

/-- The second quote can only make the price worse. -/
lemma resolveDelayed_adverse (hr : Adverse args price 0 r) (hdivide : divide.Sound)
    (hresp : ∀ book ∈ resp, IsAnswer book) (hfallback : args.fallback self.slippagePct = .fin fallback)
    (h : self.resolveDelayed divide args r resp nowMs = .ok r') : Adverse args price 0 r' := by
  unfold resolveDelayed at h
  split at h
  · rename_i book hbook
    have hanswer := isAnswer_usable hresp hbook
    obtain ⟨delayed, hdelayed, -⟩ := resolveFillPrice_blended hanswer hfallback
    rw [hdelayed divide hdivide] at h
    simp only [bind, Except.bind] at h
    split at h
    · cases h
    split at h
    · cases h
    cases h
    obtain ⟨worse, hworse, hfirst, -⟩ := adversePrice_worse args price delayed
    exact ⟨hr.initial, ⟨worse, by rw [← hworse, hr.initial], hfirst⟩, hr.movement⟩
  · cases h
    exact ⟨hr.initial, hr.final, hr.movement⟩

/-- The floor makes the price worse by `min_adverse_bps` at least. -/
lemma applyFloor_adverse {bps : ℚ} (hr : Adverse args price 0 r) (hprice : 0 < price)
    (hbps : self.minAdverseBps = .fin bps) (hnonneg : 0 ≤ bps) :
    Adverse args price (price * bps / 10000) (self.applyFloor args r) := by
  obtain ⟨final, hfinal, hworse⟩ := hr.final
  have hfloor : r.initialPrice * self.minAdverseBps / 10000 = .fin (price * bps / 10000) := by
    rw [hr.initial, hbps, PyFloat.mul_fin, PyFloat.ofNat_eq, PyFloat.div_fin _ (by norm_num)]
  unfold applyFloor
  dsimp only
  rw [hfloor]
  by_cases hpos : 0 < price * bps / 10000
  · have hfloorPos : (0 : PyFloat) < .fin (price * bps / 10000) := (PyFloat.fin_lt_fin _ _).mpr hpos
    rw [if_pos hfloorPos]
    have hplaced : ∃ floorPrice, (if orderSide args = "BUY" then
        r.initialPrice + .fin (price * bps / 10000) else
          r.initialPrice - .fin (price * bps / 10000)) = .fin floorPrice ∧
        WorseBy args (price * bps / 10000) price floorPrice := by
      unfold WorseBy direction
      by_cases hbuy : orderSide args = "BUY"
      · exact ⟨price + price * bps / 10000, by rw [if_pos hbuy, hr.initial, PyFloat.add_fin],
          by rw [if_pos hbuy]; linarith⟩
      · exact ⟨price - price * bps / 10000, by rw [if_neg hbuy, hr.initial, PyFloat.sub_fin],
          by rw [if_neg hbuy]; linarith⟩
    obtain ⟨floorPrice, hfloorPrice, hplaced⟩ := hplaced
    obtain ⟨worse, hworst, -, hpast⟩ := adversePrice_worse args final floorPrice
    exact ⟨hr.initial, ⟨worse, by rw [hfloorPrice, hfinal, hworst], hplaced.trans hpast⟩, hr.movement⟩
  · have hzero : price * bps / 10000 = 0 := le_antisymm (not_lt.mp hpos) (by positivity)
    have hfloorZero : ¬ (0 : PyFloat) < .fin (price * bps / 10000) :=
      fun h => hpos ((PyFloat.fin_lt_fin _ _).mp h)
    rw [if_neg hfloorZero, hzero]
    exact ⟨hr.initial, ⟨final, hfinal, hworse⟩, hr.movement⟩

/-- The movement is measured on a positive price, and the division does not raise. -/
lemma measureMovement_adverse {least : ℚ} (hr : Adverse args price least r) (hprice : 0 < price)
    (hdivide : divide.Sound) :
    ∃ r', measureMovement divide args r = .ok r' ∧ Adverse args price least r' := by
  obtain ⟨final, hfinal, hworse⟩ := hr.final
  have hpos : (0 : PyFloat) < .fin price := (PyFloat.fin_lt_fin _ _).mpr hprice
  have hdirection : (if orderSide args = "BUY" then (1 : PyFloat) else -1) = .fin (direction args) := by
    unfold direction
    split <;> rfl
  have hmovement : divide ((if orderSide args = "BUY" then (1 : PyFloat) else -1) *
      (r.finalPrice - r.initialPrice)) r.initialPrice =
        .ok (.fin (direction args * (final - price) / price)) := by
    rw [hdirection, hfinal, hr.initial, PyFloat.sub_fin, PyFloat.mul_fin, hdivide _ _ hpos,
      PyFloat.div_fin _ hprice.ne']
  have htruthy : r.initialPrice.truthy = true := by simp [hr.initial, hprice.ne']
  unfold measureMovement
  dsimp only
  rw [if_pos htruthy, hmovement]
  refine ⟨_, rfl, hr.initial, ⟨final, hfinal, hworse⟩,
    max 0 (direction args * (final - price) / price * 10000), ?_, le_max_left _ _⟩
  show PyFloat.max 0 (.fin _ * 10000) = _
  rw [PyFloat.zero_eq, PyFloat.ofNat_eq, PyFloat.mul_fin, PyFloat.max_fin]

lemma measureMovement_sound {least : ℚ} (hr : Adverse args price least r) (hprice : 0 < price)
    (hdivide : divide.Sound) : measureMovement divide args r = measureMovement .python args r := by
  have hpos : 0 < r.initialPrice := hr.initial ▸ (PyFloat.fin_lt_fin _ _).mpr hprice
  unfold measureMovement
  dsimp only
  rw [hdivide _ _ hpos, Division.python_sound _ _ hpos]

/-! ## When it raises -/

/-- The `snapshot_ts` of an answer is a number, and not infinite. -/
def Readable (book : Entries) : Prop :=
  ∃ ts, fillNumber book "snapshot_ts" = .ok ts ∧ ts ≠ .inf false

lemma snapshotOf_ok_iff {ts : PyFloat} : (∃ s, snapshotOf ts nowMs = .ok s) ↔ ts ≠ .inf false := by
  unfold snapshotOf
  match ts with
  | .nan => simp
  | .inf true => simp [show ¬ (PyFloat.fin 0 < .inf true) by decide]
  | .inf false => simp [show PyFloat.fin 0 < .inf false by decide, PyFloat.toInt?]
  | .fin q =>
    simp only [PyFloat.toInt?, ne_eq, reduceCtorEq, not_false_eq_true, iff_true]
    split <;> exact ⟨_, rfl⟩

lemma readable_iff (nowMs : PyFloat) {book : Entries} :
    Readable book ↔ ∃ s, (fillNumber book "snapshot_ts").bind (snapshotOf · nowMs) = .ok s := by
  unfold Readable
  match fillNumber book "snapshot_ts" with
  | .error e => simp [Except.bind]
  | .ok ts =>
    show (∃ ts', Except.ok ts = .ok ts' ∧ ts' ≠ .inf false) ↔ ∃ s, snapshotOf ts nowMs = .ok s
    rw [snapshotOf_ok_iff]
    simp

/-- All but the timestamp of the first resolution is there. -/
lemma resolveInitial_ok_iff_snapshot {filledQty : PyFloat}
    (hprice : resolveFillPrice divide resp args self.slippagePct = .ok (.fin price))
    (hqty : ((resp.filter (· ≠ [])).map (fillNumber · "filled_qty")).getD (.ok 0) = .ok filledQty) :
    (∃ r, self.resolveInitial divide args resp nowMs = .ok r) ↔
      ∃ s, (((resp.filter (· ≠ [])).map (fillNumber · "snapshot_ts")).getD (.ok 0)).bind
        (snapshotOf · nowMs) = .ok s := by
  unfold resolveInitial
  rw [hprice]
  dsimp only [bind, Except.bind]
  rw [hqty]
  cases ((resp.filter (· ≠ [])).map (fillNumber · "snapshot_ts")).getD (.ok 0) with
  | error e => simp
  | ok ts =>
    dsimp only
    cases snapshotOf ts nowMs with
    | error e => simp
    | ok s =>
      refine ⟨fun _ => ⟨_, rfl⟩, fun _ => ?_⟩
      dsimp only
      split
      · split <;> exact ⟨_, rfl⟩
      · exact ⟨_, rfl⟩

/-- The first resolution fails on a timestamp that cannot be read. -/
lemma resolveInitial_ok_iff (hresp : ∀ book ∈ resp, IsAnswer book)
    (hprice : resolveFillPrice divide resp args self.slippagePct = .ok (.fin price)) :
    (∃ r, self.resolveInitial divide args resp nowMs = .ok r) ↔ ∀ book ∈ resp, Readable book := by
  have hunheld : ∃ s, snapshotOf 0 nowMs = .ok s := snapshotOf_ok_iff.mpr nofun
  match resp, hresp with
  | none, _ =>
    rw [resolveInitial_ok_iff_snapshot hprice rfl]
    exact ⟨fun _ => nofun, fun _ => hunheld⟩
  | some [], _ =>
    rw [resolveInitial_ok_iff_snapshot hprice rfl]
    refine ⟨fun _ book hbook => ?_, fun _ => hunheld⟩
    rw [Option.mem_some] at hbook
    exact hbook ▸ ⟨0, rfl, nofun⟩
  | some (entry :: rest), hresp =>
    obtain ⟨filled, -, hfilled⟩ := (hresp _ rfl).amount "filled_qty" (by decide)
    rw [resolveInitial_ok_iff_snapshot hprice hfilled]
    simp only [Option.mem_some, forall_eq', readable_iff nowMs]
    exact Iff.rfl

/-- So does the second quote. -/
lemma resolveDelayed_ok_iff (hresp : ∀ book ∈ resp, IsAnswer book)
    (hfallback : args.fallback self.slippagePct = .fin fallback) (hdivide : divide.Sound) :
    (∃ r', self.resolveDelayed divide args r resp nowMs = .ok r') ↔
      ∀ book ∈ resp, fallbackUsed book = false → Readable book := by
  unfold resolveDelayed
  split
  · rename_i book hbook
    obtain ⟨delayed, hdelayed, -⟩ := resolveFillPrice_blended (isAnswer_usable hresp hbook) hfallback
    obtain ⟨rfl, hused⟩ := Option.filter_eq_some_iff.mp hbook
    have hunused : fallbackUsed book = false := by simpa using hused
    simp only [Option.mem_some, forall_eq', hunused, forall_const, readable_iff nowMs,
      hdelayed divide hdivide]
    cases fillNumber book "snapshot_ts" with
    | error e => simp [bind, Except.bind]
    | ok ts =>
      show (∃ r', (snapshotOf ts nowMs).bind _ = .ok r') ↔ ∃ s, snapshotOf ts nowMs = .ok s
      cases snapshotOf ts nowMs with
      | error e => simp [Except.bind]
      | ok s => simp [Except.bind]
  · rename_i hnone
    refine ⟨fun _ book hbook hunused => ?_, fun _ => ⟨_, rfl⟩⟩
    have hused := Option.filter_eq_none_iff.mp hnone book hbook
    simp [hunused] at hused

/-! ## The whole of `resolve` -/

lemma fallback_pos {slip : ℚ} (hrefPrice : args.refPrice = .fin price) (hprice : 0 < price)
    (hslippage : self.slippagePct = .fin slip) (hslip : 0 ≤ slip ∧ slip < 1000) :
    ∃ fallback : ℚ, args.fallback self.slippagePct = .fin fallback ∧ 0 < fallback := by
  unfold FillArgs.fallback
  by_cases hexec : args.refIsExecutable = true
  · exact ⟨price, by rw [if_pos hexec, hrefPrice], hprice⟩
  · rw [if_neg hexec, hrefPrice, hslippage, fixedPctFill_fin]
    refine ⟨_, rfl, ?_⟩
    have hshare : slip / 1000 < 1 := by linarith [hslip.2]
    split
    · nlinarith
    · have hslipped : 0 ≤ price * (slip / 1000) := by have := hslip.1; positivity
      linarith

/-- The answer of the first walk. -/
def firstAnswer (self : BookFillService) (args : FillArgs) (client : SlippageClient)
    (first : WalkEnv) : Option Entries := (self.firstWalk args client first).2

/-- The answer of the second walk. -/
def delayedAnswer (self : BookFillService) (args : FillArgs) (client : SlippageClient)
    (first second : WalkEnv) : Option Entries :=
  ((self.firstWalk args client first).1.query (self.walk args second)).2.2

variable {client : SlippageClient} {first second : WalkEnv}

lemma isAnswer_first : ∀ book ∈ self.firstAnswer args client first, IsAnswer book := by
  intro book hbook
  unfold firstAnswer firstWalk at hbook
  split at hbook
  · exact isAnswer_query hbook
  · cases hbook

lemma isAnswer_delayed : ∀ book ∈ self.delayedAnswer args client first second, IsAnswer book :=
  fun _ hbook => isAnswer_query hbook

/-- What follows the second quote. -/
lemma latency_adverse {bps : ℚ} (hr : Adverse args price 0 r) (hprice : 0 < price)
    (hmin : self.minAdverseBps = .fin bps) (hbps : 0 ≤ bps) (latencyMs : PyFloat) :
    Adverse args price (price * bps / 10000)
      { self.applyFloor args r with modelLatencyMs := latencyMs } :=
  have hfloor := applyFloor_adverse hr hprice hmin hbps
  ⟨hfloor.initial, hfloor.final, hfloor.movement⟩

/-- From the second quote on. -/
def afterQuote (divide : Division) (self : BookFillService) (args : FillArgs) (resolution : FillResolution)
    (delayedResp : Option Entries) (nowMs : PyFloat) : Except FillError FillResolution := do
  let resolution ← self.resolveDelayed divide args resolution delayedResp nowMs
  measureMovement divide args
    { self.applyFloor args resolution with modelLatencyMs := self.latencyMs }

lemma afterQuote_adverse {bps : ℚ} (hr : Adverse args price 0 r) (hprice : 0 < price)
    (hdivide : divide.Sound) (hresp : ∀ book ∈ resp, IsAnswer book)
    (hfallback : args.fallback self.slippagePct = .fin fallback)
    (hmin : self.minAdverseBps = .fin bps) (hbps : 0 ≤ bps) (nowMs : PyFloat) :
    afterQuote divide self args r resp nowMs = afterQuote .python self args r resp nowMs ∧
      ((∃ r', afterQuote divide self args r resp nowMs = .ok r') ↔
        ∀ book ∈ resp, fallbackUsed book = false → Readable book) ∧
      ∀ r', afterQuote divide self args r resp nowMs = .ok r' →
        Adverse args price (price * bps / 10000) r' := by
  have hsound : self.resolveDelayed divide args r resp nowMs =
      self.resolveDelayed .python args r resp nowMs := resolveDelayed_sound hresp hfallback hdivide
  have hok : (∃ r', self.resolveDelayed divide args r resp nowMs = .ok r') ↔
      ∀ book ∈ resp, fallbackUsed book = false → Readable book :=
    resolveDelayed_ok_iff hresp hfallback hdivide
  rw [← hok]
  unfold afterQuote
  rw [← hsound]
  cases hquote : self.resolveDelayed divide args r resp nowMs with
  | error e => simp [bind, Except.bind]
  | ok r₁ =>
    have hr₁ : Adverse args price 0 r₁ := resolveDelayed_adverse hr hdivide hresp hfallback hquote
    have hfloor := latency_adverse hr₁ hprice hmin hbps self.latencyMs
    obtain ⟨r₂, hmeasured, hr₂⟩ := measureMovement_adverse hfloor hprice hdivide
    refine ⟨?_, ⟨fun _ => ⟨_, rfl⟩, fun _ => ⟨r₂, hmeasured⟩⟩, fun r' hr' => ?_⟩
    · exact measureMovement_sound hfloor hprice hdivide
    · have hsame : Except.ok r' = Except.ok r₂ := hr'.symm.trans hmeasured
      cases hsame
      exact hr₂

/-- What `resolve` returns or raises, over the two answers. -/
lemma resolve_snd :
    (self.resolve divide args client first second).2 =
      (self.resolveInitial divide args (self.firstAnswer args client first) first.nowMs).bind fun r =>
        if self.latencyApplied (self.firstAnswer args client first) = true then
          afterQuote divide self args r (self.delayedAnswer args client first second) second.nowMs
        else .ok r := by
  unfold resolve firstAnswer delayedAnswer
  dsimp only
  cases self.resolveInitial divide args (self.firstWalk args client first).2 first.nowMs with
  | error e => rfl
  | ok r =>
    dsimp only [Except.bind]
    cases self.latencyApplied (self.firstWalk args client first).2 <;> rfl

lemma resolve_fst :
    (self.resolve divide args client first second).1 =
      match self.resolveInitial divide args (self.firstAnswer args client first) first.nowMs with
      | .error _ => (self.firstWalk args client first).1
      | .ok _ =>
        if self.latencyApplied (self.firstAnswer args client first) = true then
          ((self.firstWalk args client first).1.query (self.walk args second)).1
        else (self.firstWalk args client first).1 := by
  unfold resolve firstAnswer
  dsimp only
  cases self.resolveInitial divide args (self.firstWalk args client first).2 first.nowMs with
  | error e => rfl
  | ok r =>
    dsimp only
    cases self.latencyApplied (self.firstWalk args client first).2 <;> rfl

/-- The answers that `resolve` reads have timestamps that can be read. -/
def ReadableAnswers (self : BookFillService) (args : FillArgs) (client : SlippageClient)
    (first second : WalkEnv) : Prop :=
  (∀ book ∈ self.firstAnswer args client first, Readable book) ∧
    (self.latencyApplied (self.firstAnswer args client first) = true →
      ∀ book ∈ self.delayedAnswer args client first second, fallbackUsed book = false → Readable book)

/-- `resolve` under any division that divides by what is positive. -/
lemma resolve_adverse {bps : ℚ} (hdivide : divide.Sound)
    (hfallback : args.fallback self.slippagePct = .fin fallback) (hpos : 0 < fallback)
    (hmin : self.minAdverseBps = .fin bps) (hbps : 0 ≤ bps) (client : SlippageClient)
    (first second : WalkEnv) :
    self.resolve divide args client first second = self.resolve .python args client first second ∧
    ((∃ r, (self.resolve divide args client first second).2 = .ok r) ↔
      self.ReadableAnswers args client first second) ∧
    ∃ price, Blended (self.firstAnswer args client first) fallback price ∧
      ∀ r, (self.resolve divide args client first second).2 = .ok r →
        Adverse args price
          (if self.latencyApplied (self.firstAnswer args client first) = true then price * bps / 10000
            else 0) r := by
  have hfirst : ∀ book ∈ self.firstAnswer args client first, IsAnswer book := isAnswer_first
  have hdelayed : ∀ book ∈ self.delayedAnswer args client first second, IsAnswer book :=
    isAnswer_delayed
  obtain ⟨price, hprices, hblended⟩ := resolveFillPrice_blended hfirst hfallback
  have hprice := hblended.pos hpos
  have hsound : self.resolveInitial divide args (self.firstAnswer args client first) first.nowMs =
      self.resolveInitial .python args (self.firstAnswer args client first) first.nowMs :=
    resolveInitial_sound hfirst hfallback hdivide
  have hok : (∃ r, self.resolveInitial divide args (self.firstAnswer args client first) first.nowMs =
      .ok r) ↔ ∀ book ∈ self.firstAnswer args client first, Readable book :=
    resolveInitial_ok_iff hfirst (hprices divide hdivide)
  have hclient : (self.resolve divide args client first second).1 =
      (self.resolve .python args client first second).1 := by
    rw [resolve_fst, resolve_fst, hsound]
  suffices hresult : (self.resolve divide args client first second).2 =
      (self.resolve .python args client first second).2 ∧
      ((∃ r, (self.resolve divide args client first second).2 = .ok r) ↔
        self.ReadableAnswers args client first second) ∧
      ∀ r, (self.resolve divide args client first second).2 = .ok r →
        Adverse args price
          (if self.latencyApplied (self.firstAnswer args client first) = true then price * bps / 10000
            else 0) r from
    ⟨Prod.ext hclient hresult.1, hresult.2.1, price, hblended, hresult.2.2⟩
  unfold ReadableAnswers
  rw [← hok, resolve_snd, resolve_snd, ← hsound]
  cases hr : self.resolveInitial divide args (self.firstAnswer args client first) first.nowMs with
  | error e => simp [Except.bind]
  | ok r₀ =>
    obtain ⟨hr₀, -⟩ := resolveInitial_ok (hprices divide hdivide) hr
    dsimp only [Except.bind]
    by_cases hlatency : self.latencyApplied (self.firstAnswer args client first) = true
    · obtain ⟨hsame, hreturns, hworse⟩ :=
        afterQuote_adverse hr₀ hprice hdivide hdelayed hfallback hmin hbps second.nowMs
      simp only [hlatency, if_true, forall_const]
      exact ⟨hsame, by rw [hreturns]; simp, hworse⟩
    · simp only [if_neg hlatency, hlatency]
      refine ⟨rfl, by simp, fun r hr' => ?_⟩
      cases hr'
      exact hr₀

/-- For every positive reference price, a slippage below 100 % and any two answers: `resolve` divides
by positive numbers only; it returns where it can read the timestamps of the answers; its initial
price is the fallback or lies between the book average and the fallback; its final price is not better,
and worse by `min_adverse_bps` where the latency model applies; the adverse movement is not negative. -/
theorem resolve_bounded {price slip bps : ℚ} (hrefPrice : args.refPrice = .fin price)
    (hprice : 0 < price) (hslippage : self.slippagePct = .fin slip) (hslip : 0 ≤ slip ∧ slip < 1000)
    (hmin : self.minAdverseBps = .fin bps) (hbps : 0 ≤ bps) (client : SlippageClient)
    (first second : WalkEnv) :
    self.resolve .positive args client first second = self.resolve .python args client first second ∧
    ((∃ r, (self.resolve .python args client first second).2 = .ok r) ↔
      self.ReadableAnswers args client first second) ∧
    ∀ r, (self.resolve .python args client first second).2 = .ok r →
      ∃ fallback initial final movement : ℚ, args.fallback self.slippagePct = .fin fallback ∧
        r.initialPrice = .fin initial ∧ r.finalPrice = .fin final ∧
        r.adverseMovementBps = .fin movement ∧
        Blended (self.firstAnswer args client first) fallback initial ∧
        WorseBy args 0 initial final ∧
        (self.latencyApplied (self.firstAnswer args client first) = true →
          WorseBy args (initial * bps / 10000) initial final) ∧
        0 ≤ movement := by
  obtain ⟨fallback, hfallback, hpos⟩ := fallback_pos hrefPrice hprice hslippage hslip
  obtain ⟨hpositive, -⟩ :=
    resolve_adverse Division.positive_sound hfallback hpos hmin hbps client first second
  obtain ⟨-, hreturns, initial, hblended, hadverse⟩ :=
    resolve_adverse Division.python_sound hfallback hpos hmin hbps client first second
  refine ⟨hpositive, hreturns, fun r hr => ?_⟩
  obtain ⟨hinitial, ⟨final, hfinal, hworse⟩, movement, hmovement, hnonneg⟩ := hadverse r hr
  have hinitialPos := hblended.pos hpos
  refine ⟨fallback, initial, final, movement, hfallback, hinitial, hfinal, hmovement, hblended, ?_,
    fun hlatency => ?_, hnonneg⟩
  · refine le_trans ?_ hworse
    split
    · positivity
    · exact le_rfl
  · rwa [if_pos hlatency] at hworse

/-- A walk that fills half of a long of 2 at 101, and a second quote that times out. -/
def halfFilled : Entries :=
  [("filled_qty", .float 1), ("requested_qty", .float 2), ("avg_exec_price", .float 101)]

def lateService : BookFillService where
  slippagePct := 5
  latencyModelEnabled := true
  minAdverseBps := 2

def longOfTwo : FillArgs where
  exchange := "Binance"
  symbol := "BTCUSDT"
  positionSide := "LONG"
  qty := 2
  refPrice := 100
  isClose := false
  refIsExecutable := false

def walkAt (reply : Reply) : WalkEnv := ⟨"a", 0, reply, 0, 2000⟩

theorem halfFilled_bounded :
    ∃ r, (lateService.resolve .python longOfTwo {} (walkAt (.item (.json (.obj halfFilled))))
        (walkAt .silent)).2 = .ok r ∧
      ∃ initial final : ℚ, r.initialPrice = .fin initial ∧ r.finalPrice = .fin final ∧
        WorseBy longOfTwo (initial * 2 / 10000) initial final := by
  have hanswer : lateService.firstAnswer longOfTwo {} (walkAt (.item (.json (.obj halfFilled)))) =
      some halfFilled := by decide +kernel
  have hdelayed : lateService.delayedAnswer longOfTwo {} (walkAt (.item (.json (.obj halfFilled))))
      (walkAt .silent) = none := by decide +kernel
  have hreadable : Readable halfFilled := ⟨0, by rfl, nofun⟩
  obtain ⟨-, hreturns, hbounds⟩ := @resolve_bounded lateService longOfTwo 100 5 2 rfl (by norm_num)
    rfl (by norm_num) rfl (by norm_num) {} (walkAt (.item (.json (.obj halfFilled)))) (walkAt .silent)
  obtain ⟨r, hr⟩ := hreturns.mpr
    ⟨fun book hbook => by rw [hanswer, Option.mem_some] at hbook; exact hbook ▸ hreadable,
      fun _ book hbook => by rw [hdelayed] at hbook; cases hbook⟩
  obtain ⟨-, initial, final, -, -, hinitial, hfinal, -, -, -, hworse, -⟩ := hbounds r hr
  exact ⟨r, hr, initial, final, hinitial, hfinal, hworse (by rw [hanswer]; decide)⟩

end BookFillService

end PaperTrade.Worker
