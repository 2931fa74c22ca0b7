import PaperTrade.Worker.Executor

/-!
# Quotes

The ticker cache and the order-book cache of the worker, the messages that fill them, and what the
TP/SL pass reads from them: the exit price of a position and the fill of `TickFillService`. Both
caches keep the clock of the last message of a key, and serve it while it is fresh.
-/

namespace PaperTrade.Worker

open PaperTrade.Runtime
open Executor (PriceQuote)

/-! ## The ticker cache -/

/-- `TickerPriceCache`: per symbol the last price and when it came. -/
structure TickerPriceCache where
  prices : Dict String (PyFloat × ℚ) := .empty
  stalenessSec : PyFloat := 5

namespace TickerPriceCache

/-- `TickerPriceCache.update_price`. -/
def updatePrice (self : TickerPriceCache) (clock : ℚ) (symbol : String) (price : PyFloat) :
    TickerPriceCache :=
  if 0 < price then { self with prices := Dict.set self.prices symbol (price, clock) } else self

/-- `TickerPriceCache.get_quote`. -/
def getQuote (self : TickerPriceCache) (clock : ℚ) (symbol : String) : Option PriceQuote :=
  (Dict.get? self.prices symbol).bind fun item =>
    if self.stalenessSec < .fin (clock - item.2) then none
    else some ⟨item.1, "ticker_mid", false⟩

end TickerPriceCache

/-! ## The order-book cache -/

/-- The last message of a book in `ObExecCache`. -/
structure BookItem where
  bid : PyFloat
  ask : PyFloat
  state : String
  ts : ℚ

/-- `ObExecCache`, by the lower-cased exchange and the symbol. -/
structure ObExecCache where
  data : Dict (List Char × String) BookItem := .empty
  stalenessSec : PyFloat := 2

namespace ObExecCache

/-- `ObExecCache.update`, less the futures that wait for a book. -/
def update (self : ObExecCache) (clock : ℚ) (symbol : String) (bestBid bestAsk : PyFloat)
    (state exchange : String) : ObExecCache :=
  { self with data := Dict.set self.data (lower exchange, symbol) ⟨bestBid, bestAsk, state, clock⟩ }

/-- `ObExecCache.side_quote`, whose caller in the worker leaves `exchange` at its default. -/
def sideQuote (self : ObExecCache) (clock : ℚ) (symbol positionSide : String)
    (exchange : String := "binance") : Option PriceQuote :=
  (Dict.get? self.data (lower exchange, symbol)).bind fun item =>
    if item.state ≠ "READY" then none
    else if self.stalenessSec < .fin (clock - item.ts) then none
    else
      let price := if isLongSide positionSide then item.bid else item.ask
      if !price.truthy || price ≤ 0 then none else some ⟨price, "ob_exec", true⟩

end ObExecCache

/-! ## The subscribers -/

/-- A message of a `ticker:{exchange}` or an `ob_exec:{exchange}:*` channel. -/
inductive MarketMessage
  | ticker (exchange symbol : String) (price : Option PyFloat)
  | obExec (exchange symbol : String) (bestBid bestAsk : PyFloat) (bookState : String)

/-- The exchange of the channel. -/
def MarketMessage.exchange : MarketMessage → String
  | ticker exchange .. => exchange
  | obExec exchange .. => exchange

/-- A message and the clock when it comes. -/
structure Arrival where
  clock : ℚ
  message : MarketMessage

/-- The two caches of `run_consumer`. -/
structure Quotes where
  ticker : TickerPriceCache := {}
  ob : ObExecCache := {}

namespace Quotes

/-- The body of `run_ticker_subscriber` and of `run_ob_exec_subscriber`. -/
def receive (self : Quotes) (arrival : Arrival) : Quotes :=
  match arrival.message with
  | .ticker _ symbol price =>
    match price with
    | none => self
    | some price =>
      if symbol = "" then self
      else { self with ticker := self.ticker.updatePrice arrival.clock symbol price }
  | .obExec exchange symbol bestBid bestAsk bookState =>
    if symbol = "" then self
    else { self with
      ob := self.ob.update arrival.clock symbol bestBid bestAsk bookState exchange }

/-- The caches after the messages of a run. -/
def after (self : Quotes) (arrivals : List Arrival) : Quotes := arrivals.foldl receive self

/-! ## What the TP/SL pass reads -/

/-- `make_exit_price_fn`. -/
def exitPriceFn (self : Quotes) (clock : ℚ) (symbol positionSide : String) : Option PriceQuote :=
  match self.ob.sideQuote clock symbol positionSide with
  | some quote => some quote
  | none => self.ticker.getQuote clock symbol

end Quotes

/-- `order_side_for`. -/
def orderSideFor (positionSide : String) (isClose : Bool) : String :=
  if isLongSide positionSide ^^ isClose then "BUY" else "SELL"

/-- `TickFillService.resolve` at a reference price; without one the request is not made here. -/
def tickFill (cache : TickerPriceCache) (slippagePct : PyFloat) (clock : ℚ) : FillService :=
  fun request => request.refPrice.map fun refPrice =>
    let orderSide := orderSideFor request.positionSide request.isClose
    match cache.getQuote clock request.symbol with
    | some quote =>
      { finalPrice := quote.price, orderSide, initialPrice := quote.price
        initialSource := quote.source, requestedQty := request.qty, filledQty := request.qty }
    | none =>
      let fallbackPrice :=
        if request.refIsExecutable then refPrice
        else fixedPctFill refPrice request.positionSide slippagePct request.isClose
      { finalPrice := fallbackPrice, orderSide, initialPrice := fallbackPrice
        initialSource := if request.refIsExecutable then "executable_ref" else "fixed_pct"
        requestedQty := request.qty, filledQty := some 0
        fallbackReason := some "ticker_unavailable" }

end PaperTrade.Worker
