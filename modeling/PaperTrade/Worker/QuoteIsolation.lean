import PaperTrade.Runtime.Unwinding
import PaperTrade.Worker.Quotes

/-!
# Quotes across exchanges

Whether the TP/SL pass closes a position of an exchange, and at which price, should follow from the
messages of that exchange. The order books are kept by exchange, but the exit price asks for the
book of `binance` whatever the position says, and the tickers are kept by symbol alone. So the
outcome is the exchange's own exactly where no other exchange feeds the entries that are read: the
ticker of the symbol, and for a position of another exchange the book of `binance`.
-/

namespace PaperTrade.Worker

open PaperTrade.Runtime
open Executor (PriceQuote TpslEnv)

/-! ## The pass over the quotes of a run -/

/-- The settings of `run_consumer` that the quotes and their fills depend on. -/
structure QuoteSettings where
  tickerStalenessSec : PyFloat := 5
  openBookMaxAgeSec : PyFloat := .fin (5 / 10)
  slippagePct : PyFloat := .fin (5 / 100)

/-- The caches `run_consumer` starts with. -/
def QuoteSettings.quotes (settings : QuoteSettings) : Quotes where
  ticker := { stalenessSec := settings.tickerStalenessSec }
  ob := { stalenessSec := settings.openBookMaxAgeSec }

/-- What a check of a row takes from outside: the clock at its quote and at its fill, the time and
the ids it writes, and the fill service of the order book when that is enabled. -/
structure CheckEnv where
  clock : ℚ
  fillClock : ℚ
  now : String
  uuid : String → String
  bookFill : Option FillService := none

/-- The wiring of `run_price_check_loop` after the messages `arrivals`. -/
def CheckEnv.tpslEnv (env : CheckEnv) (settings : QuoteSettings) (arrivals : List Arrival) :
    TpslEnv where
  now := env.now
  uuid := env.uuid
  price := (settings.quotes.after arrivals).exitPriceFn env.clock
  fill := some (env.bookFill.getD
    (tickFill (settings.quotes.after arrivals).ticker settings.slippagePct env.fillClock))

/-- Which exchanges publish the ticker and the book of which symbols. -/
structure Feed where
  ticker : String → String → Prop
  obExec : String → String → Prop

/-- The feed publishes messages of this kind. -/
def Feed.Carries (feed : Feed) : MarketMessage → Prop
  | .ticker exchange symbol _ => feed.ticker exchange symbol
  | .obExec exchange symbol .. => feed.obExec exchange symbol

/-- A run of the feed before the clock reads `clock`. -/
structure Feed.Run (feed : Feed) (clock : ℚ) (arrivals : List Arrival) : Prop where
  carried : ∀ a ∈ arrivals, feed.Carries a.message
  past : ∀ a ∈ arrivals, a.clock ≤ clock

/-- The message is from the exchange. -/
def Arrival.isFrom (exchange : String) (arrival : Arrival) : Bool :=
  lower arrival.message.exchange = lower exchange

/-- Runs of the feed with the same messages from the exchange have the same outcome for its rows in
the symbol: the check of the row and the fill of `TickFillService`. -/
def QuotesIsolated (ex : Executor) (settings : QuoteSettings) (feed : Feed)
    (exchange symbol : String) : Prop :=
  ∀ (env : CheckEnv) (us vs : List Arrival), env.clock ≤ env.fillClock →
    feed.Run env.clock us → feed.Run env.clock vs →
    us.filter (Arrival.isFrom exchange) = vs.filter (Arrival.isFrom exchange) →
    (∀ pos : PositionRow, pos.exchange = exchange → pos.symbol = symbol →
      ex.checkPosition (env.tpslEnv settings us) pos =
        ex.checkPosition (env.tpslEnv settings vs) pos) ∧
    ∀ request : FillRequest, request.exchange = exchange → request.symbol = symbol →
      tickFill (settings.quotes.after us).ticker settings.slippagePct env.fillClock request =
        tickFill (settings.quotes.after vs).ticker settings.slippagePct env.fillClock request

/-- No other exchange feeds the entries that are read for the exchange and the symbol: no ticker
of the symbol, and no book of `binance` unless that is the exchange. A symbol without a name is not
quoted, and neither is anything under a negative staleness. -/
def OwnFeed (settings : QuoteSettings) (feed : Feed) (exchange symbol : String) : Prop :=
  symbol = "" ∨
    (settings.tickerStalenessSec < 0 ∨ ∀ other, feed.ticker other symbol →
      lower other = lower exchange) ∧
    (settings.openBookMaxAgeSec < 0 ∨ lower exchange = lower "binance" ∨
      ∀ other, feed.obExec other symbol → lower other ≠ lower "binance")

/-! ## The entries of the caches -/

namespace Quotes

variable {q : Quotes} {a : Arrival} {symbol : String}

/-- The ticker entry of a symbol, with the staleness it is read under. -/
def tickerView (symbol : String) (q : Quotes) : Option (PyFloat × ℚ) × PyFloat :=
  (Dict.get? q.ticker.prices symbol, q.ticker.stalenessSec)

/-- The entry of a symbol's book on `binance`, with the staleness it is read under. -/
def bookView (symbol : String) (q : Quotes) : Option BookItem × PyFloat :=
  (Dict.get? q.ob.data (lower "binance", symbol), q.ob.stalenessSec)

/-- A message leaves the ticker entry of a symbol alone, or it is a ticker of the symbol and sets the
entry. -/
lemma tickerView_receive (a : Arrival) (symbol : String) :
    (∀ q : Quotes, (q.receive a).tickerView symbol = q.tickerView symbol) ∨
      ∃ exchange price, a.message = .ticker exchange symbol (some price) ∧ symbol ≠ "" ∧
        ∀ q : Quotes, (q.receive a).tickerView symbol =
          (some (price, a.clock), (q.tickerView symbol).2) := by
  obtain ⟨clock, message⟩ := a
  cases message with
  | obExec exchange s bid ask state =>
    left
    intro q
    by_cases hs : s = "" <;> simp [receive, tickerView, hs]
  | ticker exchange s price =>
    cases price with
    | none => exact .inl fun q => rfl
    | some price =>
      by_cases hs : s = ""
      · exact .inl fun q => by simp [receive, hs]
      by_cases hprice : 0 < price
      · by_cases hsymbol : s = symbol
        · subst hsymbol
          refine .inr ⟨exchange, price, rfl, hs, fun q => ?_⟩
          simp [receive, tickerView, TickerPriceCache.updatePrice, hs, hprice, Dict.get?_set,
            -PyFloat.zero_eq]
        · refine .inl fun q => ?_
          simp [receive, tickerView, TickerPriceCache.updatePrice, hs, hprice, Dict.get?_set,
            Ne.symm hsymbol, -PyFloat.zero_eq]
      · exact .inl fun q => by simp [receive, TickerPriceCache.updatePrice, hs, hprice, -PyFloat.zero_eq]

/-- A message leaves the book of a symbol on `binance` alone, or it is of that book and sets it. -/
lemma bookView_receive (a : Arrival) (symbol : String) :
    (∀ q : Quotes, (q.receive a).bookView symbol = q.bookView symbol) ∨
      ∃ exchange bid ask state, a.message = .obExec exchange symbol bid ask state ∧ symbol ≠ "" ∧
        lower exchange = lower "binance" ∧ ∀ q : Quotes, (q.receive a).bookView symbol =
          (some ⟨bid, ask, state, a.clock⟩, (q.bookView symbol).2) := by
  obtain ⟨clock, message⟩ := a
  cases message with
  | ticker exchange s price =>
    left
    intro q
    cases price with
    | none => rfl
    | some price => by_cases hs : s = "" <;> simp [receive, bookView, hs]
  | obExec exchange s bid ask state =>
    by_cases hs : s = ""
    · exact .inl fun q => by simp [receive, hs]
    by_cases hkey : (lower "binance", symbol) = (lower exchange, s)
    · obtain ⟨hvenue, rfl⟩ := Prod.mk.inj hkey
      refine .inr ⟨exchange, bid, ask, state, rfl, hs, hvenue.symm, fun q => ?_⟩
      simp [receive, bookView, ObExecCache.update, hs, hvenue, Dict.get?_set]
    · refine .inl fun q => ?_
      simp only [receive, bookView, ObExecCache.update, hs, if_false, Dict.get?_set, hkey]

variable {feed : Feed} {exchange symbol : String}

/-- The ticker entry follows the exchange alone when no other one sends the ticker. -/
lemma unwinds_tickerView
    (h : symbol = "" ∨ ∀ other, feed.ticker other symbol → lower other = lower exchange) :
    Unwinds receive (fun a => feed.Carries a.message) (Arrival.isFrom exchange)
      (tickerView symbol) := by
  apply Unwinds.of_cases
  intro a ha
  obtain hleft | ⟨other, price, hmessage, hsymbol, hset⟩ := tickerView_receive a symbol
  · exact .inl hleft
  · have hother : lower other = lower exchange := by
      refine h.resolve_left hsymbol other ?_
      rwa [hmessage] at ha
    refine .inr ⟨?_, fun view => (some (price, a.clock), view.2), hset⟩
    simp [Arrival.isFrom, hmessage, MarketMessage.exchange, hother]

/-- The book on `binance` follows the exchange alone when it is `binance` or the book is not sent. -/
lemma unwinds_bookView
    (h : symbol = "" ∨ lower exchange = lower "binance" ∨
      ∀ other, feed.obExec other symbol → lower other ≠ lower "binance") :
    Unwinds receive (fun a => feed.Carries a.message) (Arrival.isFrom exchange)
      (bookView symbol) := by
  apply Unwinds.of_cases
  intro a ha
  obtain hleft | ⟨other, bid, ask, state, hmessage, hsymbol, hvenue, hset⟩ :=
    bookView_receive a symbol
  · exact .inl hleft
  · have hcarried : feed.obExec other symbol := by rwa [hmessage] at ha
    obtain hown | hnone := h.resolve_left hsymbol
    · refine .inr ⟨?_, fun view => (some ⟨bid, ask, state, a.clock⟩, view.2), hset⟩
      simp [Arrival.isFrom, hmessage, MarketMessage.exchange, hvenue, hown]
    · exact absurd hvenue (hnone other hcarried)

/-! ## Reading the entries -/

/-- The views keep the staleness of the settings. -/
lemma getQuote_of_tickerView {q q' : Quotes} (h : q.tickerView symbol = q'.tickerView symbol)
    (clock : ℚ) : q.ticker.getQuote clock symbol = q'.ticker.getQuote clock symbol := by
  obtain ⟨hitem, hstale⟩ := Prod.mk.inj h
  unfold TickerPriceCache.getQuote
  rw [hitem, hstale]

lemma sideQuote_of_bookView {q q' : Quotes} (h : q.bookView symbol = q'.bookView symbol)
    (clock : ℚ) (side : String) :
    q.ob.sideQuote clock symbol side = q'.ob.sideQuote clock symbol side := by
  obtain ⟨hitem, hstale⟩ := Prod.mk.inj h
  unfold ObExecCache.sideQuote
  rw [hitem, hstale]

/-- Under a negative staleness an entry of the past is stale. -/
lemma stale_of_neg {staleness : PyFloat} (hneg : staleness < 0) {ts clock : ℚ} (h : ts ≤ clock) :
    staleness < .fin (clock - ts) := by
  cases staleness with
  | nan => exact hneg
  | inf negative => exact hneg
  | fin q =>
    have hq : q < 0 := (PyFloat.fin_lt_fin q 0).mp hneg
    apply (PyFloat.fin_lt_fin q (clock - ts)).mpr
    linarith

section

variable {settings : QuoteSettings} {arrivals us vs : List Arrival} {clock : ℚ}

/-- The entries of the caches are of messages of the past, and read under the staleness of the
settings. -/
lemma views_after (settings : QuoteSettings) (symbol : String) (hpast : ∀ a ∈ arrivals, a.clock ≤ clock) :
    (((settings.quotes.after arrivals).tickerView symbol).2 = settings.tickerStalenessSec ∧
      ∀ item, ((settings.quotes.after arrivals).tickerView symbol).1 = some item →
        item.2 ≤ clock) ∧
    ((settings.quotes.after arrivals).bookView symbol).2 = settings.openBookMaxAgeSec ∧
      ∀ item, ((settings.quotes.after arrivals).bookView symbol).1 = some item →
        item.ts ≤ clock := by
  apply List.foldlRecOn (motive := fun q : Quotes =>
    ((q.tickerView symbol).2 = settings.tickerStalenessSec ∧
      ∀ item, (q.tickerView symbol).1 = some item → item.2 ≤ clock) ∧
    (q.bookView symbol).2 = settings.openBookMaxAgeSec ∧
      ∀ item, (q.bookView symbol).1 = some item → item.ts ≤ clock) arrivals receive
  · exact ⟨⟨rfl, fun item h => nomatch h⟩, rfl, fun item h => nomatch h⟩
  · intro q ⟨hticker, hbook⟩ a ha
    constructor
    · obtain hleft | ⟨_, price, -, -, hset⟩ := tickerView_receive a symbol
      · rwa [hleft q]
      · rw [hset q]
        refine ⟨hticker.1, fun item hitem => ?_⟩
        obtain rfl := Option.some.inj hitem
        exact hpast a ha
    · obtain hleft | ⟨_, bid, ask, state, -, -, -, hset⟩ := bookView_receive a symbol
      · rwa [hleft q]
      · rw [hset q]
        refine ⟨hbook.1, fun item hitem => ?_⟩
        obtain rfl := Option.some.inj hitem
        exact hpast a ha

/-- Under a negative staleness no ticker is quoted. -/
lemma getQuote_of_neg (hneg : settings.tickerStalenessSec < 0)
    (hpast : ∀ a ∈ arrivals, a.clock ≤ clock) :
    (settings.quotes.after arrivals).ticker.getQuote clock symbol = none := by
  obtain ⟨⟨hstale, hitems⟩, -⟩ := views_after settings symbol hpast
  rw [TickerPriceCache.getQuote, Option.bind_eq_none_iff]
  intro item hitem
  have hold : settings.tickerStalenessSec < .fin (clock - item.2) :=
    stale_of_neg hneg (hitems item hitem)
  rw [← hstale] at hold
  exact if_pos hold

/-- Under a negative staleness no book is quoted. -/
lemma sideQuote_of_neg (hneg : settings.openBookMaxAgeSec < 0)
    (hpast : ∀ a ∈ arrivals, a.clock ≤ clock) (side : String) :
    (settings.quotes.after arrivals).ob.sideQuote clock symbol side = none := by
  obtain ⟨-, hstale, hitems⟩ := views_after settings symbol hpast
  rw [ObExecCache.sideQuote, Option.bind_eq_none_iff]
  intro item hitem
  have hold : settings.openBookMaxAgeSec < .fin (clock - item.ts) :=
    stale_of_neg hneg (hitems item hitem)
  have hkept : (settings.quotes.after arrivals).ob.stalenessSec = settings.openBookMaxAgeSec :=
    hstale
  rw [hkept, if_pos hold, ite_self]

/-! ## Runs that agree on the exchange -/

/-- In an own feed the ticker quote follows the messages of the exchange. -/
lemma getQuote_eq (hown : OwnFeed settings feed exchange symbol) (hus : feed.Run clock us)
    (hvs : feed.Run clock vs)
    (heq : us.filter (Arrival.isFrom exchange) = vs.filter (Arrival.isFrom exchange))
    {later : ℚ} (hlater : clock ≤ later) :
    (settings.quotes.after us).ticker.getQuote later symbol =
      (settings.quotes.after vs).ticker.getQuote later symbol := by
  by_cases hneg : settings.tickerStalenessSec < 0
  · rw [getQuote_of_neg hneg fun a ha => (hus.past a ha).trans hlater,
      getQuote_of_neg hneg fun a ha => (hvs.past a ha).trans hlater]
  · have hunwinds := unwinds_tickerView (hown.imp_right fun h => h.1.resolve_left hneg)
    exact getQuote_of_tickerView (hunwinds.foldl_eq hus.carried hvs.carried heq) later

/-- In an own feed the book quote follows the messages of the exchange. -/
lemma sideQuote_eq (hown : OwnFeed settings feed exchange symbol) (hus : feed.Run clock us)
    (hvs : feed.Run clock vs)
    (heq : us.filter (Arrival.isFrom exchange) = vs.filter (Arrival.isFrom exchange))
    (side : String) :
    (settings.quotes.after us).ob.sideQuote clock symbol side =
      (settings.quotes.after vs).ob.sideQuote clock symbol side := by
  by_cases hneg : settings.openBookMaxAgeSec < 0
  · rw [sideQuote_of_neg hneg hus.past, sideQuote_of_neg hneg hvs.past]
  · have hunwinds := unwinds_bookView (hown.imp_right fun h => h.2.resolve_left hneg)
    exact sideQuote_of_bookView (hunwinds.foldl_eq hus.carried hvs.carried heq) clock side

/-- In an own feed the exit price of a row of the exchange follows the messages of the exchange. -/
lemma exitPriceFn_eq (hown : OwnFeed settings feed exchange symbol) (hus : feed.Run clock us)
    (hvs : feed.Run clock vs)
    (heq : us.filter (Arrival.isFrom exchange) = vs.filter (Arrival.isFrom exchange))
    (side : String) :
    (settings.quotes.after us).exitPriceFn clock symbol side =
      (settings.quotes.after vs).exitPriceFn clock symbol side := by
  unfold exitPriceFn
  rw [sideQuote_eq hown hus hvs heq side, getQuote_eq hown hus hvs heq le_rfl]

/-- In an own feed `TickFillService` follows the messages of the exchange. -/
lemma tickFill_eq (hown : OwnFeed settings feed exchange symbol) (hus : feed.Run clock us)
    (hvs : feed.Run clock vs)
    (heq : us.filter (Arrival.isFrom exchange) = vs.filter (Arrival.isFrom exchange))
    {later : ℚ} (hlater : clock ≤ later) {request : FillRequest}
    (hsymbol : request.symbol = symbol) :
    tickFill (settings.quotes.after us).ticker settings.slippagePct later request =
      tickFill (settings.quotes.after vs).ticker settings.slippagePct later request := by
  unfold tickFill
  rw [hsymbol, getQuote_eq hown hus hvs heq hlater]

end

end Quotes

/-! ## The check of a row -/

/-- A check depends on its surroundings through the quote and the fill of its own row. -/
lemma checkPosition_congr {ex : Executor} {env env' : TpslEnv} {pos : PositionRow}
    (hnow : env.now = env'.now) (huuid : env.uuid = env'.uuid)
    (hprice : env.price pos.symbol pos.side = env'.price pos.symbol pos.side)
    (hsome : env.fill.isSome = env'.fill.isSome)
    (hfill : ∀ quote, ex.tpslFill env pos quote = ex.tpslFill env' pos quote) :
    ex.checkPosition env pos = ex.checkPosition env' pos := by
  unfold Executor.checkPosition
  rw [hprice]
  simp only [hnow, huuid, hsome, hfill]

/-- A row that a quote hits is closed: the check does not end with nothing done. -/
lemma checkPosition_ne_of_hit {ex : Executor} {env : TpslEnv} {pos : PositionRow}
    {quote : PriceQuote} {hit : String × PyFloat}
    (hprice : env.price pos.symbol pos.side = some quote)
    (hhit : Executor.tpslHit pos quote.price = some hit) (hsome : env.fill.isSome = true) :
    ex.checkPosition env pos ≠ pure none := by
  intro hnone
  unfold Executor.checkPosition at hnone
  rw [hprice] at hnone
  dsimp only at hnone
  rw [hhit] at hnone
  simp only [hsome, if_true] at hnone
  -- the first thing a close does is to wait for its fill
  exact nomatch hnone

/-- A row without a quote is left alone. -/
lemma checkPosition_of_no_quote {ex : Executor} {env : TpslEnv} {pos : PositionRow}
    (hprice : env.price pos.symbol pos.side = none) : ex.checkPosition env pos = pure none := by
  unfold Executor.checkPosition
  rw [hprice]

/-! ## Messages of other exchanges -/

section

variable {settings : QuoteSettings} {feed : Feed} {exchange other symbol : String}

/-- A run of one message of another exchange, which the exchange does not see. -/
lemma run_singleton {message : MarketMessage} (exchange : String)
    (hcarried : feed.Carries message) (hother : lower message.exchange ≠ lower exchange) :
    feed.Run 0 [⟨0, message⟩] ∧
      [(⟨0, message⟩ : Arrival)].filter (Arrival.isFrom exchange) =
        ([] : List Arrival).filter (Arrival.isFrom exchange) := by
  refine ⟨⟨?_, ?_⟩, ?_⟩
  · intro a ha
    obtain rfl := List.mem_singleton.mp ha
    exact hcarried
  · intro a ha
    obtain rfl := List.mem_singleton.mp ha
    exact le_rfl
  · simp [Arrival.isFrom, hother]

lemma run_nil (feed : Feed) (clock : ℚ) : feed.Run clock [] :=
  ⟨fun _ ha => absurd ha List.not_mem_nil, fun _ ha => absurd ha List.not_mem_nil⟩

lemma after_singleton (q : Quotes) (a : Arrival) : q.after [a] = q.receive a := rfl

/-- A fresh ticker of any exchange is quoted. -/
lemma getQuote_ticker (other : String) (hsymbol : symbol ≠ "")
    (hfresh : ¬ settings.tickerStalenessSec < 0) :
    (settings.quotes.after [⟨0, .ticker other symbol (some 2)⟩]).ticker.getQuote 0 symbol =
      some ⟨2, "ticker_mid", false⟩ := by
  have hpos : (0 : PyFloat) < 2 := by decide +kernel
  rw [after_singleton]
  simp only [Quotes.receive, TickerPriceCache.updatePrice, if_neg hsymbol, if_pos hpos,
    TickerPriceCache.getQuote, Dict.get?_set, if_true, Option.bind_some, sub_self]
  exact if_neg hfresh

/-- Without a book, a fresh ticker of any exchange is the exit price. -/
lemma exitPriceFn_ticker (settings : QuoteSettings) (other side : String) (hsymbol : symbol ≠ "")
    (hfresh : ¬ settings.tickerStalenessSec < 0) :
    (settings.quotes.after [⟨0, .ticker other symbol (some 2)⟩]).exitPriceFn 0 symbol side =
      some ⟨2, "ticker_mid", false⟩ := by
  have hbook : (settings.quotes.after [⟨0, .ticker other symbol (some 2)⟩]).ob.sideQuote 0 symbol
      side = none := by
    rw [after_singleton]
    simp only [Quotes.receive, if_neg hsymbol]
    rfl
  unfold Quotes.exitPriceFn
  rw [hbook, getQuote_ticker other hsymbol hfresh]

/-- A fresh book of `binance` is the exit price of every exchange. -/
lemma exitPriceFn_book (hother : lower other = lower "binance") (hsymbol : symbol ≠ "")
    (hfresh : ¬ settings.openBookMaxAgeSec < 0) :
    (settings.quotes.after [⟨0, .obExec other symbol 2 2 "READY"⟩]).exitPriceFn 0 symbol "LONG" =
      some ⟨2, "ob_exec", true⟩ := by
  have hquote : (settings.quotes.after [⟨0, .obExec other symbol 2 2 "READY"⟩]).ob.sideQuote 0
      symbol "LONG" = some ⟨2, "ob_exec", true⟩ := by
    rw [after_singleton]
    simp only [Quotes.receive, ObExecCache.update, if_neg hsymbol, ObExecCache.sideQuote, hother,
      Dict.get?_set, if_true, Option.bind_some, sub_self, ne_eq, not_true_eq_false, if_false]
    rw [if_neg (show ¬ settings.quotes.ob.stalenessSec < .fin 0 from hfresh)]
    rfl
  unfold Quotes.exitPriceFn
  rw [hquote]

/-- A ticker of another exchange is the fill of a row of this one. -/
lemma tickFill_other (exchange other : String) (hsymbol : symbol ≠ "")
    (hfresh : ¬ settings.tickerStalenessSec < 0) :
    tickFill (settings.quotes.after [⟨0, .ticker other symbol (some 2)⟩]).ticker
        settings.slippagePct 0 ⟨exchange, symbol, "LONG", some 1, some 1, true, false⟩ ≠
      tickFill (settings.quotes.after []).ticker settings.slippagePct 0
        ⟨exchange, symbol, "LONG", some 1, some 1, true, false⟩ := by
  intro heq
  simp only [tickFill, getQuote_ticker other hsymbol hfresh] at heq
  have hreason := congrArg (Option.map FillResolution.fallbackReason) heq
  exact nomatch hreason

/-- A long position of the exchange with its TP at 1. -/
def stoppedRow (exchange symbol : String) : PositionRow :=
  ⟨"p", "a", "s", symbol, "LONG", some 1, some 1, some 1, none, 1, "", "{}", exchange, none⟩

/-- A check at the clock 0. -/
def checkEnv : CheckEnv where
  clock := 0
  fillClock := 0
  now := ""
  uuid := id

/-- A book of `binance` closes a row of any exchange. -/
lemma checkPosition_other (ex : Executor) (exchange : String) (hother : lower other = lower "binance")
    (hsymbol : symbol ≠ "") (hfresh : ¬ settings.openBookMaxAgeSec < 0) :
    ex.checkPosition (checkEnv.tpslEnv settings [⟨0, .obExec other symbol 2 2 "READY"⟩])
        (stoppedRow exchange symbol) ≠
      ex.checkPosition (checkEnv.tpslEnv settings []) (stoppedRow exchange symbol) := by
  have hhit : Executor.tpslHit (stoppedRow exchange symbol) 2 = some ("TP_HIT", 1) := by
    have hle : (1 : PyFloat) ≤ 2 := by decide +kernel
    simp [Executor.tpslHit, stoppedRow, Option.filter, hle]
  have hidle : ex.checkPosition (checkEnv.tpslEnv settings []) (stoppedRow exchange symbol) =
      pure none := checkPosition_of_no_quote rfl
  rw [hidle]
  exact checkPosition_ne_of_hit (exitPriceFn_book hother hsymbol hfresh) hhit rfl

end

/-! ## Where the quotes are isolated -/

/-- The outcome for the rows of an exchange follows its own messages in every run of the feed if and
only if no other exchange feeds the entries that are read. -/
theorem quotesIsolated_iff_ownFeed (ex : Executor) (settings : QuoteSettings) (feed : Feed)
    (exchange symbol : String) :
    QuotesIsolated ex settings feed exchange symbol ↔ OwnFeed settings feed exchange symbol := by
  constructor
  · intro hisolated
    by_contra hown
    obtain ⟨hsymbol, hfeeds⟩ := not_or.mp hown
    obtain hticker | hbook := not_and_or.mp hfeeds
    · -- a ticker of another exchange changes the fill
      obtain ⟨hfresh, hothers⟩ := not_or.mp hticker
      push Not at hothers
      obtain ⟨other, hcarried, hother⟩ := hothers
      have hcarries : feed.Carries (.ticker other symbol (some 2)) := hcarried
      obtain ⟨hrun, hfilter⟩ := run_singleton exchange hcarries hother
      obtain ⟨-, hfill⟩ := hisolated checkEnv _ [] le_rfl hrun (run_nil feed 0) hfilter
      exact tickFill_other exchange other hsymbol hfresh (hfill _ rfl rfl)
    · -- a book of `binance` closes a row of another exchange
      obtain ⟨hfresh, hothers⟩ := not_or.mp hbook
      obtain ⟨hvenue, hothers⟩ := not_or.mp hothers
      push Not at hothers
      obtain ⟨other, hcarried, hother⟩ := hothers
      have hcarries : feed.Carries (.obExec other symbol 2 2 "READY") := hcarried
      obtain ⟨hrun, hfilter⟩ := run_singleton exchange hcarries
        fun h => hvenue (h.symm.trans hother)
      obtain ⟨hcheck, -⟩ := hisolated checkEnv _ [] le_rfl hrun (run_nil feed 0) hfilter
      exact checkPosition_other ex exchange hother hsymbol hfresh
        (hcheck (stoppedRow exchange symbol) rfl rfl)
  · intro hown env us vs hclock hus hvs heq
    constructor
    · intro pos hexchange hsymbol
      have hfill : ∀ request : FillRequest, request.symbol = symbol →
          ((env.tpslEnv settings us).fill.bind fun f => f request) =
            (env.tpslEnv settings vs).fill.bind fun f => f request := by
        intro request hrequest
        cases hbook : env.bookFill with
        | none =>
          simp only [CheckEnv.tpslEnv, hbook, Option.getD_none, Option.bind_some]
          exact Quotes.tickFill_eq hown hus hvs heq hclock hrequest
        | some service => simp only [CheckEnv.tpslEnv, hbook, Option.getD_some]
      refine checkPosition_congr rfl rfl ?_ rfl fun quote => ?_
      · rw [hsymbol]
        exact Quotes.exitPriceFn_eq hown hus hvs heq pos.side
      · have hresolved := hfill ⟨pos.exchange, pos.symbol, pos.side, pos.qty, some quote.price, true,
          quote.isExecutable⟩ hsymbol
        simp only [CheckEnv.tpslEnv, Option.bind_some] at hresolved
        simp only [Executor.tpslFill, CheckEnv.tpslEnv, hresolved]
    · intro request hexchange hsymbol
      exact Quotes.tickFill_eq hown hus hvs heq hclock hsymbol

/-- Tickers of one symbol on two exchanges. -/
def twoVenues : Feed where
  ticker exchange symbol := exchange ∈ ["binance", "bybit"] ∧ symbol = "BTCUSDT"
  obExec _ _ := False

/-- A ticker of `bybit` closes a position of `binance` that no message of `binance` closes. -/
theorem bybit_ticker_closes_binance : ¬ QuotesIsolated {} {} twoVenues "binance" "BTCUSDT" := by
  intro hisolated
  have hcarries : twoVenues.Carries (.ticker "bybit" "BTCUSDT" (some 2)) := by
    simp [Feed.Carries, twoVenues]
  obtain ⟨hrun, hfilter⟩ := run_singleton "binance" hcarries (by decide)
  obtain ⟨hcheck, -⟩ := hisolated checkEnv _ [] le_rfl hrun (run_nil twoVenues 0) hfilter
  have hidle : Executor.checkPosition {} (checkEnv.tpslEnv {} []) (stoppedRow "binance" "BTCUSDT") =
      pure none := checkPosition_of_no_quote rfl
  have hquote : (checkEnv.tpslEnv {} [⟨0, .ticker "bybit" "BTCUSDT" (some 2)⟩]).price "BTCUSDT"
      "LONG" = some ⟨2, "ticker_mid", false⟩ :=
    have hname : "BTCUSDT" ≠ "" := by decide
    exitPriceFn_ticker {} "bybit" "LONG" hname (by decide +kernel)
  have hhit : Executor.tpslHit (stoppedRow "binance" "BTCUSDT") 2 = some ("TP_HIT", 1) := by
    decide +kernel
  have hsame := hcheck (stoppedRow "binance" "BTCUSDT") rfl rfl
  exact checkPosition_ne_of_hit hquote hhit rfl (hsame.trans hidle)

end PaperTrade.Worker
