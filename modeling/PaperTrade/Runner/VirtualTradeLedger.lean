import Mathlib.Data.List.Sort
import PaperTrade.Runtime.Spelling
import PaperTrade.Runtime.Table
import PaperTrade.Runtime.Text

/-!
# The publisher of the virtual ledger

`VirtualTradeLedgerPublisher.rebalance`: every open position with a price is closed, and every symbol
with a weight and a price is opened, under ids that are name-based UUIDs of the alpha, the symbol
and the candle. `_stable_id` is a parameter. The events and the next positions go to Redis in one
pipeline, and a new process restores the positions from there.
-/

namespace PaperTrade.Runner

open PaperTrade.Runtime

/-- An entry of `_positions`; the symbol is its key. -/
structure LedgerPosition where
  positionId : String
  symbol : String
  side : String
  entryPrice : PyFloat
  qty : PyFloat
  weight : PyFloat
  openedAt : String
  entryCandleOpenMs : ℤ

/-- `_positions`. -/
abbrev LedgerBook := Table LedgerPosition.symbol

/-- The arguments of `rebalance`. -/
structure Rebalance where
  weights : Dict String PyFloat
  prices : Dict String PyFloat
  candleOpenMs : ℤ
  timeframe : String := "1h"
  metadataBySymbol : Dict String Entries := .empty
  eventAt : String
  closeReason : String := "VIRTUAL_REBALANCE"

/-- `float(prices.get(symbol, 0.0))`. -/
def Rebalance.price (r : Rebalance) (symbol : String) : PyFloat := (r.prices.get? symbol).getD 0

/-- A `VirtualTradeLedgerPublisher`. -/
structure VirtualTradeLedger where
  alphaId : String
  capital : PyFloat
  exchange : String

namespace VirtualTradeLedger

variable (x : VirtualTradeLedger) (stableId : List String → String)

/-- The id of a position opened at a candle. -/
def positionIdAt (symbol : String) (candleOpenMs : ℤ) : String :=
  stableId ["position", x.alphaId, symbol, toString candleOpenMs]

/-- The `event_id` of a `VIRTUAL_OPEN`. -/
def openId (positionId : String) : String := stableId ["open", positionId]

/-- The `event_id` of a `VIRTUAL_CLOSE`. -/
def closeId (positionId : String) (candleOpenMs : ℤ) : String :=
  stableId ["close", positionId, toString candleOpenMs]

/-- The `VIRTUAL_CLOSE` of a position. -/
def closeEvent (r : Rebalance) (p : LedgerPosition) : Entries :=
  [("ledger_mode", .str "virtual"), ("type", .str "VIRTUAL_CLOSE"),
   ("event_id", .str (closeId stableId p.positionId r.candleOpenMs)),
   ("position_id", .str p.positionId), ("alpha_id", .str x.alphaId), ("symbol", .str p.symbol),
   ("side", .str p.side), ("price", .float (r.price p.symbol)), ("qty", .float p.qty),
   ("weight", .float p.weight), ("exchange", .str x.exchange), ("timeframe", .str r.timeframe),
   ("timestamp", .str r.eventAt), ("candle_open_ms", .int r.candleOpenMs),
   ("reason", .str r.closeReason),
   ("metadata", .obj [("virtual", .bool true), ("ledger_source", .str "shadow_sleeve")])]

/-- The position that a rebalance opens. -/
def newPosition (r : Rebalance) (symbol : String) (weight : PyFloat) : LedgerPosition where
  positionId := x.positionIdAt stableId symbol r.candleOpenMs
  symbol := symbol
  side := if 0 < weight then "LONG" else "SHORT"
  entryPrice := r.price symbol
  qty := x.capital * weight.abs / r.price symbol
  weight := weight
  openedAt := r.eventAt
  entryCandleOpenMs := r.candleOpenMs

/-- The metadata of a new position. -/
def newMetadata (r : Rebalance) (symbol : String) (weight : PyFloat) : Entries :=
  Entries.update ((r.metadataBySymbol.get? symbol).getD [])
    [("virtual", .bool true), ("ledger_source", .str "shadow_sleeve"), ("weight", .float weight)]

/-- The `VIRTUAL_OPEN` of a new position. -/
def openEvent (r : Rebalance) (p : LedgerPosition) : Entries :=
  [("ledger_mode", .str "virtual"), ("type", .str "VIRTUAL_OPEN"),
   ("event_id", .str (openId stableId p.positionId)), ("position_id", .str p.positionId),
   ("alpha_id", .str x.alphaId), ("symbol", .str p.symbol), ("side", .str p.side),
   ("price", .float p.entryPrice), ("qty", .float p.qty), ("weight", .float p.weight),
   ("exchange", .str x.exchange), ("timeframe", .str r.timeframe), ("timestamp", .str r.eventAt),
   ("candle_open_ms", .int r.candleOpenMs),
   ("metadata", .obj (newMetadata r p.symbol p.weight))]

/-- `sorted(self._positions.items())`. -/
def sortedPositions (positions : LedgerBook) : List LedgerPosition :=
  positions.rows.insertionSort fun p q => p.symbol ≤ q.symbol

/-- `sorted(weights.items())`. -/
def sortedWeights (r : Rebalance) : List (String × PyFloat) :=
  r.weights.rows.insertionSort fun w v => w.1 ≤ v.1

/-- The positions that the first loop closes. -/
def closing (positions : LedgerBook) (r : Rebalance) : List LedgerPosition :=
  (sortedPositions positions).filter fun p => ¬ r.price p.symbol ≤ 0

/-- The positions that the first loop retains: their price is missing. -/
def retained (positions : LedgerBook) (r : Rebalance) : LedgerBook :=
  positions.filter fun p => r.price p.symbol ≤ 0

/-- The second loop, from the positions that are in `next_positions` already; it returns the opened
positions and `next_positions`. -/
def openLoop (r : Rebalance) : LedgerBook → List (String × PyFloat) →
    List LedgerPosition × LedgerBook
  | next, [] => ([], next)
  | next, (symbol, weight) :: rest =>
    if weight = 0 ∨ r.price symbol ≤ 0 ∨ next.contains symbol = true then openLoop r next rest
    else
      let p := x.newPosition stableId r symbol weight
      let (opened, next) := openLoop r (next.insertOrIgnore p) rest
      (p :: opened, next)

/-- The positions that a rebalance opens, and `next_positions`. -/
def opening (positions : LedgerBook) (r : Rebalance) : List LedgerPosition × LedgerBook :=
  x.openLoop stableId r (retained positions r) (sortedWeights r)

/-- The events of `rebalance`. -/
def events (positions : LedgerBook) (r : Rebalance) : List Entries :=
  (closing positions r).map (x.closeEvent stableId r) ++
    (x.opening stableId positions r).1.map (x.openEvent stableId r)

/-- The positions after `rebalance`. -/
def rebalance (positions : LedgerBook) (r : Rebalance) : LedgerBook :=
  (x.opening stableId positions r).2

/-- The events of a run of rebalances. -/
def emitted : LedgerBook → List Rebalance → List Entries
  | _, [] => []
  | positions, r :: rs =>
    x.events stableId positions r ++ emitted (x.rebalance stableId positions r) rs

/-- The positions after a run of rebalances. -/
def positionsAfter (positions : LedgerBook) (rs : List Rebalance) : LedgerBook :=
  rs.foldl (x.rebalance stableId) positions

end VirtualTradeLedger

end PaperTrade.Runner
