import PaperTrade.Worker.Tables

/-!
# Metadata

The JSON that positions and trades carry. What is stored is always an object: a text that is not
one is dropped or kept as a raw string. `merge_position_runtime_metadata` is the one function here
that can raise, on a `strategy_runtime_version` that is no integer.
-/

namespace PaperTrade.Worker

open PaperTrade.Runtime

/-- `json.loads(raw or "{}")` as a `dict`, and `{}` for anything else. -/
def loadDict (raw : Text) : Entries :=
  match raw.loadsOrEmpty with
  | some (.obj d) => d
  | _ => []

/-- `Executor._merge_metadata`. -/
def mergeMetadata (raw : Text) (extra : Entries) : Text :=
  .json (.obj (Entries.update (loadDict raw) extra))

/-- `merge_trade_metadata`: the keys of the opening metadata at the top, those of the closing
metadata under `close`. -/
def mergeTradeMetadata (openMetadata closeMetadata : Text) : Text :=
  let opened : Entries :=
    if openMetadata.isEmpty then []
    else match openMetadata.loads with
      | some (.obj d) => d
      | _ => [("open_raw", .str openMetadata.spell)]
  let closed : Entries :=
    if closeMetadata.isEmpty then opened
    else match closeMetadata.loads with
      | some (.obj d) => Entries.set opened "close" (.obj d)
      | _ => Entries.set opened "close_raw" (.str closeMetadata.spell)
  .json (.obj closed)

/-- `merge_position_runtime_metadata`. -/
def mergePositionRuntimeMetadata (current update : Text) : Except PyError Text :=
  let base := loadDict current
  let incoming := loadDict update
  match incoming.get? "strategy_runtime" with
  | some (.obj runtime) =>
    let existing := match base.get? "strategy_runtime" with
      | some (.obj d) => d
      | _ => []
    let base := Entries.set base "strategy_runtime" (.obj (Entries.update existing runtime))
    let version := (incoming.get? "strategy_runtime_version").getD
      ((base.get? "strategy_runtime_version").getD (.int 1))
    match version.toInt with
    | .ok v => .ok (.json (.obj (Entries.set base "strategy_runtime_version" (.int v))))
    | .error e => .error (.intOf e)
  | _ => .ok (.json (.obj base))

/-- `bool(metadata.get(key))` where `metadata` is a `dict`, else `False`. -/
def metadataFlag (raw : Text) (key : String) : Bool :=
  match raw.loadsOrEmpty with
  | some (.obj d) => ((Entries.get? d key).map Json.truthy).getD false
  | _ => false

end PaperTrade.Worker
