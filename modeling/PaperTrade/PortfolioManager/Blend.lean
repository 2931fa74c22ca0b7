import PaperTrade.PortfolioManager.Overlays
import PaperTrade.Runtime.DateTime

/-!
# `blend_books` and `build_blend_outputs`

The books of the sleeves that are not stale are added up by their allocations; the sum is capped coin
by coin, scaled to the gross target, and smoothed with the previous baseline when no sleeve is stale.
-/

namespace PaperTrade.PortfolioManager

open PaperTrade.Runtime

/-! ## Target books -/

/-- `TargetBook`, of which a blend reads the time it was made and the weights. The constructor
refuses a weight that is not finite. -/
structure TargetBook where
  generatedAt : String
  weights : Dict String ℚ

/-- When a cycle looks at a book: `time.time()` (or the `now` of the caller) at each look, and the
offset of the local zone, which a time without an offset is in. -/
structure Clock where
  now : String → PyFloat
  zone : ℤ → ℤ

/-- `datetime(1970, 1, 1)` in microseconds since 0001-01-01. -/
def epoch : ℤ := 719162 * DateTime.day

/-- `d.timestamp()`. -/
def Clock.timestamp (clock : Clock) (d : DateTime) : ℚ :=
  (d.wall - d.offset.getD (clock.zone d.wall) - epoch) / 1000000

/-- `age_seconds`. -/
def TargetBook.ageSeconds (book : TargetBook) (clock : Clock) (sleeveId : String) :
    Except ManagerError PyFloat :=
  match DateTime.parse book.generatedAt with
  | some d => .ok (PyFloat.max 0 (clock.now sleeveId - .fin (clock.timestamp d)))
  | none => .error .generatedAt

/-- `is_stale`. -/
def TargetBook.isStale (book : TargetBook) (maxStalenessSec : PyFloat) (clock : Clock)
    (sleeveId : String) : Except ManagerError Bool := do
  return decide (maxStalenessSec < (← book.ageSeconds clock sleeveId))

/-! ## `blend_books` -/

/-- `output`, `active` and `stale` of the loop over the sleeves. -/
structure Blend where
  output : Dict String ℚ
  active : List String
  stale : List String

/-- `book is None or book.is_stale(max_staleness_sec[sleeve_id], now)`: the book of the sleeve, unless
it is to be dropped. -/
def currentBook (books : Dict String (Option TargetBook)) (maxStalenessSec : Dict String PyFloat)
    (clock : Clock) (sleeveId : String) : Except ManagerError (Option TargetBook) :=
  match (books.get? sleeveId).join with
  | none => .ok none
  | some book =>
    match maxStalenessSec.get? sleeveId with
    | none => .error (.key sleeveId)
    | some limit => do return if ← book.isStale limit clock sleeveId then none else some book

/-- `output[symbol] = output.get(symbol, 0.0) + allocation * float(weight)` for every weight. -/
def addWeights (allocation : ℚ) (output weights : Dict String ℚ) : Dict String ℚ :=
  weights.rows.foldl (fun output e => output.set e.1 ((output.get? e.1).getD 0 + allocation * e.2)) output

/-- The book of a sleeve, taken in or dropped. -/
def Blend.add (blend : Blend) (sleeveId : String) (allocation : ℚ) : Option TargetBook → Blend
  | none => { blend with stale := blend.stale ++ [sleeveId] }
  | some book =>
    { blend with
      output := addWeights allocation blend.output book.weights
      active := blend.active ++ [sleeveId] }

/-- One sleeve of the loop. -/
def blendSleeve (books : Dict String (Option TargetBook)) (maxStalenessSec : Dict String PyFloat)
    (clock : Clock) (blend : Blend) (row : String × ℚ) : Except ManagerError Blend := do
  return blend.add row.1 row.2 (← currentBook books maxStalenessSec clock row.1)

/-- `blend_books`. -/
def blendBooks (books : Dict String (Option TargetBook)) (allocations maxStalenessSec : Dict String PyFloat)
    (clock : Clock) : Except ManagerError Blend := do
  let fixed ← fixedAllocator allocations.keys allocations
  fixed.rows.foldlM (blendSleeve books maxStalenessSec clock) ⟨.empty, [], []⟩

/-! ## `build_blend_outputs` -/

/-- `BlendResult`. -/
structure BlendResult where
  baseline : Dict String ℚ
  candidate : Dict String ℚ
  activeSleeves : List String
  staleSleeves : List String

/-- The keyword arguments that come from the configuration. -/
structure OverlayArgs where
  cap : PyFloat
  gross : PyFloat
  downtrendMultiplier : PyFloat
  emaSpan : Option ℤ

/-- `if ema_span is not None and baseline and not stale: …` -/
def smoothed (args : OverlayArgs) (previous : Option (Dict String ℚ)) (stale : List String)
    (baseline : Dict String ℚ) : Except ManagerError (Dict String ℚ) :=
  match args.emaSpan with
  | some span =>
    if baseline.rows ≠ [] ∧ stale = [] then emaSmooth baseline previous span else .ok baseline
  | none => .ok baseline

/-- `if regime_state is not None: …` -/
def throttled (args : OverlayArgs) (regimeState : Option (Dict String StateValue))
    (candidate : Dict String ℚ) : Except ManagerError (Dict String ℚ) :=
  match regimeState with
  | some state => regimeThrottle candidate state args.downtrendMultiplier
  | none => .ok candidate

/-- `build_blend_outputs`. -/
def buildBlendOutputs (books : Dict String (Option TargetBook))
    (allocations maxStalenessSec : Dict String PyFloat) (args : OverlayArgs)
    (regimeState : Option (Dict String StateValue)) (previous : Option (Dict String ℚ))
    (clock : Clock) : Except ManagerError BlendResult := do
  let blend ← blendBooks books allocations maxStalenessSec clock
  let capped ← perCoinCap blend.output args.cap
  let scaled ← grossTarget capped args.gross
  let baseline ← smoothed args previous blend.stale scaled
  let candidate ← throttled args regimeState baseline
  return ⟨baseline, candidate, blend.active, blend.stale⟩

end PaperTrade.PortfolioManager
