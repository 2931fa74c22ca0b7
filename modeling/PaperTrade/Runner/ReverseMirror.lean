import PaperTrade.Runner.Dedup
import PaperTrade.Runner.FlipTrades
import PaperTrade.Runner.Twins
import PaperTrade.Runner.Vn30Tcbs

/-!
# The reverse mode is a mirror

Beside each run of a strategy the same run of its reverse is in a state with the same candles seen and
awaited and with the same position on the other side (`OneByOne`). The decisions of both strategies are
made on the side of the alpha, which is the same in the two runs, so the signals are the same but for the
sides and the names of the positions.
-/

namespace PaperTrade.Runner

open PaperTrade.Runtime Dispatcher

/-! ## Tables of one position -/

section Tables

variable {ρ κ : Type} {key : ρ → κ} {P : ρ → ρ → Prop} {t t' : Table key}

variable [DecidableEq κ]

end Tables

/-! ## `BollingerMeanRevLsRunnerStrategy` -/

namespace BollingerLs

variable (x : BollingerLs) (uuid5 : String → String)

/-- The signal of the reverse: the other side, and the rest as it is, but for the name of the position. -/
inductive MirrorCall : Call → Call → Prop
  | opened (side : Side) (entry qty : PyFloat) (t : ℤ) :
      MirrorCall (x.openCall (x.newPosition uuid5 side entry qty t))
        (x.openCall (x.newPosition uuid5 side.swap entry qty t))
  | closed (id id' reason : String) (price : PyFloat) (t : ℤ) :
      MirrorCall (x.closeCall id reason price t) (x.closeCall id' reason price t)

/-- The same instance with `reverse = false`, and with `reverse = true`. -/
def plain : BollingerLs := { x with reverse := false }

def reversed : BollingerLs := { x with reverse := true }

variable {x uuid5} {digest : Logical → String} {sqrt : PyFloat → PyFloat} {env : ℕ → DispatchEnv}
  {s s' : LsState}

end BollingerLs

/-! ## `Vn30TcbsRunnerStrategy` -/

namespace Vn30Tcbs

variable (x : Vn30Tcbs) (uuid5 : String → String)

/-- The signal of the reverse: the other side, and the rest as it is, but for the name of the position. -/
inductive MirrorCall : Call → Call → Prop
  | opened (side : Side) (price : PyFloat) (t : ℤ) (cutLoss : Option PyFloat) :
      MirrorCall (x.openCall (x.newPosition uuid5 side price t cutLoss) t)
        (x.openCall (x.newPosition uuid5 side.swap price t cutLoss) t)
  | closed (id id' reason : String) (price : PyFloat) :
      MirrorCall (x.closeCall id reason price) (x.closeCall id' reason price)

/-- The same instance with `reverse = false`, and with `reverse = true`. -/
def plain : Vn30Tcbs := { x with reverse := false }

def reversed : Vn30Tcbs := { x with reverse := true }

variable {x uuid5} {digest : Logical → String} {lib : Vn30Library} {env : ℕ → DispatchEnv}
  {s s' : Vn30State}

end Vn30Tcbs

/-! ## Both strategies -/

/-- Three candles for the bands. -/
def threeDays : BollingerLs where
  alphaId := "boll"
  version := "1"
  bbPeriod := 3
  minTfBars := 3

/-- A square root, exact for squares. -/
def exactSqrt : PyFloat → PyFloat
  | .fin q => .fin q.sqrt
  | v => v

/-- Short windows for alpha 19. -/
def shortWindows : Vn30Tcbs where
  alphaId := "vn30"
  version := "1"
  preset := .alpha19 { window := 2, window1 := 1, window2 := 1 }

end PaperTrade.Runner
