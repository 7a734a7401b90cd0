import Mathlib.Data.List.Basic
import Mio.Library.Collect

/-!
# The turns that can be stopped

The registry of `apps/desktop/src-tauri/src/turn_cancellation.rs`. A turn is registered before its
provider is called and removed when its dispatch is over. A stop of a room sets the signal of the
turns that are registered for the room at that time.
-/

namespace Mio.Desktop.TurnCancellation

open Library Std

/-- A registered turn, and whether its signal is set. -/
structure ActiveTurn where
  roomId : String
  cancelled : Bool
  deriving DecidableEq

/-- The registered turns by the dispatch that they are of. -/
abbrev DesktopTurnCancellations := ExtTreeMap String ActiveTurn

/-- Registers the turn of a dispatch; one that is registered already is refused. -/
def register (roomId dispatchId : String) (active : DesktopTurnCancellations) :
    Option DesktopTurnCancellations :=
  if active.contains dispatchId then none
  else some (active.insert dispatchId { roomId, cancelled := false })

/-- The turn after a stop of the room. -/
def ActiveTurn.cancelFor (roomId : String) (turn : ActiveTurn) : ActiveTurn :=
  { turn with cancelled := turn.cancelled || turn.roomId == roomId }

/-- Set the signals of the room's turns. Returns how many were not set before. -/
def cancelRoom (roomId : String) (active : DesktopTurnCancellations) :
    ℕ × DesktopTurnCancellations :=
  (active.toList.countP fun (_, turn) => turn.roomId == roomId && !turn.cancelled,
    active.map fun _ turn => turn.cancelFor roomId)

/-- Removes the turn of a dispatch. -/
def remove (dispatchId : String) (active : DesktopTurnCancellations) : DesktopTurnCancellations :=
  active.erase dispatchId

end Mio.Desktop.TurnCancellation
