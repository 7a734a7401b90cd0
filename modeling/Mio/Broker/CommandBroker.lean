import Mio.Library.Text

/-!
# The policy of workspace commands

The commands of `crates/moe-command-broker/src/lib.rs`, and what it says of each.
-/

namespace Mio.Broker

/-- The commands that the owner is asked about each time they are to run. -/
inductive ActionTimeCommand where
  | gitPush
  | packageInstall
  | cargoFetch
  | unregisteredTool
  | credentialUse
  | administratorOperation
  | destructiveOperation
  deriving DecidableEq

/-- Why the owner is asked. -/
inductive ConfirmationReason where
  | externalMutation
  | networkDownload
  | unregisteredTool
  | credentialUse
  | privilegeExpansion
  | destructiveChange
  deriving DecidableEq

namespace ActionTimeCommand

/-- The reason that goes with a command. -/
def reason : ActionTimeCommand → ConfirmationReason
  | gitPush => .externalMutation
  | packageInstall | cargoFetch => .networkDownload
  | unregisteredTool => .unregisteredTool
  | credentialUse => .credentialUse
  | administratorOperation => .privilegeExpansion
  | destructiveOperation => .destructiveChange

/-- Whether a command changes files of the workspace. -/
def writesWorkspace : ActionTimeCommand → Bool
  | gitPush | packageInstall | cargoFetch | destructiveOperation => true
  | _ => false

/-- Whether a confirmation of the command may be given for the rest of a room session. -/
def allowsRoomSession : ActionTimeCommand → Bool
  | gitPush | packageInstall | cargoFetch => true
  | _ => false

end ActionTimeCommand

end Mio.Broker
