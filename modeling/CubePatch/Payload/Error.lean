import CubePatch.Bootstrap.Token
import CubePatch.Image

/-!
# Failures of putting a payload together
-/
namespace CubePatch

/-- Which of the two addresses a user may give is meant. -/
inductive AddressRole where
  | init
  | hook
  deriving DecidableEq, Repr

def AddressRole.name : AddressRole → String
  | .init => "init"
  | .hook => "hook"

inductive PayloadError where
  | missingToken (token : Token)
  | handlerTooShort (length : Nat)
  | missingVariableSlot
  | unmovableHook (word : UInt32)
  | initAddressTaken (address : UInt32)
  | addressOutOfRange (role : AddressRole) (address : UInt32)
  | noFreeSections
  /-- There is no address behind the slot of the handler. -/
  | overflow (cause : Overflow)
  | image (fault : ImageError)
  deriving DecidableEq, Repr

def PayloadError.message : PayloadError → String
  | .missingToken token => "loader blob has no " ++ token.letters ++ " token"
  | .handlerTooShort length =>
    "code handler is " ++ hex length ++ " bytes, too short to hold its code list pointer"
  | .missingVariableSlot => "code handler has no 00DEDEDE variable slot"
  | .unmovableHook word =>
    "hook instruction " ++ hexWord word ++ " cannot be moved into the code handler"
  | .initAddressTaken address =>
    "init address " ++ hexWord address ++ " is already used by a section of the DOL"
  | .addressOutOfRange role address =>
    role.name ++ " address " ++ hexWord address ++ " is outside of 0x80000000..0x81800000"
  | .noFreeSections => "there are no unused text or data sections left"
  | .overflow cause => cause.message
  | .image fault => fault.message

end CubePatch
