import BusManagement.Frame.Refusal
import BusManagement.Frame.Service

/-! Everything that can go wrong, by cause. A cause decides the kind of fault that callers branch on
and the wording of its message; both are fixed here and nowhere else. A link has faults of its own, for
which it names kind and wording itself. -/

namespace BusManagement

inductive Fault.Kind where
  | illegalState
  | invalidResponse
  | remote
  | connectionReset
  | cancelled
  | connection
  | invalidData
  deriving DecidableEq

inductive Fault where
  | closed (name : String)
  | confirmationExpected
  /-- An answer holds fewer octets than the object types asked for need. -/
  | objectListTooShort (expected length : Nat)
  | refused (code : UInt8)
  | objectNotListed (index : UInt16)
  /-- The object has too few properties for this position. -/
  | positionNotFound (object index : UInt16)
  | resetByServer
  | cancelled
  | instanceOutOfRange (instanceNumber : Nat)
  | tooManyElements (elements : UInt8)
  | startOutOfRange (start : UInt16)
  | emptyFrame
  | unsupportedService (code : UInt8)
  | frameTooShort (service : Service) (length : Nat)
  | descriptionTooShort (length : Nat)
  /-- A link failed in a way that it words itself. -/
  | ofLink (kind : Fault.Kind) (detail : String)
  deriving DecidableEq

namespace Fault

def kind : Fault → Kind
  | closed _ => .illegalState
  | confirmationExpected | objectListTooShort _ _ => .invalidResponse
  | refused _ | objectNotListed _ | positionNotFound _ _ => .remote
  | resetByServer => .connectionReset
  | cancelled => .cancelled
  | instanceOutOfRange _ | tooManyElements _ | startOutOfRange _ | emptyFrame | unsupportedService _
  | frameTooShort _ _ | descriptionTooShort _ => .invalidData
  | ofLink k _ => k

def detail : Fault → String
  | closed name => name ++ " closed"
  | confirmationExpected => "confirmation expected"
  | objectListTooShort expected length =>
    s!"object index list too short: expected {expected} object types, got {length} bytes"
  | refused code => Refusal.text code
  | objectNotListed index => s!"object not listed (index {index})"
  | positionNotFound object index =>
    s!"can't deduce property index in object (object {object}, property index {index})"
  | resetByServer => "reset by server"
  | cancelled => ""
  | instanceOutOfRange n => s!"object instance {n} out of range"
  | tooManyElements n => s!"Element count {n} exceeds maximum of 15"
  | startOutOfRange n => s!"Start index {n} exceeds maximum of 4095"
  | emptyFrame => "Empty cEMI frame"
  | unsupportedService code => "Unsupported device management message code 0x" ++ Octets.digits code
  | frameTooShort service length =>
    service.name ++ s!" frame too short: expected at least 7, got {length}"
  | descriptionTooShort length => s!"Property description too short: expected 7, got {length}"
  | ofLink _ detail => detail

/-- The whole message: the kind of the fault in words, then its cause. A wait that was given up has
no cause to tell. -/
def message (f : Fault) : String :=
  match f.kind with
  | .illegalState => "Illegal state: " ++ f.detail
  | .invalidResponse => "Invalid response: " ++ f.detail
  | .remote => "Remote error: " ++ f.detail
  | .connectionReset => "Connection reset: " ++ f.detail
  | .cancelled => "Cancelled"
  | .connection => "Connection error: " ++ f.detail
  | .invalidData => "Invalid data: " ++ f.detail

/-- Whether the remote partner is the cause: it refused, or it restarted. -/
def isRemote (f : Fault) : Bool := f.kind = .remote ∨ f.kind = .connectionReset

end Fault

end BusManagement
