import BusManagement.Octets

/-! The services of local device management. Seven message codes are supported; they lie in a family
of thirteen, whose other members belong to device management too but are not handled. The reset
services consist of their code alone, all others carry a property header behind it. -/

namespace BusManagement

inductive Service where
  | readRequest
  | readConfirmation
  | writeRequest
  | writeConfirmation
  | infoIndication
  | resetRequest
  | resetIndication
  deriving DecidableEq

namespace Service

def all : List Service :=
  [readRequest, readConfirmation, writeRequest, writeConfirmation, infoIndication, resetRequest,
    resetIndication]

/-- The message code of a service, the first octet of its frames. -/
def code : Service → UInt8
  | readRequest => 0xfc
  | readConfirmation => 0xfb
  | writeRequest => 0xf6
  | writeConfirmation => 0xf5
  | infoIndication => 0xf7
  | resetRequest => 0xf1
  | resetIndication => 0xf0

def ofCode? (c : UInt8) : Option Service := all.find? fun s => s.code = c

@[simp] theorem ofCode?_code (s : Service) : ofCode? s.code = some s := by
  cases s <;> rfl

theorem code_of_ofCode? {c : UInt8} {s : Service} (h : ofCode? c = some s) : s.code = c := by
  simpa using List.find?_some h

theorem code_injective {s t : Service} (h : s.code = t.code) : s = t := by
  simpa using congrArg ofCode? h

/-- Whether a message code belongs to device management at all. -/
def inFamily (c : UInt8) : Bool := 0xf0 ≤ c && c ≤ 0xfc

/-- The family check never turns a supported service away. -/
theorem inFamily_code (s : Service) : inFamily s.code = true := by
  cases s <;> rfl

def isConfirmation : Service → Bool
  | readConfirmation | writeConfirmation => true
  | _ => false

def hasHeader : Service → Bool
  | resetRequest | resetIndication => false
  | _ => true

/-- The name under which the service is specified. -/
def name : Service → String
  | readRequest => "M_PropRead.req"
  | readConfirmation => "M_PropRead.con"
  | writeRequest => "M_PropWrite.req"
  | writeConfirmation => "M_PropWrite.con"
  | infoIndication => "M_PropInfo.ind"
  | resetRequest => "M_Reset.req"
  | resetIndication => "M_Reset.ind"

end Service

end BusManagement
