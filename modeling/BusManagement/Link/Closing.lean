/-! Notices about closed links: who closed it, and the reason given. -/

namespace BusManagement

inductive Initiator where
  | client
  | server
  /-- The transport gave up by itself. -/
  | internal
  deriving DecidableEq

def Initiator.text : Initiator → String
  | client => "client request"
  | server => "server request"
  | internal => "internal"

structure ClosingNotice where
  initiator : Initiator
  reason : String
  deriving DecidableEq

namespace ClosingNotice

def text (n : ClosingNotice) : String := "closed by " ++ n.initiator.text ++ ": " ++ n.reason

/-- The reason in every notice that follows a reset of the device. -/
def resetReason : String := "server reset"

/-- What every notice becomes once the device has reset itself. -/
def afterReset : ClosingNotice := ⟨.server, resetReason⟩

end ClosingNotice

end BusManagement
