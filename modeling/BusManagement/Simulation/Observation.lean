import BusManagement.Object.Listing
import BusManagement.Phase

/-! What somebody learns who looks at a client or a device, also while a request is in flight. A client
can be looked at only after it has been opened. -/

namespace BusManagement.Simulation

inductive Inspection where
  | isOpen
  | sawReset
  | name
  | objectPairs
  | objectRecords
  | text
  deriving DecidableEq

/-- What is learned. All that ever changes about the answers of a client is its phase. -/
inductive Observation where
  | nothing
  | value (octets : Option Octets)
  | pids (pids : List UInt8)
  /-- The client was asked when it was in this phase. -/
  | client (question : Inspection) (phase : Phase)
  | notOpened
  deriving DecidableEq

end BusManagement.Simulation
