import BusManagement.Fault

/-! Device management frames: a service, the property it is about, the range of elements it covers and
the data it carries. The reset services are about no property, so all their other fields are zero. A
confirmation of no elements is a refusal, whose data holds the code that tells why. -/

namespace BusManagement

/-- A device management frame. The fields may hold more than the format has room for; such a frame has
no octets. -/
structure Frame where
  service : Service
  objectType : UInt16
  objectInstance : UInt8
  pid : UInt8
  start : UInt16
  elements : UInt8
  data : Octets
  deriving DecidableEq

namespace Frame

def headerLength : Nat := 7

/-- The most elements that one frame covers: the count has four bits. -/
def maxElements : UInt8 := 15

/-- The last element that a frame can start at: the index has twelve bits. -/
def maxStart : UInt16 := 4095

def reading (objectType : UInt16) (objectInstance pid : UInt8) (start : UInt16) (elements : UInt8) : Frame :=
  ⟨.readRequest, objectType, objectInstance, pid, start, elements, []⟩

def writing (objectType : UInt16) (objectInstance pid : UInt8) (start : UInt16) (elements : UInt8)
    (data : Octets) : Frame :=
  ⟨.writeRequest, objectType, objectInstance, pid, start, elements, data⟩

def bare (service : Service) : Frame := ⟨service, 0, 0, 0, 0, 0, []⟩

/-- An answer to a request: it repeats everything but the service and the data. -/
def answered (request : Frame) (service : Service) (data : Octets) : Frame :=
  ⟨service, request.objectType, request.objectInstance, request.pid, request.start, request.elements, data⟩

/-- The refusal of a request. Whatever asks for something else than a write is refused as a read. -/
def refused (request : Frame) (code : UInt8) : Frame :=
  ⟨if request.service = .writeRequest then .writeConfirmation else .readConfirmation, request.objectType,
    request.objectInstance, request.pid, request.start, 0, [code]⟩

/-- A confirmation of no elements refuses its request. -/
def isRefusal (f : Frame) : Bool := f.service.isConfirmation && f.elements == 0

/-- Why a request was refused; a refusal without data gives no particular reason. -/
def refusalCode? (f : Frame) : Option UInt8 := if f.isRefusal then some (f.data.headD 0) else none

def refusalText? (f : Frame) : Option String := f.refusalCode?.map Refusal.text

@[simp] theorem isRefusal_refused (f : Frame) (code : UInt8) : (f.refused code).isRefusal = true := by
  by_cases h : f.service = .writeRequest <;> simp [refused, isRefusal, h, Service.isConfirmation]

@[simp] theorem refusalCode?_refused (f : Frame) (code : UInt8) :
    (f.refused code).refusalCode? = some code := by
  rw [refusalCode?, isRefusal_refused]
  rfl

/-- The frame as log lines show it: its data stay out, but the reason of a refusal is told. -/
def text (f : Frame) : String :=
  if f.service.hasHeader then
    f.service.name
      ++ s!" OT {f.objectType} OI {f.objectInstance} PID {f.pid} start {f.start} elements {f.elements}"
      ++ (match f.refusalText? with
        | some reason => s!" ({reason})"
        | none => "")
  else f.service.name

end Frame

end BusManagement
