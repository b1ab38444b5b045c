import BusManagement.Frame.Codec
import BusManagement.Object.Type
import BusManagement.Property.Id

/-! The properties of a simulated device, and its answers to requests. A property has one value, which
every read gets whatever range it asks for and every write replaces. The object list is kept apart from
the properties and answers for its range. -/

namespace BusManagement.Simulation

structure PropertyKey where
  objectType : UInt16
  objectInstance : UInt8
  pid : UInt8
  deriving DecidableEq

structure Property where
  value : Octets
  writable : Bool
  deriving DecidableEq

def keyOf (f : Frame) : PropertyKey := ⟨f.objectType, f.objectInstance, f.pid⟩

def objectListKey : PropertyKey := ⟨ObjectType.device, 1, PropertyId.objectList⟩

structure Store where
  /-- The types of its objects; none if the device has no object list to read. -/
  objectTypes : Option (List UInt16)
  /-- What the device gives as the number of its objects, if not their number. -/
  countAnswer : Option Octets
  /-- The properties, each key at most once. -/
  properties : List (PropertyKey × Property)

namespace Store

def get? (s : Store) (k : PropertyKey) : Option Property := s.properties.lookup k

def erase (s : Store) (k : PropertyKey) : Store :=
  { s with properties := s.properties.filter fun p => !decide (p.1 = k) }

def insert (s : Store) (k : PropertyKey) (p : Property) : Store :=
  { s with properties := (k, p) :: (s.erase k).properties }

def answerObjectList (s : Store) (request : Frame) : Frame :=
  match s.objectTypes with
  | none => request.refused Refusal.voidPoint
  | some types =>
    let start := request.start.toNat
    let elements := request.elements.toNat
    if start = 0 then
      request.answered .readConfirmation (s.countAnswer.getD (Octets.ofWord (UInt16.ofNat types.length)))
    else if types.length < start - 1 + elements then request.refused Refusal.indexRange
    else request.answered .readConfirmation (((types.drop (start - 1)).take elements).flatMap Octets.ofWord)

def answerRead (s : Store) (request : Frame) : Frame :=
  if keyOf request = objectListKey then s.answerObjectList request
  else match s.get? (keyOf request) with
    | some p => request.answered .readConfirmation p.value
    | none => request.refused Refusal.voidPoint

/-- The answer to a write, and what the device holds after it. -/
def answerWrite (s : Store) (request : Frame) : Frame × Store :=
  match s.get? (keyOf request) with
  | some p =>
    if p.writable then
      (request.answered .writeConfirmation [], s.insert (keyOf request) ⟨request.data, true⟩)
    else (request.refused Refusal.readOnly, s)
  | none => (request.refused Refusal.voidPoint, s)

def answer (s : Store) (request : Frame) : Option Frame × Store :=
  match request.service with
  | .readRequest => (some (s.answerRead request), s)
  | .writeRequest => let (f, s) := s.answerWrite request; (some f, s)
  | _ => (none, s)

/-- What a device delivers for the octets it received, and what it holds after them. -/
def respond (s : Store) (octets : Octets) : List Octets × Store :=
  match Frame.decode octets with
  | .error _ => ([], s)
  | .ok request =>
    let (f, s) := s.answer request
    ((f.bind fun f => f.encode.toOption).toList, s)

/-! The view of a store is `get?`. -/

theorem get?_erase (s : Store) (k l : PropertyKey) :
    (s.erase k).get? l = if l = k then none else s.get? l := by
  simp only [get?, erase]
  induction s.properties with
  | nil => simp
  | cons p rest ih =>
    obtain ⟨q, property⟩ := p
    by_cases hq : q = k
    · subst hq
      by_cases hl : l = q
      · simpa [hl] using ih
      · simpa [hl, List.lookup_cons, beq_false_of_ne hl] using ih
    · by_cases hl : l = q
      · subst hl
        simp [hq]
      · simp [hq, List.lookup_cons, beq_false_of_ne hl, ih]

theorem get?_insert (s : Store) (k l : PropertyKey) (p : Property) :
    (s.insert k p).get? l = if l = k then some p else s.get? l := by
  by_cases h : l = k
  · subst h
    simp [get?, insert]
  · have : (s.insert k p).get? l = (s.erase k).get? l := by
      simp [get?, insert, List.lookup_cons, beq_false_of_ne h]
    rw [this, get?_erase, if_neg h, if_neg h]

end Store

end BusManagement.Simulation
