import BusManagement.Exchange.Request
import BusManagement.Object.Listing
import BusManagement.Property.Id

/-! Finding out which interface objects a device has. The object list is a property of the device
object. Its element 0 is the number of objects, and the list itself is read in pieces of at most
fifteen elements, as many as fit into a frame. A device that refuses to tell the number, or that
resets itself meanwhile, is taken to have the objects that every device has. -/

namespace BusManagement.Discovery

open Exchange (Outcome)

structure Piece where
  start : UInt16
  elements : UInt8
  deriving DecidableEq

/-- The pieces of a list of a length: they start at elements 1, 16, 31 and so on, and all but the last
are as large as a frame allows. -/
def pieces (length : Nat) : List Piece :=
  (List.range ((length + 14) / 15)).map fun i =>
    ⟨UInt16.ofNat (15 * i + 1), UInt8.ofNat (min 15 (length - 15 * i))⟩

def countIn (answer : Octets) : Except Fault Nat :=
  match answer with
  | h :: l :: _ => .ok (Octets.word h l).toNat
  | _ => .error (.objectListTooShort 1 answer.length)

/-- The first object types in an answer. Octets behind them are not looked at. -/
def typesIn (answer : Octets) (elements : Nat) : Except Fault (List UInt16) :=
  if answer.length < elements * 2 then .error (.objectListTooShort elements answer.length)
  else .ok (answer.words.take elements)

def readPiece (c : Connection σ) (x : Exchange σ) (p : Piece) : Outcome Octets σ :=
  x.request c (.reading ObjectType.device 1 PropertyId.objectList p.start p.elements) .readConfirmation

/-- Reads pieces of the object list one after the other, and gives up with the first one that fails. -/
def readPieces (c : Connection σ) : List Piece → Exchange σ → Outcome (List UInt16) σ
  | [], x => (.ok [], x)
  | p :: rest, x =>
    match readPiece c x p with
    | (.error e, x) => (.error e, x)
    | (.ok answer, x) =>
      match typesIn answer p.elements.toNat with
      | .error e => (.error e, x)
      | .ok types =>
        match readPieces c rest x with
        | (.ok others, x) => (.ok (types ++ others), x)
        | (.error e, x) => (.error e, x)

def objects (c : Connection σ) (x : Exchange σ) : Outcome ObjectList σ :=
  match readPiece c x ⟨0, 1⟩ with
  | (.error e, x) => if e.isRemote then (.ok .assumed, x.note (.listUnavailable e)) else (.error e, x)
  | (.ok answer, x) =>
    match countIn answer with
    | .error e => (.error e, x)
    | .ok count =>
      match readPieces c (pieces count) x with
      | (.error e, x) => (.error e, x)
      | (.ok types, x) => (.ok ⟨types⟩, x.note (.discovered types.length))

end BusManagement.Discovery
