import BusManagement.Client.Basic
import BusManagement.Property.Description.Basic

/-! Property descriptions without a service for them. The property at a position is found by reading
property ids in increasing order and counting those that are there, from the bookmark on. Of a property
found, only its place is known, and, if the caller wants that, whether it may be written: its own value
is written back to see whether the device takes it. -/

namespace BusManagement.Client

/-- The property ids behind one, in increasing order. -/
def pidsAfter (pid : UInt8) : List UInt8 := (List.range' (pid.toNat + 1) (255 - pid.toNat)).map UInt8.ofNat

inductive Search where
  /-- At the property, which was read to find it unless the search began there. -/
  | found (pid : UInt8) (value : Option Octets)
  | exhausted
  /-- At a read that failed for another reason than that there is no such property. -/
  | failed (fault : Fault)

def getFirst (c : Connection σ) (k : Client σ) (object : UInt16) (pid : UInt8) : Outcome Octets σ :=
  k.get c object pid 1 1

/-- Reads property ids until so many more properties have been found. The property found last is carried
along; it is the one looked for as soon as none is missing. -/
def search (c : Connection σ) (object : UInt16) (last : UInt8) (value : Option Octets) :
    (missing : Nat) → List UInt8 → Client σ → Search × Client σ
  | 0, _, k => (.found last value, k)
  | _ + 1, [], k => (.exhausted, k)
  | missing + 1, pid :: rest, k =>
    match k.getFirst c object pid with
    | (.ok data, k) => search c object pid (some data) missing rest k
    | (.error e, k) =>
      if e.kind = .remote then search c object last value (missing + 1) rest k else (.failed e, k)

/-- Finds the property at a position, going on from the bookmark. A read that fails leaves the bookmark
where it is, so that the search can be taken up again. -/
def locate (c : Connection σ) (k : Client σ) (object index : UInt16) :
    Outcome (UInt8 × Option Octets) σ :=
  let missing := index.toNat + 1 - k.bookmark.count
  match search c object k.bookmark.pid none missing (pidsAfter k.bookmark.pid) k with
  | (.found pid value, k) => (.ok (pid, value), { k with bookmark := .found object index pid })
  | (.exhausted, k) => (.error (.positionNotFound object index), { k with bookmark := .start })
  | (.failed e, k) => (.error e, k)

def select (c : Connection σ) (k : Client σ) (object : UInt16) (pid : UInt8) (index : UInt16) :
    Outcome (UInt8 × Option Octets) σ :=
  if pid = 0 then k.locate c object index
  else match k.getFirst c object pid with
    | (.ok data, k) => (.ok (pid, some data), k)
    | (.error e, k) => (.error e, k)

/-- Writes a value back to its property, and tells whether the device took it. -/
def writeBack (c : Connection σ) (k : Client σ) (object : UInt16) (pid : UInt8) (value : Octets) :
    Outcome Bool σ :=
  match k.set c object pid 1 1 value with
  | (.ok _, k) => (.ok true, k)
  | (.error e, k) =>
    if e.kind = .remote then
      (.ok false, { k with exchange := k.exchange.note (.notWritable object pid e.detail) })
    else (.error e, k)

/-- Tells whether a property may be written. Its value is read first if it is not known. -/
def writable (c : Connection σ) (k : Client σ) (object : UInt16) (pid : UInt8) :
    Option Octets → Outcome Bool σ
  | some value => k.writeBack c object pid value
  | none =>
    match k.getFirst c object pid with
    | (.ok value, k) => k.writeBack c object pid value
    | (.error e, k) => (.error e, k)

/-- The description of a property of which nothing but its place is known. Its fields are octets, so an
index beyond 255 is cut. -/
def placeOf (object : UInt16) (pid : UInt8) (index : UInt16) (writeEnabled : Bool) : Description :=
  ⟨object.toUInt8, pid, index.toUInt8, writeEnabled, 0, 0, 0, 0⟩

/-- Describes a property, which is named by its id or, if that is 0, by its position in the object. -/
def describe (c : Connection σ) (k : Client σ) (object : UInt16) (pid : UInt8) (index : UInt16) :
    Outcome Octets σ :=
  if k.isOpen then
    match select c { k with bookmark := k.bookmark.forQuery object pid index } object pid index with
    | (.error e, k) => (.error e, k)
    | (.ok (pid, value), k) =>
      if c.config.probesWriting then
        match k.writable c object pid value with
        | (.ok enabled, k) => (.ok (placeOf object pid index enabled).octets, k)
        | (.error e, k) => (.error e, k)
      else (.ok (placeOf object pid index false).octets, k)
  else (.error (Exchange.closedFault c), k)

end BusManagement.Client
