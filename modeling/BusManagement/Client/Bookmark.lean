/-! How far the last search for a property by its position has come. A device cannot be asked for the
property at a position, so property ids are read one after the other; a search for the same or a
later position in the same object goes on where the last one stopped. -/

namespace BusManagement

inductive Bookmark where
  | start
  /-- In an object, the property at an index has a property id. -/
  | found (object index : UInt16) (pid : UInt8)
  deriving DecidableEq

namespace Bookmark

/-- Whether a query goes on from here: it asks by position, in the same object, and not for an earlier
property. -/
def continues (b : Bookmark) (object : UInt16) (pid : UInt8) (index : UInt16) : Bool :=
  match b with
  | start => false
  | found o i _ => pid = 0 ∧ o = object ∧ i ≤ index

/-- Where a query starts from: here if it goes on, else from the beginning. -/
def forQuery (b : Bookmark) (object : UInt16) (pid : UInt8) (index : UInt16) : Bookmark :=
  if b.continues object pid index then b else start

def index? : Bookmark → Option UInt16
  | start => none
  | found _ i _ => some i

/-- How many properties have been found up to here. -/
def count : Bookmark → Nat
  | start => 0
  | found _ i _ => i.toNat + 1

/-- The property id of the property found last; 0 before the first. -/
def pid : Bookmark → UInt8
  | start => 0
  | found _ _ p => p

end Bookmark

end BusManagement
