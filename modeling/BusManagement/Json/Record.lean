import BusManagement.Json.Value

/-! Records in JSON. A record is an object with known keys, in any order and beside unknown ones, or an
array that lists its fields from the first on. A known key may stand only once; unknown keys may
repeat, but every key of the object has to be a text. -/

namespace BusManagement.Json.Value

/-- The value of a key that stands at most once; nothing at all if it is repeated. -/
def member? (members : List (Option String × Value)) (key : String) : Option (Option Value) :=
  match members.filter fun m => m.1 = some key with
  | [] => some none
  | [m] => some (some m.2)
  | _ => none

/-- The fields of a record in the order of their keys, each one there or not. -/
def fields? (keys : List String) : Value → Option (List (Option Value))
  | .array items =>
    if items.length ≤ keys.length then some ((List.range keys.length).map fun i => items[i]?) else none
  | .object members =>
    if members.all fun m => m.1.isSome then keys.mapM (member? members) else none
  | _ => none

def below? (bound : Nat) : Value → Option Nat
  | .number (some n) => if n < bound then some n else none
  | _ => none

def octet? (v : Value) : Option UInt8 := (v.below? 256).map UInt8.ofNat

def word? (v : Value) : Option UInt16 := (v.below? 65536).map UInt16.ofNat

def bool? : Value → Option Bool
  | .bool b => some b
  | _ => none

end BusManagement.Json.Value
