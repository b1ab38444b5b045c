import BusManagement.Json.Token

/-! JSON values, put together from tokens by a machine that keeps the containers which are still open.
It takes exactly one value, with every comma and colon in its place. -/

namespace BusManagement.Json

/-- A JSON value. The members of an object keep their order and may repeat a key. -/
inductive Value where
  | null
  | bool (value : Bool)
  | number (value : Option Nat)
  | string (text : Option String)
  | array (items : List Value)
  | object (members : List (Option String × Value))

namespace Value

/-- A container whose end has not come yet; its content is kept newest first. -/
inductive Container where
  | array (items : List Value)
  /-- An object whose last member is complete. -/
  | object (members : List (Option String × Value))
  /-- An object that waits for the value of a key. -/
  | member (key : Option String) (members : List (Option String × Value))

inductive Expected where
  | value
  /-- A value, or the end of the array that has just begun. -/
  | valueOrEnd
  | key
  | keyOrEnd
  | colon
  | delimiter
  | nothing (result : Value)

structure Builder where
  /-- The open containers, innermost first. -/
  containers : List Container
  expected : Expected

namespace Builder

def place (v : Value) : List Container → Option Builder
  | [] => some ⟨[], .nothing v⟩
  | .array items :: outer => some ⟨.array (v :: items) :: outer, .delimiter⟩
  | .member key members :: outer => some ⟨.object ((key, v) :: members) :: outer, .delimiter⟩
  | .object _ :: _ => none

def stepValue (containers : List Container) : Token → Option Builder
  | .null => place .null containers
  | .bool b => place (.bool b) containers
  | .number n => place (.number n) containers
  | .string s => place (.string s) containers
  | .openArray => some ⟨.array [] :: containers, .valueOrEnd⟩
  | .openObject => some ⟨.object [] :: containers, .keyOrEnd⟩
  | _ => none

def stepContainer : List Container → Token → Option Builder
  | .array items :: outer, .closeArray => place (.array items.reverse) outer
  | .array items :: outer, .comma => some ⟨.array items :: outer, .value⟩
  | .object members :: outer, .closeObject => place (.object members.reverse) outer
  | .object members :: outer, .comma => some ⟨.object members :: outer, .key⟩
  | _, _ => none

def stepKey : List Container → Token → Option Builder
  | .object members :: outer, .string key => some ⟨.member key members :: outer, .colon⟩
  | _, _ => none

def step (b : Builder) (t : Token) : Option Builder :=
  match b.expected with
  | .value => stepValue b.containers t
  | .valueOrEnd => if t = .closeArray then stepContainer b.containers t else stepValue b.containers t
  | .key => stepKey b.containers t
  | .keyOrEnd => if t = .closeObject then stepContainer b.containers t else stepKey b.containers t
  | .colon => if t = .colon then some ⟨b.containers, .value⟩ else none
  | .delimiter => stepContainer b.containers t
  | .nothing _ => none

def finish (b : Builder) : Option Value :=
  match b.expected with
  | .nothing result => some result
  | _ => none

end Builder

def ofTokens? (ts : List Token) : Option Value :=
  (ts.foldlM Builder.step ⟨[], .value⟩).bind Builder.finish

def ofText? (text : String) : Option Value := (tokens? text).bind ofTokens?

end Value

end BusManagement.Json
