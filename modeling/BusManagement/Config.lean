import BusManagement.Json.Record
import BusManagement.Text.Braced

/-! What a caller wants of a client. -/

namespace BusManagement

structure Config where
  /-- Find out whether a property may be written by writing its own value back. -/
  probesWriting : Bool
  /-- Somebody wants to hear of the closing of the link. -/
  hearsClosing : Bool
  deriving DecidableEq

namespace Config

def plain : Config := ⟨false, false⟩

/-- The configuration that a JSON value holds: a record of one field that may be missing. A listener is
no field of it. -/
def ofJson? (v : Json.Value) : Option Config :=
  match v.fields? ["query_write_enable"] with
  | some [none] => some plain
  | some [some flag] => flag.bool?.map fun b => ⟨b, false⟩
  | _ => none

def ofJsonText? (text : String) : Option Config := (Json.Value.ofText? text).bind ofJson?

def text (c : Config) : String :=
  Text.braced "DeviceMgmtConfig" [("query_write_enable", toString c.probesWriting),
    ("close_listener", toString c.hearsClosing)]

end Config

end BusManagement
