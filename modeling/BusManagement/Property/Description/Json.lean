import BusManagement.Property.Description.Basic
import BusManagement.Json.Record

/-! Property descriptions in JSON: a record whose eight fields all have to be there. -/

namespace BusManagement.Description

/-- The keys of a description, in the order in which an array lists its fields. -/
def keys : List String :=
  ["object_index", "pid", "property_index", "write_enabled", "pdt", "max_elements", "read_level",
    "write_level"]

def ofJson? (v : Json.Value) : Option Description :=
  match v.fields? keys with
  | some [some objectIndex, some pid, some propertyIndex, some writeEnabled, some dataType, some maxElements,
      some readLevel, some writeLevel] => do
    some ⟨← objectIndex.octet?, ← pid.octet?, ← propertyIndex.octet?, ← writeEnabled.bool?,
      ← dataType.octet?, ← maxElements.word?, ← readLevel.octet?, ← writeLevel.octet?⟩
  | _ => none

def ofJsonText? (text : String) : Option Description := (Json.Value.ofText? text).bind ofJson?

end BusManagement.Description
