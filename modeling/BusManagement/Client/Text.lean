import BusManagement.Client.Basic
import BusManagement.Text.Braced

/-! A client as it is shown to developers. -/

namespace BusManagement

open Text

def ObjectList.Entry.text (e : ObjectList.Entry) : String :=
  braced "InterfaceObject" [("index", toString e.index), ("object_type", toString e.objectType)]

def ObjectList.text (d : ObjectList) : String :=
  braced "Directory" [("objects", bracketed (d.entries.map Entry.text))]

/-- The client with its name, in which the characters beyond ASCII are escaped that are hidden. Unless somebody says
which these are, all of them show. -/
def Client.text (c : Connection σ) (k : Client σ) (hidden : Char → Bool := fun _ => false) : String :=
  braced "DeviceManagement" [("name", quoted hidden c.name), ("state", k.exchange.phase.text),
    ("directory", k.objects.text), ("query_write_enable", toString c.config.probesWriting)]

end BusManagement
