import BusManagement.Link.Activity
import BusManagement.Simulation.Observation
import BusManagement.Simulation.Store

/-! A simulated device that follows a script. Each transmission uses up one action of the script, which
says what is delivered, what else happens while the transmission is in flight, and how it ends. Without
a script the device answers every request. -/

namespace BusManagement.Simulation

/-- What a device does about one transmission; `ι` is what may happen while it is in flight. -/
structure Action (ι : Type) where
  answers : Bool
  /-- Delivered in front of the answer. -/
  before : List Octets
  /-- Delivered behind the answer. -/
  after : List Octets
  notice : Option ClosingNotice
  during : List ι
  result : Except Fault Unit

inductive DeviceStep (ι : Type) where
  /-- More actions at the end of the script. -/
  | script (actions : List (Action ι))
  | silence (silent : Bool)
  | put (key : PropertyKey) (property : Property)
  | remove (key : PropertyKey)
  | peek (key : PropertyKey)

inductive Interlude where
  | receive (octets : Octets)
  | linkClosed (notice : ClosingNotice)
  | close
  | inspect (question : Inspection)
  | device (step : DeviceStep Interlude)

structure Scripted where
  store : Store
  /-- Without a script, such a device does not answer. -/
  silent : Bool
  script : List (Action Interlude)
  closingFault : Option Fault
  closingNotice : Option ClosingNotice
  closes : Nat
  /-- There is an opened client. -/
  attended : Bool
  /-- What was learned while transmissions were in flight. -/
  observations : List Observation

namespace Scripted

def observe (d : Scripted) (o : Observation) : Scripted := { d with observations := d.observations ++ [o] }

def apply (d : Scripted) : DeviceStep Interlude → Observation × Scripted
  | .script actions => (.nothing, { d with script := d.script ++ actions })
  | .silence silent => (.nothing, { d with silent := silent })
  | .put k p => (.nothing, { d with store := d.store.insert k p })
  | .remove k => (.nothing, { d with store := d.store.erase k })
  | .peek k => (.value ((d.store.get? k).map Property.value), d)

def attend (d : Scripted) : Scripted := { d with attended := true, observations := [] }

/-- What happens while a transmission is in flight, up to its end. A transmission in the middle of which
the link was closed is cancelled. -/
def interludes (closesBefore : Nat) (result : Except Fault Unit) :
    List Interlude → Scripted → Activity Scripted
  | [], d => .finish d (if d.closes = closesBefore then result else .error .cancelled)
  | .receive octets :: rest, d => .deliver octets (interludes closesBefore result rest (d.observe .nothing))
  | .linkClosed n :: rest, d => .tellClosed n (interludes closesBefore result rest (d.observe .nothing))
  | .close :: rest, d =>
    if d.attended then .closeClient d fun d => interludes closesBefore result rest (d.observe .nothing)
    else interludes closesBefore result rest (d.observe .notOpened)
  | .inspect question :: rest, d =>
    if d.attended then .observe fun p => interludes closesBefore result rest (d.observe (.client question p))
    else interludes closesBefore result rest (d.observe .notOpened)
  | .device step :: rest, d =>
    let (o, d) := d.apply step
    interludes closesBefore result rest (d.observe o)

def act (d : Scripted) (octets : Octets) (a : Action Interlude) : Activity Scripted :=
  let (answer, store) := if a.answers then d.store.respond octets else ([], d.store)
  let d := { d with store := store }
  .deliverAll (a.before ++ answer ++ a.after) (.tellAny a.notice (interludes d.closes a.result a.during d))

def unscripted (d : Scripted) : Action Interlude := ⟨!d.silent, [], [], none, [], .ok ()⟩

def send (d : Scripted) (octets : Octets) : Activity Scripted :=
  match d.script with
  | [] => d.act octets d.unscripted
  | a :: rest => { d with script := rest }.act octets a

def close (d : Scripted) : Activity Scripted :=
  .tellAny d.closingNotice (.finish { d with closes := d.closes + 1 }
    (match d.closingFault with
      | some e => .error e
      | none => .ok ()))

def link (name : String) : Link Scripted := ⟨name, fun d octets _ => d.send octets, close⟩

end Scripted

end BusManagement.Simulation
