import BusManagement.Link.Activity
import BusManagement.Simulation.Observation
import BusManagement.Simulation.Store

/-! A simulated device on a bench: it answers every request from its properties and remembers all
requests, and from outside frames can be put in front of its next answer, the answer can be held back or
turned into a reset indication, and requests can be left hanging until the link is closed. -/

namespace BusManagement.Simulation

inductive BenchStep where
  | put (key : PropertyKey) (property : Property)
  | peek (key : PropertyKey)
  /-- Delivers octets in front of the next answer. -/
  | inject (octets : Octets)
  /-- Resets the device at the next request. -/
  | resetOnNext
  | silence (silent : Bool)
  | hang (hanging : Bool)
  | failClose (fails : Bool)
  | readPids (objectType : UInt16) (objectInstance : UInt8)
  | clearRequests
  deriving DecidableEq

inductive BenchInterlude where
  | device (step : BenchStep)
  | linkClosed (notice : ClosingNotice)
  | close
  | inspect (question : Inspection)
  deriving DecidableEq

structure Requested where
  frame : Frame
  waiting : Waiting
  deriving DecidableEq

structure Bench where
  store : Store
  requests : List Requested
  /-- How many of them have been looked at. -/
  reviewed : Nat
  injected : List Octets
  resetOnNext : Bool
  silent : Bool
  hanging : Bool
  failsToClose : Bool
  closes : Nat
  /-- What happens while a request hangs. -/
  during : List BenchInterlude
  observations : List Observation

namespace Bench

def start (objectTypes : Option (List UInt16)) : Bench :=
  ⟨⟨objectTypes, none, []⟩, [], 0, [], false, false, false, false, 0, [], []⟩

def readPids (d : Bench) (objectType : UInt16) (objectInstance : UInt8) : List UInt8 :=
  (d.requests.filter fun r => r.frame.service = .readRequest ∧ r.frame.objectType = objectType
    ∧ r.frame.objectInstance = objectInstance).map fun r => r.frame.pid

def apply (d : Bench) : BenchStep → Observation × Bench
  | .put k p => (.nothing, { d with store := d.store.insert k p })
  | .peek k => (.value ((d.store.get? k).map Property.value), d)
  | .inject octets => (.nothing, { d with injected := d.injected ++ [octets] })
  | .resetOnNext => (.nothing, { d with resetOnNext := true })
  | .silence silent => (.nothing, { d with silent := silent })
  | .hang hanging => (.nothing, { d with hanging := hanging })
  | .failClose fails => (.nothing, { d with failsToClose := fails })
  | .readPids t i => (.pids (d.readPids t i), d)
  | .clearRequests => (.nothing, { d with requests := [], reviewed := 0 })

def unreviewed (d : Bench) : List Requested := d.requests.drop d.reviewed

/-- Looks at all requests, and forgets what was learned. What happens during the next hanging request is
given anew. -/
def review (d : Bench) (during : List BenchInterlude) : Bench :=
  { d with reviewed := d.requests.length, observations := [], during := during }

def observe (d : Bench) (o : Observation) : Bench := { d with observations := d.observations ++ [o] }

/-- What happens while a request hangs; in the end it is cancelled. -/
def interludes : List BenchInterlude → Bench → Activity Bench
  | [], d => .finish d (.error .cancelled)
  | .device step :: rest, d =>
    let (o, d) := d.apply step
    interludes rest (d.observe o)
  | .linkClosed n :: rest, d => .tellClosed n (interludes rest (d.observe .nothing))
  | .close :: rest, d => .closeClient d fun d => interludes rest (d.observe .nothing)
  | .inspect question :: rest, d => .observe fun p => interludes rest (d.observe (.client question p))

/-- What is delivered for a request behind the injected frames. -/
def react (d : Bench) (octets : Octets) : List Octets × Bench :=
  if d.resetOnNext then ([[Service.resetIndication.code]], { d with resetOnNext := false })
  else if d.silent || d.hanging then ([], d)
  else
    let (answer, store) := d.store.respond octets
    (answer, { d with store := store })

def send (d : Bench) (octets : Octets) (waiting : Waiting) : Activity Bench :=
  match Frame.decode octets with
  | .error e => .finish d (.error e)
  | .ok request =>
    let taken : Bench := { d with requests := d.requests ++ [⟨request, waiting⟩], injected := [] }
    let (answer, after) := taken.react octets
    .deliverAll (d.injected ++ answer)
      (if after.hanging then interludes after.during { after with during := [] } else .finish after (.ok ()))

def close (d : Bench) : Activity Bench :=
  .tellClosed ⟨.client, "client request"⟩ (.finish { d with closes := d.closes + 1 }
    (if d.failsToClose then .error (.ofLink .connection "link already gone") else .ok ()))

def link : Link Bench := ⟨"fake device", send, close⟩

end Bench

end BusManagement.Simulation
