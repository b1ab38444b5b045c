import BusManagement.Client.Bookmark
import BusManagement.Object.Discovery

/-! The client: property access to the interface objects of one device. Opening it discovers the
objects; from then on callers name an object by its index. A client that could not discover the objects
is closed again before anybody gets to see it. -/

namespace BusManagement

structure Client (σ : Type) where
  exchange : Exchange σ
  objects : ObjectList
  bookmark : Bookmark

inductive Opening (σ : Type) where
  | opened (client : Client σ)
  /-- The objects could not be discovered; the exchange is what is left. -/
  | failed (fault : Fault) (exchange : Exchange σ)

def Opening.exchange : Opening σ → Exchange σ
  | opened k => k.exchange
  | failed _ x => x

namespace Client

abbrev Outcome (α σ : Type) := Except Fault α × Client σ

def start (c : Connection σ) (link : σ) : Opening σ :=
  match Discovery.objects c (.start link) with
  | (.ok objects, x) => .opened ⟨x.note (.opened objects.size), objects, .start⟩
  | (.error e, x) => .failed e ((x.note (.discoveryFailed e)).closeFor c .discovery)

def isOpen (k : Client σ) : Bool := k.exchange.isOpen

def sawReset (k : Client σ) : Bool := k.exchange.phase.sawReset

/-- Sends a request about an object and waits for its confirmation. A closed client is the first thing
to fail, an index without an object the second. -/
def access (c : Connection σ) (k : Client σ) (object : UInt16) (requestTo : ObjectAddress → Frame)
    (awaited : Service) : Outcome Octets σ :=
  if k.isOpen then
    match k.objects.address object with
    | .error e => (.error e, k)
    | .ok address =>
      let (r, x) := k.exchange.request c (requestTo address) awaited
      (r, { k with exchange := x })
  else (.error (Exchange.closedFault c), k)

def get (c : Connection σ) (k : Client σ) (object : UInt16) (pid : UInt8) (start : UInt16)
    (elements : UInt8) : Outcome Octets σ :=
  k.access c object (fun o => .reading o.objectType o.objectInstance pid start elements) .readConfirmation

/-- Changes elements of a property. What the confirmation carries besides is of no interest. -/
def set (c : Connection σ) (k : Client σ) (object : UInt16) (pid : UInt8) (start : UInt16) (elements : UInt8)
    (data : Octets) : Outcome Unit σ :=
  match k.access c object (fun o => .writing o.objectType o.objectInstance pid start elements data)
      .writeConfirmation with
  | (.ok _, k) => (.ok (), k)
  | (.error e, k) => (.error e, k)

def reset (c : Connection σ) (k : Client σ) : Outcome Unit σ :=
  let (r, x) := k.exchange.resetDevice c
  (r, { k with exchange := x })

def close (c : Connection σ) (k : Client σ) : Client σ := { k with exchange := k.exchange.close c }

/-- The link delivers octets while no call is in flight. -/
def receive (k : Client σ) (octets : Octets) : Client σ := { k with exchange := k.exchange.receive octets }

/-- The link tells that it is closed while no call is in flight. -/
def linkClosed (c : Connection σ) (k : Client σ) (n : ClosingNotice) : Client σ :=
  { k with exchange := k.exchange.linkClosed c n }

def withLink (k : Client σ) (link : σ) : Client σ := { k with exchange := { k.exchange with link := link } }

def afresh (k : Client σ) : Client σ := { k with exchange := { k.exchange with chronicle := [] } }

end Client

end BusManagement
