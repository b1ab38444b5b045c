import BusManagement.Config
import BusManagement.Exchange.Arrivals
import BusManagement.Exchange.Chronicle

/-! An exchange: the use that one client makes of one link. It keeps the frames that have arrived,
whether the client is open, and what has happened. This module holds what befalls an exchange from
outside, namely frames and the closing of the link, and how it closes. Whoever finds the exchange open
and closes it releases the link; a link that tells of its own closing has nothing left to release. -/

namespace BusManagement

/-- A link, how it is attached, and what the caller wants. None of it changes in the course of an
exchange. -/
structure Connection (σ : Type) where
  link : Link σ
  attachment : Attachment
  config : Config

def Connection.name (c : Connection σ) : String := c.attachment.name c.link.name

structure Exchange (σ : Type) where
  link : σ
  arrivals : Arrivals
  phase : Phase
  chronicle : Chronicle

namespace Exchange

/-- What an operation gives, and the exchange after it. -/
abbrev Outcome (α σ : Type) := Except Fault α × Exchange σ

def start (link : σ) : Exchange σ := ⟨link, .empty, .opened, []⟩

def isOpen (x : Exchange σ) : Bool := x.phase.isOpen

def note (x : Exchange σ) (h : Happening) : Exchange σ := { x with chronicle := x.chronicle ++ [h] }

/-- The link delivers octets. Those that hold a frame join the arrivals, be the client open or not. -/
def receive (x : Exchange σ) : Octets → Exchange σ
  | [] => x.note (.ignored [])
  | code :: rest =>
    if Service.inFamily code then
      match Frame.decode (code :: rest) with
      | .ok f => { x.note (.received f) with arrivals := x.arrivals.push f }
      | .error e => x.note (.undecodable e)
    else x.note (.ignored (code :: rest))

def shut (x : Exchange σ) (cause : ClosingCause) : Exchange σ :=
  if x.isOpen then { x.note (.closing cause) with phase := x.phase.close } else x

def clearArrivals (x : Exchange σ) : Exchange σ := { x with arrivals := .empty }

/-- Throws the arrivals away because the connection ends, and tells how many there were. -/
def abandonArrivals (x : Exchange σ) (happening : Nat → Happening) : Exchange σ :=
  (x.note (happening x.arrivals.size)).clearArrivals

/-- The link tells that it is closed. The caller hears of it in the words that the phase allows. -/
def linkClosed (c : Connection σ) (x : Exchange σ) (n : ClosingNotice) : Exchange σ :=
  let forwarded := ((x.shut .link).abandonArrivals .dropped).note (.linkClosed n (x.phase.forward n))
  if c.config.hearsClosing then forwarded.note (.notified (x.phase.forward n)) else forwarded

/-- Follows an activity of the link up to its end. What it means that somebody closes the client in the
middle of it is a parameter, since the closing itself is such an activity. A frame, a notice and a closing
are dealt with to their end before the activity goes on, whatever thread they come from. -/
def follow (c : Connection σ) (onClose : Exchange σ → Exchange σ) :
    Activity σ → Exchange σ → Outcome Unit σ
  | .finish link result, x => (result, { x with link := link })
  | .deliver octets next, x => follow c onClose next (x.receive octets)
  | .tellClosed n next, x => follow c onClose next (x.linkClosed c n)
  | .closeClient link next, x =>
    let x := onClose { x with link := link }
    follow c onClose (next x.link) x
  | .observe next, x => follow c onClose (next x.phase) x

/-- Releases the link of an exchange that has just been closed. Closing it once more meanwhile has no
effect, and a link that fails to close is left at that. -/
def release (c : Connection σ) (x : Exchange σ) : Exchange σ :=
  match follow c id (c.link.close x.link) ((x.abandonArrivals .cleared).note .released) with
  | (.ok _, x) => x
  | (.error e, x) => x.note (.releaseFailed e)

/-- Closes the exchange and releases its link. A closed exchange stays as it is. -/
def closeFor (c : Connection σ) (x : Exchange σ) (cause : ClosingCause) : Exchange σ :=
  if x.isOpen then release c (x.shut cause) else x

def close (c : Connection σ) (x : Exchange σ) : Exchange σ :=
  if x.isOpen then (x.closeFor c .caller).note .closed else x

/-- Sends a frame over the link, unless the frame has no octets. -/
def send (c : Connection σ) (x : Exchange σ) (f : Frame) (confirmed : Bool) : Outcome Unit σ :=
  match c.attachment.transmission f confirmed with
  | .ok t => follow c (close c) (c.link.send x.link t.octets t.waiting) (x.note (.handed t))
  | .error e => (.error e, x)

end Exchange

end BusManagement
