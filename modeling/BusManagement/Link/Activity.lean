import BusManagement.Fault
import BusManagement.Phase

/-! Links to devices, and what they do while a call is in flight. A call on a link is answered only
after any number of other things have happened: the link delivers frames, it tells that it is closed, and
somebody closes the client or looks at it. An `Activity` is such a course of things as data, so a
statement about every activity is one about every link. An activity ends; whoever follows it decides
what each step means, which keeps links and clients apart.

What happens in the middle of a call may come from other threads. It happens between the steps of an
activity, in any order, but one thing at a time: a frame, a notice of the link and a search of the arrivals
are each dealt with to their end before anything else happens, and so is a closing of the client, with all
that the link does about it. How threads would interleave inside of these is not modelled. -/

namespace BusManagement

inductive Waiting where
  | none
  /-- The other side of the link has acknowledged the frame. -/
  | acknowledgement
  /-- The confirmation of the request has been delivered. -/
  | confirmation
  deriving DecidableEq

def Waiting.text : Waiting → String
  | none => "NonBlocking"
  | acknowledgement => "WaitForAck"
  | confirmation => "WaitForCon"

/-- What happens while a call on a link with states `σ` is in flight. -/
inductive Activity (σ : Type) where
  | finish (state : σ) (result : Except Fault Unit)
  | deliver (octets : Octets) (next : Activity σ)
  | tellClosed (notice : ClosingNotice) (next : Activity σ)
  /-- Somebody closes the client, which may call the link in its turn; so the state of the link is handed
  over and comes back. -/
  | closeClient (state : σ) (next : σ → Activity σ)
  | observe (next : Phase → Activity σ)

/-- A link with states `σ`: what it does when a frame is sent over it and when it is closed. -/
structure Link (σ : Type) where
  name : String
  send : σ → Octets → Waiting → Activity σ
  close : σ → Activity σ

namespace Activity

inductive Reception where
  | frame (octets : Octets)
  | closed (notice : ClosingNotice)
  deriving DecidableEq

/-- Follows an activity of a link that serves no client: what a listener gets, the state at the end and
the result. Nobody is there to close, and whoever looks finds nothing closed. -/
def listen : Activity σ → List Reception × σ × Except Fault Unit
  | finish state result => ([], state, result)
  | deliver octets next => let (got, rest) := next.listen; (.frame octets :: got, rest)
  | tellClosed notice next => let (got, rest) := next.listen; (.closed notice :: got, rest)
  | closeClient state next => (next state).listen
  | observe next => (next .opened).listen

def deliverAll (frames : List Octets) (next : Activity σ) : Activity σ := frames.foldr deliver next

def tellAny (notice : Option ClosingNotice) (next : Activity σ) : Activity σ :=
  match notice with
  | some n => tellClosed n next
  | none => next

end Activity

end BusManagement
