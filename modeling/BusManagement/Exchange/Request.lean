import BusManagement.Exchange.Basic

/-! Requests. A request is sent, and when the link has done its part the arrivals are searched from the
oldest frame on. A reset indication ends the search and the client; the first confirmation of the awaited
kind ends it with its data or with the reason for a refusal; every other frame is thrown away. The
search looks at the kind of a confirmation only. -/

namespace BusManagement.Exchange

/-- What a confirmation tells: data, or the reason why there are none. -/
def answerOf (f : Frame) : Except Fault Octets :=
  match f.refusalCode? with
  | some code => .error (.refused code)
  | none => .ok f.data

/-- A reset indication is taken note of. The link is released unless the client was closed already. -/
def resetSeen (c : Connection σ) (x : Exchange σ) : Exchange σ :=
  let seen := x.note .resetSeen
  if x.isOpen then release c { seen.note (.closing .reset) with phase := x.phase.reset }
  else { seen with phase := x.phase.reset }

/-- Searches frames, oldest first, for a confirmation. What the search does not come to stays. -/
def scanFrom (c : Connection σ) (awaited : Service) : List Frame → Exchange σ → Outcome Octets σ
  | [], x => (.error .confirmationExpected, x.clearArrivals)
  | f :: rest, x =>
    if f.service = .resetIndication then (.error .resetByServer, resetSeen c { x with arrivals := ⟨rest⟩ })
    else if f.service = awaited then (answerOf f, { x with arrivals := ⟨rest⟩ })
    else scanFrom c awaited rest (x.note (.discarded f))

def scan (c : Connection σ) (x : Exchange σ) (awaited : Service) : Outcome Octets σ :=
  scanFrom c awaited x.arrivals.frames x

def closedFault (c : Connection σ) : Fault := .closed c.name

/-- Sends a request and searches for its confirmation. -/
def request (c : Connection σ) (x : Exchange σ) (f : Frame) (awaited : Service) : Outcome Octets σ :=
  if x.isOpen then
    match (x.note (.sending f)).send c f true with
    | (.ok _, x) => x.scan c awaited
    | (.error e, x) => (.error e, x)
  else (.error (closedFault c), x)

/-- Asks the device to reset itself. Nothing confirms that; a later request meets the reset indication
that the device sends. -/
def resetDevice (c : Connection σ) (x : Exchange σ) : Outcome Unit σ :=
  if x.isOpen then x.send c (.bare .resetRequest) false else (.error (closedFault c), x)

end BusManagement.Exchange
