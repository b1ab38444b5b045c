import BusManagement.Frame.Basic
import BusManagement.Link.Attachment

/-! What happens to a client, in the order in which it happens. The chronicle holds everything that can
be seen from outside: the transmissions, the calls to close the link, what the caller is told and the
log. Statements about whole runs are statements about it. -/

namespace BusManagement

inductive ClosingCause where
  | caller
  | reset
  | link
  | discovery
  deriving DecidableEq

inductive Happening where
  /-- A request is about to be sent. -/
  | sending (frame : Frame)
  | handed (transmission : Transmission)
  /-- The link delivered octets that are no matter of device management. -/
  | ignored (octets : Octets)
  | received (frame : Frame)
  /-- The link delivered octets that hold no supported frame. -/
  | undecodable (fault : Fault)
  /-- The link told that it is closed, so the arrivals were thrown away. -/
  | dropped (count : Nat)
  /-- The link told that it is closed, which is passed on in these words. -/
  | linkClosed (told forwarded : ClosingNotice)
  | notified (notice : ClosingNotice)
  | resetSeen
  /-- A request met a frame that it was not waiting for, and threw it away. -/
  | discarded (frame : Frame)
  /-- The client went from open to closed. -/
  | closing (cause : ClosingCause)
  /-- The link is about to be released, so the arrivals were thrown away. -/
  | cleared (count : Nat)
  | released
  | releaseFailed (fault : Fault)
  /-- The caller's closing is complete. -/
  | closed
  /-- The device has no object list to read. -/
  | listUnavailable (fault : Fault)
  | discovered (objects : Nat)
  | discoveryFailed (fault : Fault)
  | opened (objects : Nat)
  | notWritable (object : UInt16) (pid : UInt8) (reason : String)
  deriving DecidableEq

inductive Level where
  | trace
  | debug
  | info
  | warn
  deriving DecidableEq

def Level.text : Level → String
  | trace => "TRACE"
  | debug => "DEBUG"
  | info => "INFO"
  | warn => "WARN"

/-- The line that the client of a name writes into the log, if it writes any. -/
def Happening.logLine? (name : String) : Happening → Option (Level × String)
  | sending f => some (.trace, name ++ ": send " ++ f.text)
  | ignored os => some (.trace, "ignoring non device management frame " ++ os.listing)
  | received f => some (.trace, "received " ++ f.text)
  | undecodable e => some (.debug, "dropping device management frame: " ++ e.message)
  | dropped n => if n = 0 then none else some (.debug, s!"dropped {n} pending frames")
  | linkClosed _ n => some (.debug, "link " ++ n.text)
  | resetSeen => some (.warn, name ++ ": reset indication from server")
  | discarded f => some (.trace, name ++ ": discarding " ++ f.text)
  | cleared n => if n = 0 then none else some (.debug, name ++ s!": dropped {n} pending frames")
  | releaseFailed e => some (.debug, name ++ ": error releasing link: " ++ e.message)
  | closed => some (.debug, name ++ ": closed")
  | listUnavailable e =>
    some (.debug, "object index list not available (" ++ e.message ++ "), using default objects")
  | discovered n => some (.debug, s!"discovered {n} interface objects")
  | discoveryFailed e => some (.debug, name ++ ": discovery failed: " ++ e.message)
  | opened n => some (.info, name ++ s!": opened with {n} interface objects")
  | notWritable object pid reason => some (.trace, s!"object {object} PID {pid} not writable: " ++ reason)
  | handed _ | notified _ | closing _ | released => none

/-- Everything that has happened, oldest first. -/
abbrev Chronicle := List Happening

namespace Chronicle

def log (name : String) (c : Chronicle) : List (Level × String) := c.filterMap (Happening.logLine? name)

def transmissions (c : Chronicle) : List Transmission :=
  c.filterMap fun
    | .handed t => some t
    | _ => none

def notices (c : Chronicle) : List ClosingNotice :=
  c.filterMap fun
    | .notified n => some n
    | _ => none

def releases (c : Chronicle) : Nat := c.count .released

end Chronicle

end BusManagement
