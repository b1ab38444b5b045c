import BusManagement.Client.Describe

/-! Runs of a client: what a caller asks of it and what its link does between the calls, one after the
other. The chronicle goes on from call to call. -/

namespace BusManagement

inductive Call where
  | get (object : UInt16) (pid : UInt8) (start : UInt16) (elements : UInt8)
  | set (object : UInt16) (pid : UInt8) (start : UInt16) (elements : UInt8) (data : Octets)
  | describe (object : UInt16) (pid : UInt8) (index : UInt16)
  | reset
  | close
  | receive (octets : Octets)
  | linkClosed (notice : ClosingNotice)
  deriving DecidableEq

inductive Reply where
  | data (octets : Octets)
  | done
  /-- There is nothing to give back. -/
  | silence
  deriving DecidableEq

namespace Client

def perform (c : Connection σ) (k : Client σ) : Call → Outcome Reply σ
  | .get object pid start elements => let (r, k) := k.get c object pid start elements; (r.map .data, k)
  | .set object pid start elements data =>
    let (r, k) := k.set c object pid start elements data; (r.map fun _ => .done, k)
  | .describe object pid index => let (r, k) := k.describe c object pid index; (r.map .data, k)
  | .reset => let (r, k) := k.reset c; (r.map fun _ => .done, k)
  | .close => (.ok .silence, k.close c)
  | .receive octets => (.ok .silence, k.receive octets)
  | .linkClosed n => (.ok .silence, k.linkClosed c n)

def run (c : Connection σ) (k : Client σ) : List Call → List (Except Fault Reply) × Client σ
  | [] => ([], k)
  | call :: rest =>
    let (r, k) := k.perform c call
    let (rs, k) := run c k rest
    (r :: rs, k)

end Client

end BusManagement
