import BusManagement.Frame.Codec
import BusManagement.Link.Activity

/-! The two ways in which a device is attached. They differ in the name of the client, and in what is
waited for when no confirmation is: a frame leaves for a local device at once, whereas the server of a
network connection acknowledges every frame. -/

namespace BusManagement

inductive Attachment where
  /-- To this machine, over a serial interface for instance. -/
  | direct
  | network
  deriving DecidableEq

structure Transmission where
  octets : Octets
  waiting : Waiting
  deriving DecidableEq

namespace Attachment

def name : Attachment → String → String
  | direct, link => "local device management " ++ link
  | network, link => "KNXnet/IP DM " ++ link

def waiting : Attachment → (confirmed : Bool) → Waiting
  | _, true => .confirmation
  | direct, false => .none
  | network, false => .acknowledgement

def transmission (a : Attachment) (f : Frame) (confirmed : Bool) : Except Fault Transmission :=
  match f.encode with
  | .ok octets => .ok ⟨octets, a.waiting confirmed⟩
  | .error e => .error e

end Attachment

end BusManagement
