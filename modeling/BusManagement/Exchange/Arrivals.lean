import BusManagement.Frame.Basic

/-! Device management frames that have arrived and wait for a request to look at them, oldest first. -/

namespace BusManagement

structure Arrivals where
  frames : List Frame
  deriving DecidableEq

namespace Arrivals

def empty : Arrivals := ⟨[]⟩

def push (b : Arrivals) (f : Frame) : Arrivals := ⟨b.frames ++ [f]⟩

/-- The oldest frame, and those that wait behind it. -/
def pop? (b : Arrivals) : Option (Frame × Arrivals) :=
  match b.frames with
  | [] => none
  | f :: rest => some (f, ⟨rest⟩)

def size (b : Arrivals) : Nat := b.frames.length

@[simp] theorem frames_push (b : Arrivals) (f : Frame) : (b.push f).frames = b.frames ++ [f] := rfl

@[simp] theorem frames_empty : empty.frames = [] := rfl

@[simp] theorem pop?_eq_some_iff {b rest : Arrivals} {f : Frame} :
    b.pop? = some (f, rest) ↔ b.frames = f :: rest.frames := by
  obtain ⟨frames⟩ := b
  obtain ⟨left⟩ := rest
  cases frames <;> simp [pop?]

@[simp] theorem pop?_eq_none_iff {b : Arrivals} : b.pop? = none ↔ b.frames = [] := by
  obtain ⟨frames⟩ := b
  cases frames <;> simp [pop?]

/-- The arrivals as they are shown to developers: the frames stay out. -/
def text : String := "FrameInbox"

/-- What a sender puts frames into: the arrivals, or the place where they have been. -/
abbrev Slot := Option Arrivals

def Slot.offer (s : Slot) (f : Frame) : Bool × Slot := (s.isSome, s.map (push · f))

end Arrivals

end BusManagement
