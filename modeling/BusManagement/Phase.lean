import BusManagement.Link.Closing

/-! The life of a client: open, then closed for good. A closed client remembers whether the device has
reset itself; an open one has nothing to remember, so a client that has seen a reset is never open. -/

namespace BusManagement

/-- Whether a client is open, and if not, whether a reset of the device was seen. -/
inductive Phase where
  | opened
  | closed (byReset : Bool)
  deriving DecidableEq

namespace Phase

def isOpen : Phase → Bool
  | opened => true
  | closed _ => false

def sawReset : Phase → Bool
  | opened => false
  | closed byReset => byReset

def close : Phase → Phase
  | opened => closed false
  | closed byReset => closed byReset

/-- A reset of the device is seen, which may happen after the closing, too. -/
def reset : Phase → Phase
  | _ => closed true

/-- A closing notice as the caller gets to see it: after a reset of the device every closing counts as
that reset. -/
def forward (p : Phase) (n : ClosingNotice) : ClosingNotice := if p.sawReset then .afterReset else n

def text (p : Phase) : String := if p.isOpen then "Open" else "Closed"

@[simp] theorem isOpen_close (p : Phase) : p.close.isOpen = false := by cases p <;> rfl

@[simp] theorem sawReset_close (p : Phase) : p.close.sawReset = p.sawReset := by cases p <;> rfl

@[simp] theorem close_close (p : Phase) : p.close.close = p.close := by cases p <;> rfl

@[simp] theorem isOpen_reset (p : Phase) : p.reset.isOpen = false := by cases p <;> rfl

@[simp] theorem sawReset_reset (p : Phase) : p.reset.sawReset = true := by cases p <;> rfl

theorem isOpen_eq_false_of_sawReset {p : Phase} (h : p.sawReset = true) : p.isOpen = false := by
  cases p with
  | opened => simp [sawReset] at h
  | closed => rfl

end Phase

end BusManagement
