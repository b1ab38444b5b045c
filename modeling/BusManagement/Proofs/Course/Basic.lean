import BusManagement.Client.Run
import Mathlib.Logic.Relation
import Mathlib.Tactic.SplitIfs

/-! The course of an exchange: everything that can befall it, one thing at a time. `Flight` lists what
can happen while a call on the link is in flight, `Step` adds what the client does by itself, that is
handing over a transmission and taking frames out of the arrivals. Every operation of a client is a chain
of such steps, so what one step keeps, whole runs keep, and no statement about runs has to look into an
operation again. -/

namespace BusManagement

variable {σ α : Type}

/-- What only the log tells: such a happening neither changes the client nor reaches the link or the
caller. -/
def Happening.isRemark : Happening → Bool
  | .sending _ | .ignored _ | .undecodable _ | .releaseFailed _ | .closed | .listUnavailable _
  | .discovered _ | .discoveryFailed _ | .opened _ | .notWritable _ _ _ => true
  | _ => false

namespace Exchange

/-- Adds several happenings to the chronicle. -/
def notes (x : Exchange σ) (hs : Chronicle) : Exchange σ := { x with chronicle := x.chronicle ++ hs }

/-- The exchange once a search has thrown some frames away and left others behind. -/
def searched (x : Exchange σ) (passed left : List Frame) : Exchange σ :=
  { x with arrivals := ⟨left⟩, chronicle := x.chronicle ++ passed.map .discarded }

/-- A client that is open closes, throws its arrivals away and calls the link to close. -/
def letGo (x : Exchange σ) (p : Phase) (hs : Chronicle) : Exchange σ :=
  { x with
    phase := p
    arrivals := .empty
    chronicle := x.chronicle ++ hs ++ [.cleared x.arrivals.size, .released] }

/-- What the chronicle gains when the link tells that it is closed. -/
def closingNotes (c : Connection σ) (x : Exchange σ) (n : ClosingNotice) : Chronicle :=
  (if x.isOpen then [.closing .link] else [])
    ++ [.dropped x.arrivals.size, .linkClosed n (x.phase.forward n)]
    ++ (if c.config.hearsClosing then [.notified (x.phase.forward n)] else [])

@[simp] theorem phase_note (x : Exchange σ) (h : Happening) : (x.note h).phase = x.phase := rfl

@[simp] theorem arrivals_note (x : Exchange σ) (h : Happening) : (x.note h).arrivals = x.arrivals := rfl

@[simp] theorem link_note (x : Exchange σ) (h : Happening) : (x.note h).link = x.link := rfl

@[simp] theorem chronicle_note (x : Exchange σ) (h : Happening) :
    (x.note h).chronicle = x.chronicle ++ [h] := rfl

@[simp] theorem isOpen_note (x : Exchange σ) (h : Happening) : (x.note h).isOpen = x.isOpen := rfl

theorem phase_eq_opened {x : Exchange σ} (h : x.isOpen = true) : x.phase = .opened := by
  unfold isOpen at h
  cases hp : x.phase with
  | opened => rfl
  | closed _ => simp [hp, Phase.isOpen] at h

theorem isOpen_iff {x : Exchange σ} : x.isOpen = true ↔ x.phase = .opened :=
  ⟨phase_eq_opened, fun h => by rw [isOpen, h]; rfl⟩

/-- A link that tells of its closing closes the client, which loses its arrivals. -/
theorem linkClosed_eq (c : Connection σ) (x : Exchange σ) (n : ClosingNotice) :
    x.linkClosed c n =
      { x with
        phase := x.phase.close
        arrivals := .empty
        chronicle := x.chronicle ++ closingNotes c x n } := by
  by_cases ho : x.isOpen
  · by_cases hh : c.config.hearsClosing <;>
      simp [linkClosed, shut, abandonArrivals, clearArrivals, note, closingNotes, ho, hh]
  · have hp : x.phase.close = x.phase := by
      cases hp : x.phase with
      | opened => exact absurd (isOpen_iff.mpr hp) ho
      | closed _ => rfl
    by_cases hh : c.config.hearsClosing <;>
      simp [linkClosed, shut, abandonArrivals, clearArrivals, note, closingNotes, ho, hh, hp]

/-- All that can happen when the link tells that it is closed. -/
theorem closingNotes_cases {c : Connection σ} {x : Exchange σ} {n : ClosingNotice} {h : Happening}
    (hh : h ∈ closingNotes c x n) :
    h = .closing .link ∨ h = .dropped x.arrivals.size ∨ h = .linkClosed n (x.phase.forward n) ∨
      h = .notified (x.phase.forward n) := by
  simp only [closingNotes, List.mem_append, List.mem_cons, List.not_mem_nil, or_false] at hh
  rcases hh with (hh | rfl | rfl) | hh
  · split_ifs at hh
    · exact .inl (List.mem_singleton.mp hh)
    · cases hh
  · exact .inr (.inl rfl)
  · exact .inr (.inr (.inl rfl))
  · split_ifs at hh
    · exact .inr (.inr (.inr (List.mem_singleton.mp hh)))
    · cases hh

theorem letGo_shut {x : Exchange σ} (h : x.isOpen = true) (cause : ClosingCause) :
    ((x.shut cause).abandonArrivals .cleared).note .released = x.letGo x.phase.close [.closing cause] := by
  simp [shut, h, abandonArrivals, clearArrivals, note, letGo]

/-! ### Flights -/

/-- What befalls an exchange while a call on its link is in flight, and between calls. -/
inductive Flight (c : Connection σ) : Exchange σ → Exchange σ → Prop
  /-- The state of the link changes. -/
  | settle (x : Exchange σ) (link : σ) : Flight c x { x with link := link }
  | remark (x : Exchange σ) (h : Happening) (hr : h.isRemark = true) : Flight c x (x.note h)
  | receive (x : Exchange σ) (f : Frame) :
      Flight c x { x.note (.received f) with arrivals := x.arrivals.push f }
  | linkClosed (x : Exchange σ) (n : ClosingNotice) : Flight c x (x.linkClosed c n)
  /-- The caller closes the client, or discovery gives up. -/
  | close (x : Exchange σ) (cause : ClosingCause) (ho : x.isOpen = true)
      (hc : cause = .caller ∨ cause = .discovery) : Flight c x (x.letGo x.phase.close [.closing cause])

/-- Any number of such things. -/
abbrev InFlight (c : Connection σ) : Exchange σ → Exchange σ → Prop := Relation.ReflTransGen (Flight c)

variable (c : Connection σ)

theorem inFlight_note (x : Exchange σ) {h : Happening} (hr : h.isRemark = true) : InFlight c x (x.note h) :=
  .single (.remark x h hr)

theorem inFlight_receive (x : Exchange σ) (octets : Octets) : InFlight c x (x.receive octets) := by
  cases octets with
  | nil => exact inFlight_note c x rfl
  | cons code rest =>
      rw [receive]
      split_ifs
      · split
        · exact .single (.receive x _)
        · exact inFlight_note c x rfl
      · exact inFlight_note c x rfl

/-- Following an activity of the link is a flight, provided closing the client is one. -/
theorem inFlight_follow {onClose : Exchange σ → Exchange σ} (hclose : ∀ x, InFlight c x (onClose x))
    (a : Activity σ) (x : Exchange σ) : InFlight c x (follow c onClose a x).2 := by
  induction a generalizing x with
  | finish link result => exact .single (.settle x link)
  | deliver octets next ih => exact (inFlight_receive c x octets).trans (ih (x.receive octets))
  | tellClosed n next ih => exact .head (.linkClosed x n) (ih (x.linkClosed c n))
  | closeClient link next ih =>
      have hmove : InFlight c x (onClose { x with link := link }) :=
        .head (.settle x link) (hclose { x with link := link })
      exact hmove.trans (ih _ (onClose { x with link := link }))
  | observe next ih => exact ih x.phase x

/-- The part of a release that comes after the client has let go. -/
theorem inFlight_follow_id (a : Activity σ) (x : Exchange σ) : InFlight c x (follow c id a x).2 :=
  inFlight_follow c (fun _ => .refl) a x

theorem inFlight_release (x : Exchange σ) :
    InFlight c ((x.abandonArrivals .cleared).note .released) (release c x) := by
  have h := inFlight_follow_id c (c.link.close x.link) ((x.abandonArrivals .cleared).note .released)
  rw [release]
  split
  · next hf => rwa [hf] at h
  · next hf =>
      rw [hf] at h
      exact h.trans (inFlight_note c _ rfl)

theorem inFlight_closeFor (x : Exchange σ) {cause : ClosingCause}
    (hc : cause = .caller ∨ cause = .discovery) : InFlight c x (x.closeFor c cause) := by
  rw [closeFor]
  split_ifs with ho
  · have h := inFlight_release c (x.shut cause)
    rw [letGo_shut ho] at h
    exact .head (.close x cause ho hc) h
  · exact .refl

theorem inFlight_close (x : Exchange σ) : InFlight c x (x.close c) := by
  rw [close]
  split_ifs
  · exact (inFlight_closeFor c x (.inl rfl)).trans (inFlight_note c _ rfl)
  · exact .refl

/-! ### Steps -/

/-- What befalls an exchange at all. -/
inductive Step (c : Connection σ) : Exchange σ → Exchange σ → Prop
  | flight {x y : Exchange σ} (h : Flight c x y) : Step c x y
  /-- A transmission is handed to the link. -/
  | hand (x : Exchange σ) (t : Transmission) (ho : x.isOpen = true) : Step c x (x.note (.handed t))
  /-- A search meets its confirmation behind frames that it throws away. -/
  | take (x : Exchange σ) (passed : List Frame) (f : Frame) (left : List Frame)
      (hf : x.arrivals.frames = passed ++ f :: left)
      (hp : ∀ g ∈ passed ++ [f], g.service ≠ .resetIndication) :
      Step c x (x.searched passed left)
  /-- A search throws all frames away. -/
  | exhaust (x : Exchange σ) (hp : ∀ g ∈ x.arrivals.frames, g.service ≠ .resetIndication) :
      Step c x (x.searched x.arrivals.frames [])
  /-- A search meets a reset indication, and the client is open. -/
  | reset (x : Exchange σ) (passed : List Frame) (f : Frame) (left : List Frame) (ho : x.isOpen = true)
      (hf : x.arrivals.frames = passed ++ f :: left)
      (hp : ∀ g ∈ passed, g.service ≠ .resetIndication) (hr : f.service = .resetIndication) :
      Step c x ((x.searched passed left).letGo x.phase.reset [.resetSeen, .closing .reset])
  /-- A search meets a reset indication, and the client is closed already. -/
  | resetLate (x : Exchange σ) (passed : List Frame) (f : Frame) (left : List Frame) (ho : x.isOpen = false)
      (hf : x.arrivals.frames = passed ++ f :: left)
      (hp : ∀ g ∈ passed, g.service ≠ .resetIndication) (hr : f.service = .resetIndication) :
      Step c x { (x.searched passed left).note .resetSeen with phase := x.phase.reset }

/-- Any number of steps. -/
abbrev Course (c : Connection σ) : Exchange σ → Exchange σ → Prop := Relation.ReflTransGen (Step c)

variable {c}

theorem InFlight.course {x y : Exchange σ} (h : InFlight c x y) : Course c x y :=
  Relation.ReflTransGen.mono (fun _ _ hxy => Step.flight hxy) _ _ h

end Exchange

end BusManagement
