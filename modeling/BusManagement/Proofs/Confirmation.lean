import BusManagement.Proofs.Release
import BusManagement.Proofs.Resets
import BusManagement.Proofs.Simulated

/-! What comes of a search for a confirmation. The first frame that matters decides it: a confirmation of the awaited
kind is an answer or a refusal, a reset indication ends the client, and without either there is nothing to tell. What
lies behind that frame stays, unless a reset has closed an open client, whose arrivals are thrown away before its
link is called to close. -/

namespace BusManagement

open Simulation (Scripted)

variable {σ : Type}

namespace Activity

/-- Nothing that holds a frame is delivered to a client that is closed by a reset. -/
inductive Frameless : Activity σ → Prop
  | finish (link : σ) (result : Except Fault Unit) : Frameless (.finish link result)
  | deliver {octets : Octets} {next : Activity σ} (ho : ∀ f, Frame.decode octets ≠ .ok f) (h : Frameless next) :
      Frameless (.deliver octets next)
  | tellClosed (n : ClosingNotice) {next : Activity σ} (h : Frameless next) : Frameless (.tellClosed n next)
  | closeClient {link : σ} {next : σ → Activity σ} (h : Frameless (next link)) : Frameless (.closeClient link next)
  | observe {next : Phase → Activity σ} (h : Frameless (next (.closed true))) : Frameless (.observe next)

end Activity

namespace Exchange

variable {x : Exchange σ} {awaited : Service} {passed left : List Frame} {f : Frame}

/-- The first frame that matters to a search, those in front of it and those behind it. -/
structure Meets (x : Exchange σ) (awaited : Service) (passed : List Frame) (f : Frame) (left : List Frame) : Prop where
  frames : x.arrivals.frames = passed ++ f :: left
  passed : ∀ g ∈ passed, Passes awaited g
  matters : f.service = .resetIndication ∨ f.service = awaited

/-- A confirmation of no elements is a refusal, and any other confirmation is an answer. -/
theorem answerOf_of_isConfirmation (hf : f.service.isConfirmation = true) :
    answerOf f = if f.elements = 0 then .error (.refused (f.data.headD 0)) else .ok f.data := by
  rw [answerOf_eq, Frame.isRefusal, hf, Bool.true_and]
  by_cases he : f.elements = 0 <;> simp [he]

/-! ### Resets -/

/-- A link that delivers no frame leaves nothing among the arrivals of a client that has none. -/
theorem arrivals_follow (c : Connection σ) {a : Activity σ} (ha : a.Frameless) {x : Exchange σ}
    (hp : x.phase = .closed true) (hx : x.arrivals = .empty) : (follow c id a x).2.arrivals = .empty := by
  induction ha generalizing x with
  | finish link result => exact hx
  | @deliver octets next ho _ ih =>
      rw [follow]
      cases hd : Frame.decode octets with
      | ok f => exact absurd hd (ho f)
      | error e =>
          obtain ⟨h, -, heq⟩ := receive_of_error hd x
          rw [heq]
          exact ih hp hx
  | tellClosed n _ ih =>
      rw [follow, linkClosed_eq]
      apply ih
      · show x.phase.close = .closed true
        rw [hp]
        rfl
      · rfl
  | closeClient _ ih =>
      rw [follow]
      exact ih hp hx
  | observe _ ih =>
      rw [follow, hp]
      exact ih hp hx

theorem arrivals_release (c : Connection σ) (x : Exchange σ) :
    (release c x).arrivals =
      (follow c id (c.link.close x.link) ((x.abandonArrivals .cleared).note .released)).2.arrivals := by
  rw [release]
  split
  · next h => rw [h]
  · next e y h =>
      rw [h]
      exact arrivals_note y (.releaseFailed e)

theorem arrivals_resetSeen (c : Connection σ) (ho : x.isOpen = true) (ha : (c.link.close x.link).Frameless) :
    (resetSeen c x).arrivals = .empty := by
  rw [resetSeen, if_pos ho, arrivals_release]
  exact arrivals_follow c ha rfl rfl

/-- What a search that meets a reset indication leaves of an open client. -/
structure ClosedByReset (c : Connection σ) (x y : Exchange σ) : Prop extends ClosesFor .reset x y where
  phase : y.phase = .closed true
  transmissions : y.chronicle.transmissions = x.chronicle.transmissions
  arrivals : (c.link.close x.link).Frameless → y.arrivals = .empty

theorem scan_of_reset_of_isOpen (c : Connection σ) (ho : x.isOpen = true) (hm : x.Meets awaited passed f left)
    (hr : f.service = .resetIndication) :
    ∃ y, x.scan c awaited = (.error .resetByServer, y) ∧ ClosedByReset c x y := by
  have hopen : (x.searched passed left).isOpen = true := ho
  have hsearched : (x.searched passed left).chronicle.transmissions = x.chronicle.transmissions := by
    simp [searched]
  refine ⟨_, scan_reset c hm.frames hm.passed hr, ?_, phase_resetSeen c _, ?_, fun ha => ?_⟩
  · exact (stays_searched x passed left).closesFor (closesFor_resetSeen c hopen)
  · exact (transmissions_resetSeen _).trans hsearched
  · exact arrivals_resetSeen c hopen ha

theorem scan_of_reset_of_closed (c : Connection σ) (ho : x.isOpen = false) (hm : x.Meets awaited passed f left)
    (hr : f.service = .resetIndication) :
    x.scan c awaited =
      (.error .resetByServer, { (x.searched passed left).note .resetSeen with phase := .closed true }) := by
  have hclosed : ¬(x.searched passed left).isOpen = true := Bool.eq_false_iff.mp ho
  rw [scan_reset c hm.frames hm.passed hr, resetSeen, if_neg hclosed]
  rfl

/-! ### Searches -/

/-- Among the arrivals of any exchange there is a first frame that matters to a search, or none. Without one, the
search throws all of them away, changes nothing else and fails. A confirmation of the awaited kind is taken out, with
the frames in front of it, and nothing else changes: of no elements it is a refusal with the code in its data, of
others it gives its data. A reset indication closes an open client for good, with one call to close the link and
nothing left to wait; of a client that is closed already it changes no more than the phase and takes the frames up to
itself. -/
theorem scan_outcome (c : Connection σ) (x : Exchange σ) {awaited : Service} (ha : awaited.isConfirmation = true) :
    ((∀ g ∈ x.arrivals.frames, Passes awaited g) ∨ ∃ passed f left, x.Meets awaited passed f left) ∧
    ((∀ g ∈ x.arrivals.frames, Passes awaited g) →
      x.scan c awaited = (.error .confirmationExpected, x.searched x.arrivals.frames [])) ∧
    (∀ passed f left, x.Meets awaited passed f left →
      (f.service = awaited → x.scan c awaited =
        (if f.elements = 0 then .error (.refused (f.data.headD 0)) else .ok f.data, x.searched passed left)) ∧
      (f.service = .resetIndication → x.isOpen = true →
        ∃ y, x.scan c awaited = (.error .resetByServer, y) ∧ ClosedByReset c x y) ∧
      (f.service = .resetIndication → x.isOpen = false → x.scan c awaited =
        (.error .resetByServer, { (x.searched passed left).note .resetSeen with phase := .closed true }))) ∧
    (Fault.confirmationExpected.kind = .invalidResponse ∧
      Fault.confirmationExpected.detail = "confirmation expected") ∧
    (Fault.resetByServer.kind = .connectionReset ∧ Fault.resetByServer.detail = "reset by server") ∧
    ∀ code, (Fault.refused code).kind = .remote ∧ (Fault.refused code).detail = Refusal.text code := by
  refine ⟨?cases, scan_exhausted c,
    fun passed f left hm => ⟨fun hs => ?taken, fun hr ho => ?opened, fun hr ho => ?closed⟩,
    ⟨rfl, rfl⟩, ⟨rfl, rfl⟩, fun code => ⟨rfl, rfl⟩⟩
  case cases =>
    rcases divide awaited x.arrivals.frames with hall | ⟨passed, f, left, hf, hp, hmatters⟩
    · exact .inl hall
    · exact .inr ⟨passed, f, left, hf, hp, hmatters⟩
  case taken =>
    rw [scan_found c hm.frames hm.passed hs (Service.ne_resetIndication_of_isConfirmation ha),
      answerOf_of_isConfirmation (hs ▸ ha)]
  case opened => exact scan_of_reset_of_isOpen c ho hm hr
  case closed => exact scan_of_reset_of_closed c ho hm hr

/-- The link of this device tells that it is closed, and then it fails to close. The confirmation behind the reset
indication is lost, and the one in front of it is not awaited. -/
theorem scan_outcome_reset :
    ∃ (d : Scripted) (x y : Exchange Scripted), d.closingFault = some .cancelled ∧
      d.closingNotice = some ⟨.server, "gone"⟩ ∧ x = ⟨d, ⟨[⟨.writeConfirmation, 8, 1, 52, 1, 1, []⟩,
        .bare .resetIndication, ⟨.readConfirmation, 8, 1, 52, 1, 1, [0]⟩]⟩, .opened, []⟩ ∧
      x.scan (Scripted.connection ⟨false, true⟩) .readConfirmation = (.error .resetByServer, y) ∧
      y.phase = .closed true ∧ y.chronicle.releases = 1 ∧ y.arrivals = .empty := by
  let d : Scripted := { Scripted.modeAndMedium with
    closingFault := some .cancelled
    closingNotice := some ⟨.server, "gone"⟩ }
  let x : Exchange Scripted := ⟨d, ⟨[⟨.writeConfirmation, 8, 1, 52, 1, 1, []⟩, .bare .resetIndication,
    ⟨.readConfirmation, 8, 1, 52, 1, 1, [0]⟩]⟩, .opened, []⟩
  obtain ⟨-, -, hmeets, -⟩ := scan_outcome (Scripted.connection ⟨false, true⟩) x
    (rfl : Service.readConfirmation.isConfirmation = true)
  obtain ⟨-, hreset, -⟩ := hmeets [⟨.writeConfirmation, 8, 1, 52, 1, 1, []⟩] (.bare .resetIndication)
    [⟨.readConfirmation, 8, 1, 52, 1, 1, [0]⟩] ⟨rfl, by decide, .inl rfl⟩
  obtain ⟨y, hscan, hy⟩ := hreset rfl rfl
  exact ⟨d, x, y, rfl, rfl, rfl, hscan, hy.phase, hy.releases, hy.arrivals (.tellClosed _ (.finish _ _))⟩

end Exchange

end BusManagement
