import BusManagement.Proofs.ListReading

/-! What comes of opening a client. A device whose remote side refuses to tell the number of its objects, or that
resets itself meanwhile, is taken to have the objects that every device has. Everything else that goes wrong ends
the opening with the fault that it went wrong with: by then the client may have been closed by a search that met a
reset, or by the link itself, and if not it is closed now. So a client whose objects are not discovered has closed
exactly once when it is given up. -/

namespace BusManagement

open Simulation (Scripted)

variable {σ : Type}

theorem Fault.isRemote_iff {e : Fault} : e.isRemote = true ↔ e.kind = .remote ∨ e.kind = .connectionReset := by
  simp [isRemote]

namespace Discovery

/-- Sends the first request of all, which is for the number of the objects. -/
def sendCount (c : Connection σ) (link : σ) : Exchange.Outcome Unit σ :=
  ((Exchange.start link).note (.sending (Piece.request ⟨0, 1⟩))).send c (Piece.request ⟨0, 1⟩) true

/-- The number of the objects is not told: the link fails to send the request, or the search for the confirmation
fails. -/
inductive CountFails (c : Connection σ) (link : σ) : Fault → Exchange σ → Prop
  | sending {e : Fault} {y : Exchange σ} (hsend : sendCount c link = (.error e, y)) : CountFails c link e y
  | searching {e : Fault} {y z : Exchange σ} (hsend : sendCount c link = (.ok (), y))
      (hscan : y.scan c .readConfirmation = (.error e, z)) : CountFails c link e z

variable {c : Connection σ} {link : σ}

theorem readCount_of_sent {x : Exchange σ} (h : sendCount c link = (.ok (), x)) :
    readPiece c (.start link) ⟨0, 1⟩ = x.scan c .readConfirmation := by
  have hopen : (Exchange.start link).isOpen = true := rfl
  have hsend : ((Exchange.start link).note (.sending (.reading ObjectType.device 1 PropertyId.objectList 0 1))).send c
      (.reading ObjectType.device 1 PropertyId.objectList 0 1) true = (.ok (), x) := h
  rw [readPiece, Exchange.request, if_pos hopen, hsend]

theorem readCount_of_unsent {e : Fault} {x : Exchange σ} (h : sendCount c link = (.error e, x)) :
    readPiece c (.start link) ⟨0, 1⟩ = (.error e, x) := by
  have hopen : (Exchange.start link).isOpen = true := rfl
  have hsend : ((Exchange.start link).note (.sending (.reading ObjectType.device 1 PropertyId.objectList 0 1))).send c
      (.reading ObjectType.device 1 PropertyId.objectList 0 1) true = (.error e, x) := h
  rw [readPiece, Exchange.request, if_pos hopen, hsend]

theorem countFails_iff {e : Fault} {y : Exchange σ} :
    CountFails c link e y ↔ readPiece c (.start link) ⟨0, 1⟩ = (.error e, y) := by
  constructor
  · rintro (hsend | ⟨hsend, hscan⟩)
    · exact readCount_of_unsent hsend
    · rw [readCount_of_sent hsend]
      exact hscan
  · intro h
    rcases hsend : sendCount c link with ⟨e' | _, x⟩
    · rw [readCount_of_unsent hsend] at h
      obtain ⟨he, rfl⟩ := Prod.mk.inj h
      obtain rfl := Except.error.inj he
      exact .sending hsend
    · rw [readCount_of_sent hsend] at h
      exact .searching hsend h

/-- The number of the objects is asked for exactly once. -/
theorem transmissions_readCount {answer : Except Fault Octets} {y : Exchange σ}
    (h : readPiece c (.start link) ⟨0, 1⟩ = (answer, y)) :
    y.chronicle.transmissions = [Piece.transmission ⟨0, 1⟩] := by
  have hencode : (Piece.request ⟨0, 1⟩).encode = .ok (Piece.request ⟨0, 1⟩).layout :=
    Frame.encode_of_le rfl (by decide) (by decide)
  have hy : ((Exchange.start link).request c (Piece.request ⟨0, 1⟩) .readConfirmation).2 = y := congrArg Prod.snd h
  rw [← hy]
  exact Exchange.transmissions_request rfl hencode (by decide)

end Discovery

namespace Client

open Discovery hiding objects
open Exchange (Accounted Stays ClosesFor)

variable (c : Connection σ) (link : σ)

theorem start_failed_iff (e : Fault) :
    (∃ y, start c link = .failed e y) ↔ ∃ x, Discovers c (.start link) (.error e) x := by
  constructor
  · rintro ⟨y, hy⟩
    rcases start_cases c link with ⟨d, x, -, hstart⟩ | ⟨e', x, hdiscovers, hstart⟩
    · rw [hstart] at hy
      cases hy
    · rw [hstart] at hy
      obtain ⟨rfl, -⟩ := Opening.failed.inj hy
      exact ⟨x, hdiscovers⟩
  · rintro ⟨x, hdiscovers⟩
    rw [start, hdiscovers.objects_eq]
    exact ⟨_, rfl⟩

/-- A client that is opened after a single transmission and has objects was not told how many. -/
theorem start_assumed_iff :
    (∃ k, start c link = .opened k ∧ k.objects.entries = [⟨0, 0⟩, ⟨1, 8⟩] ∧
      k.exchange.chronicle.transmissions.length = 1) ↔
    ∃ e y, CountFails c link e y ∧ (e.kind = .remote ∨ e.kind = .connectionReset) := by
  constructor
  · rintro ⟨k, hk, hentries, hlength⟩
    rcases start_cases c link with ⟨d, x, hdiscovers, hstart⟩ | ⟨e, x, -, hstart⟩
    · obtain rfl := Opening.opened.inj (hstart.symm.trans hk)
      cases hdiscovers with
      | @assumed e y hread hr => exact ⟨e, y, countFails_iff.mpr hread, Fault.isRemote_iff.mp hr⟩
      | @listed h l rest types y z hread hend =>
          obtain ⟨r, hcomes, rfl, -⟩ := hend.of_ok
          have hcount := congrArg List.length (transmissions_readCount hread)
          have hall := hcomes.length_transmissions
          have hlist := hcomes.sound.length
          have hsize := congrArg List.length hentries
          rw [ObjectList.length_entries] at hsize
          rw [Exchange.transmissions_note _ rfl, Exchange.transmissions_note _ rfl] at hlength
          simp only [ObjectList.size, List.length_cons, List.length_nil] at hcount hsize
          omega
    · rw [hstart] at hk
      cases hk
  · rintro ⟨e, y, hfails, hkind⟩
    have hread := countFails_iff.mp hfails
    have hdiscovers : Discovers c (.start link) (.ok .assumed) (y.note (.listUnavailable e)) :=
      .assumed hread (Fault.isRemote_iff.mpr hkind)
    rw [start, hdiscovers.objects_eq]
    refine ⟨_, rfl, rfl, ?_⟩
    rw [Exchange.transmissions_note _ rfl, Exchange.transmissions_note _ rfl, transmissions_readCount hread]
    rfl

variable {c link}

/-- Whoever closed a client that is given up has closed it once. -/
theorem accounted_of_failed {e : Fault} {y : Exchange σ} (h : start c link = .failed e y) :
    y.isOpen = false ∧ (y.chronicle.closings = [.link] ∧ y.chronicle.releases = 0 ∨
      ∃ cause, cause ≠ .link ∧ y.chronicle.closings = [cause] ∧ y.chronicle.releases = 1) := by
  have hclosed : y.isOpen = false := by
    obtain ⟨x, hdiscovers⟩ := (start_failed_iff c link e).mp ⟨y, h⟩
    obtain ⟨y', hstart, hopen, hshut⟩ := start_of_failed c hdiscovers.objects_eq
    obtain ⟨-, rfl⟩ := Opening.failed.inj (h.symm.trans hstart)
    cases ho : x.isOpen with
    | true => exact (hopen ho).after
    | false => exact (hshut ho).2
  have haccounted := (Exchange.accounted_start link).course (course_start c link)
  rw [h] at haccounted
  refine ⟨hclosed, ?_⟩
  cases haccounted with
  | opened ho _ _ =>
      have hopen : y.isOpen = true := ho
      rw [hclosed] at hopen
      cases hopen
  | closed _ cause hc hr =>
      cases cause with
      | link => exact .inl ⟨hc, hr⟩
      | caller => exact .inr ⟨.caller, nofun, hc, hr⟩
      | reset => exact .inr ⟨.reset, nofun, hc, hr⟩
      | discovery => exact .inr ⟨.discovery, nofun, hc, hr⟩

variable (c link)

/-- A client is opened with the objects that every device has, after a single transmission, if and only if the
number of the objects is not told because of the remote side. Otherwise an opening fails exactly with what its
discovery fails with, be that a fault of the remote side or an answer that is too short: the client has closed once,
and the link was closed once, unless it was the link that told of its closing first. A search that meets a reset
closes the client itself; what is still open is closed for the failed discovery. A link that fails to close makes no
difference. -/
theorem opening_outcome :
    ((∃ k, start c link = .opened k ∧ k.objects.entries = [⟨0, 0⟩, ⟨1, 8⟩] ∧
        k.exchange.chronicle.transmissions.length = 1) ↔
      ∃ e y, CountFails c link e y ∧ (e.kind = .remote ∨ e.kind = .connectionReset)) ∧
    (∀ e, (∃ y, start c link = .failed e y) ↔
      (∃ x, CountFails c link e x ∧ e.kind ≠ .remote ∧ e.kind ≠ .connectionReset) ∨
      (∃ answer x, readPiece c (.start link) ⟨0, 1⟩ = (.ok answer, x) ∧ answer.length < 2 ∧
        e = .objectListTooShort 1 answer.length) ∨
      ∃ h l rest x r y z, readPiece c (.start link) ⟨0, 1⟩ = (.ok (h :: l :: rest), x) ∧
        Comes c (Octets.word h l).toNat x r y ∧ r.types.length < (Octets.word h l).toNat ∧
        (readPiece c y (r.piece (Octets.word h l).toNat) = (.error e, z) ∨
          ∃ answer, readPiece c y (r.piece (Octets.word h l).toNat) = (.ok answer, z) ∧
            answer.length < 2 * r.wanted (Octets.word h l).toNat ∧
            e = .objectListTooShort (r.wanted (Octets.word h l).toNat) answer.length)) ∧
    (∀ e y, start c link = .failed e y →
      y.isOpen = false ∧ (y.chronicle.closings = [.link] ∧ y.chronicle.releases = 0 ∨
        ∃ cause, cause ≠ .link ∧ y.chronicle.closings = [cause] ∧ y.chronicle.releases = 1) ∧
      ∃ x, Discovers c (.start link) (.error e) x ∧ (x.isOpen = true → ClosesFor .discovery x y) ∧
        (x.isOpen = false → Stays x y)) ∧
    start c.forgiving link = (start c link).forgiven := by
  refine ⟨start_assumed_iff c link, fun e => ?_, fun e y h => ?_, start_forgiven c link⟩
  · rw [start_failed_iff]
    constructor
    · rintro ⟨x, hdiscovers⟩
      cases hdiscovers with
      | failed hread hr =>
          have hkind := Fault.isRemote_iff.not.mp (Bool.eq_false_iff.mp hr)
          exact .inl ⟨x, countFails_iff.mpr hread, not_or.mp hkind⟩
      | short hread hshort => exact .inr (.inl ⟨_, x, hread, hshort, rfl⟩)
      | unlisted hread hend =>
          cases hend with
          | failed h hlt hread' => exact .inr (.inr ⟨_, _, _, _, _, _, x, hread, h, hlt, .inl hread'⟩)
          | short h hlt hread' hshort =>
              exact .inr (.inr ⟨_, _, _, _, _, _, x, hread, h, hlt, .inr ⟨_, hread', hshort, rfl⟩⟩)
    · rintro (⟨x, hfails, hremote, hreset⟩ | ⟨answer, x, hread, hshort, rfl⟩ |
        ⟨h, l, rest, x, r, y, z, hread, hcomes, hlt, hread' | ⟨answer, hread', hshort, rfl⟩⟩)
      · have hkind := Fault.isRemote_iff.not.mpr (not_or.mpr ⟨hremote, hreset⟩)
        exact ⟨x, .failed (countFails_iff.mp hfails) (Bool.eq_false_iff.mpr hkind)⟩
      · exact ⟨x, .short hread hshort⟩
      · exact ⟨z, .unlisted hread (.failed hcomes hlt hread')⟩
      · exact ⟨z, .unlisted hread (.short hcomes hlt hread' hshort)⟩
  · obtain ⟨hclosed, hreleases⟩ := accounted_of_failed h
    obtain ⟨x, hdiscovers⟩ := (start_failed_iff c link e).mp ⟨y, h⟩
    obtain ⟨y', hstart, hopen, hshut⟩ := start_of_failed c hdiscovers.objects_eq
    obtain ⟨-, rfl⟩ := Opening.failed.inj (h.symm.trans hstart)
    exact ⟨hclosed, hreleases, x, hdiscovers, hopen, fun ho => (hshut ho).1⟩

/-- A device without an object list, and one that tells its length with a single octet. -/
theorem opening_outcome_ofStore :
    (∃ k, start (Scripted.connection .plain) (.ofStore ⟨none, none, []⟩) = .opened k ∧
      k.objects.entries = [⟨0, 0⟩, ⟨1, 8⟩] ∧ k.exchange.chronicle.transmissions.length = 1) ∧
    ∃ y, start (Scripted.connection .plain) (.ofStore ⟨some [0, 8], some [2], []⟩) =
        .failed (.objectListTooShort 1 1) y ∧ y.isOpen = false ∧ y.chronicle.closings = [.discovery] ∧
      y.chronicle.releases = 1 := by
  obtain ⟨hassumed, -⟩ := opening_outcome (Scripted.connection .plain) (.ofStore ⟨none, none, []⟩)
  obtain ⟨-, hfails, hreleased, -⟩ :=
    opening_outcome (Scripted.connection .plain) (.ofStore ⟨some [0, 8], some [2], []⟩)
  have hcount : ∃ e y, CountFails (Scripted.connection .plain) (.ofStore ⟨none, none, []⟩) e y ∧
      (e.kind = .remote ∨ e.kind = .connectionReset) :=
    ⟨.refused Refusal.voidPoint, _, .searching rfl rfl, .inl rfl⟩
  obtain ⟨y, hy⟩ := (hfails (.objectListTooShort 1 1)).mpr (.inr (.inl ⟨[2], _, rfl, by decide, rfl⟩))
  have hclosings : y.chronicle.closings = [.discovery] := by
    cases hy
    rfl
  obtain ⟨hclosed, ⟨hlink, -⟩ | ⟨cause, -, -, hone⟩, -⟩ := hreleased _ y hy
  · rw [hclosings] at hlink
    cases hlink
  · exact ⟨hassumed.mpr hcount, y, hy, hclosed, hclosings, hone⟩

end Client

end BusManagement
