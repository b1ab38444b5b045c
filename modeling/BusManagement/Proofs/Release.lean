import BusManagement.Proofs.FailedRelease
import BusManagement.Proofs.Silence

/-! The release of the link. A client closes at most once and for good, whoever closes it and however often:
the caller, a search that meets a reset indication, a discovery that fails, or the link itself. All of them but
the link have the link closed in their turn, and nothing else does; so one step of an exchange either closes it
and has the link closed as the cause asks for, or leaves both as they are. -/

namespace BusManagement

variable {σ : Type}

/-- How often the link has to be closed for a closing of the client. -/
def ClosingCause.releases : ClosingCause → Nat
  | link => 0
  | caller | reset | discovery => 1

namespace Chronicle

/-- Why the client went from open to closed, for each time that it did. -/
def closings (h : Chronicle) : List ClosingCause :=
  h.filterMap fun
    | .closing cause => some cause
    | _ => none

@[simp] theorem closings_append (h hs : Chronicle) : closings (h ++ hs) = h.closings ++ hs.closings :=
  List.filterMap_append

@[simp] theorem releases_append (h hs : Chronicle) : releases (h ++ hs) = h.releases + hs.releases :=
  List.count_append

@[simp] theorem closings_discarded (passed : List Frame) : closings (passed.map .discarded) = [] := by
  induction passed with
  | nil => rfl
  | cons _ _ ih => exact ih

@[simp] theorem releases_discarded (passed : List Frame) : releases (passed.map .discarded) = 0 := by
  rw [releases, List.count_eq_zero]
  simp

end Chronicle

namespace Exchange

/-- From the first exchange to the second the client closes for the cause, and the link is closed if the cause
asks for it. -/
structure ClosesFor (cause : ClosingCause) (x y : Exchange σ) : Prop where
  before : x.isOpen = true
  after : y.isOpen = false
  closings : y.chronicle.closings = x.chronicle.closings ++ [cause]
  releases : y.chronicle.releases = x.chronicle.releases + cause.releases

/-- From the first exchange to the second nobody closes the client and nothing is done about the link. -/
structure Stays (x y : Exchange σ) : Prop where
  isOpen : y.isOpen = x.isOpen
  closings : y.chronicle.closings = x.chronicle.closings
  releases : y.chronicle.releases = x.chronicle.releases

/-- The client has closed once or not at all, and the link was closed as often as the cause asked for. -/
inductive Accounted (x : Exchange σ) : Prop
  | opened (ho : x.isOpen = true) (hc : x.chronicle.closings = []) (hr : x.chronicle.releases = 0)
  | closed (ho : x.isOpen = false) (cause : ClosingCause) (hc : x.chronicle.closings = [cause])
      (hr : x.chronicle.releases = cause.releases)

theorem accounted_start (link : σ) : Accounted (start link) := .opened rfl rfl rfl

theorem Stays.refl (x : Exchange σ) : Stays x x := ⟨rfl, rfl, rfl⟩

theorem Stays.trans {x y z : Exchange σ} (h : Stays x y) (h' : Stays y z) : Stays x z :=
  ⟨h'.isOpen.trans h.isOpen, h'.closings.trans h.closings, h'.releases.trans h.releases⟩

theorem Stays.closesFor {x y z : Exchange σ} {cause : ClosingCause} (h : Stays x y)
    (h' : ClosesFor cause y z) : ClosesFor cause x z :=
  ⟨h.isOpen ▸ h'.before, h'.after, h.closings ▸ h'.closings, h.releases ▸ h'.releases⟩

theorem ClosesFor.stays {x y z : Exchange σ} {cause : ClosingCause} (h : ClosesFor cause x y)
    (h' : Stays y z) : ClosesFor cause x z :=
  ⟨h.before, h'.isOpen.trans h.after, h'.closings.trans h.closings, h'.releases.trans h.releases⟩

theorem Accounted.stays {x y : Exchange σ} (hx : Accounted x) (h : Stays x y) : Accounted y := by
  cases hx with
  | opened ho hc hr => exact .opened (h.isOpen.trans ho) (h.closings.trans hc) (h.releases.trans hr)
  | closed ho cause hc hr => exact .closed (h.isOpen.trans ho) cause (h.closings.trans hc) (h.releases.trans hr)

theorem Accounted.closesFor {x y : Exchange σ} {cause : ClosingCause} (hx : Accounted x)
    (h : ClosesFor cause x y) : Accounted y := by
  cases hx with
  | opened ho hc hr =>
      refine .closed h.after cause ?_ ?_
      · rw [h.closings, hc, List.nil_append]
      · rw [h.releases, hr, Nat.zero_add]
  | closed ho _ _ _ =>
      rw [h.before] at ho
      cases ho

/-- Happenings that are neither closings nor releases. -/
theorem Stays.of_chronicle {x y : Exchange σ} (hs : Chronicle) (ho : y.isOpen = x.isOpen)
    (hc : y.chronicle = x.chronicle ++ hs) (hclosings : hs.closings = []) (hreleases : hs.releases = 0) :
    Stays x y := by
  refine ⟨ho, ?_, ?_⟩
  · rw [hc, Chronicle.closings_append, hclosings, List.append_nil]
  · rw [hc, Chronicle.releases_append, hreleases, Nat.add_zero]

theorem ClosesFor.of_chronicle {x y : Exchange σ} {cause : ClosingCause} (hs : Chronicle)
    (hx : x.isOpen = true) (hy : y.isOpen = false) (hc : y.chronicle = x.chronicle ++ hs)
    (hclosings : hs.closings = [cause]) (hreleases : hs.releases = cause.releases) : ClosesFor cause x y := by
  refine ⟨hx, hy, ?_, ?_⟩
  · rw [hc, Chronicle.closings_append, hclosings]
  · rw [hc, Chronicle.releases_append, hreleases]

theorem stays_note (x : Exchange σ) {h : Happening} (hr : h.isRemark = true) : Stays x (x.note h) := by
  refine .of_chronicle [h] rfl rfl ?_ ?_ <;> cases h <;> first | rfl | simp [Happening.isRemark] at hr

theorem stays_searched (x : Exchange σ) (passed left : List Frame) : Stays x (x.searched passed left) :=
  .of_chronicle (passed.map .discarded) rfl rfl (Chronicle.closings_discarded passed) (Chronicle.releases_discarded passed)

theorem closesFor_letGo {x : Exchange σ} (ho : x.isOpen = true) {p : Phase} (hp : p.isOpen = false)
    (hs : Chronicle) {cause : ClosingCause} (hclosings : hs.closings = [cause])
    (hreleases : hs.releases = 0) (hcause : cause.releases = 1) : ClosesFor cause x (x.letGo p hs) := by
  refine .of_chronicle (hs ++ [.cleared x.arrivals.size, .released]) ho hp ?_ ?_ ?_
  · rw [letGo, List.append_assoc]
  · rw [Chronicle.closings_append, hclosings]
    rfl
  · rw [Chronicle.releases_append, hreleases, hcause]
    rfl

variable {c : Connection σ}

theorem closesFor_linkClosed (c : Connection σ) {x : Exchange σ} (ho : x.isOpen = true) (n : ClosingNotice) :
    ClosesFor .link x (x.linkClosed c n) := by
  rw [linkClosed_eq]
  refine .of_chronicle (closingNotes c x n) ho (Phase.isOpen_close x.phase) rfl ?_ ?_ <;>
    cases hh : c.config.hearsClosing <;> simp [closingNotes, ho, hh] <;> rfl

theorem stays_linkClosed (c : Connection σ) {x : Exchange σ} (ho : x.isOpen = false) (n : ClosingNotice) :
    Stays x (x.linkClosed c n) := by
  rw [linkClosed_eq]
  refine .of_chronicle (closingNotes c x n) ((Phase.isOpen_close x.phase).trans ho.symm) rfl ?_ ?_ <;>
    cases hh : c.config.hearsClosing <;> simp [closingNotes, ho, hh] <;> rfl

/-! ### Steps and courses -/

theorem Flight.stays_or_closes {x y : Exchange σ} (hf : Flight c x y) :
    Stays x y ∨ ∃ cause, ClosesFor cause x y := by
  cases hf with
  | settle link => exact .inl ⟨rfl, rfl, rfl⟩
  | remark h hr => exact .inl (stays_note x hr)
  | receive f => exact .inl (.of_chronicle [.received f] rfl rfl rfl rfl)
  | linkClosed n =>
      cases ho : x.isOpen with
      | true => exact .inr ⟨.link, closesFor_linkClosed c ho n⟩
      | false => exact .inl (stays_linkClosed c ho n)
  | close cause ho hcause =>
      have hone : cause.releases = 1 := by rcases hcause with rfl | rfl <;> rfl
      exact .inr ⟨cause, closesFor_letGo ho (Phase.isOpen_close x.phase) [.closing cause] rfl rfl hone⟩

/-- A step closes an open client or does nothing of the kind. -/
theorem Step.stays_or_closes {x y : Exchange σ} (hs : Step c x y) :
    Stays x y ∨ ∃ cause, ClosesFor cause x y := by
  cases hs with
  | flight hf => exact hf.stays_or_closes
  | hand t ho => exact .inl (.of_chronicle [.handed t] rfl rfl rfl rfl)
  | take passed f left hf hp => exact .inl (stays_searched x passed left)
  | exhaust hp => exact .inl (stays_searched x x.arrivals.frames [])
  | reset passed f left ho hf hp hr =>
      have hgo := closesFor_letGo (x := x.searched passed left) ho (Phase.isOpen_reset x.phase)
        [.resetSeen, .closing .reset] rfl rfl rfl
      exact .inr ⟨.reset, (stays_searched x passed left).closesFor hgo⟩
  | resetLate passed f left ho hf hp hr =>
      refine .inl ((stays_searched x passed left).trans ?_)
      exact .of_chronicle [.resetSeen] ((Phase.isOpen_reset x.phase).trans ho.symm) rfl rfl rfl

theorem Accounted.course {x y : Exchange σ} (hx : Accounted x) (hc : Course c x y) : Accounted y := by
  induction hc with
  | refl => exact hx
  | tail _ hstep ih =>
      rcases hstep.stays_or_closes with hstays | ⟨cause, hcloses⟩
      · exact ih.stays hstays
      · exact ih.closesFor hcloses

/-- A client that has closed at all has done so once, so the link was closed as this closing asks for. -/
theorem Accounted.releases_eq {x y : Exchange σ} {cause : ClosingCause} (hy : Accounted y)
    (h : ClosesFor cause x y) : y.chronicle.releases = cause.releases := by
  cases hy with
  | opened ho _ _ =>
      rw [h.after] at ho
      cases ho
  | closed _ other hc hr =>
      have hlast := congrArg List.getLast? (hc.symm.trans h.closings)
      have heq : other = cause := by simpa using hlast
      exact heq ▸ hr

/-- Once the client is closed, nothing closes it again and the link is not closed again. -/
theorem Course.stays {x y : Exchange σ} (hc : Course c x y) (hx : x.isOpen = false) : Stays x y := by
  induction hc with
  | refl => exact .refl x
  | tail _ hstep ih =>
      rcases hstep.stays_or_closes with hstays | ⟨cause, hcloses⟩
      · exact ih.trans hstays
      · have hopen := ih.isOpen.symm.trans hcloses.before
        rw [hx] at hopen
        cases hopen

/-! ### Who closes -/

variable (c)

theorem closesFor_closeFor {x : Exchange σ} (ho : x.isOpen = true) {cause : ClosingCause}
    (hcause : cause.releases = 1) : ClosesFor cause x (x.closeFor c cause) := by
  have hgo := closesFor_letGo ho (Phase.isOpen_close x.phase) [.closing cause] rfl rfl hcause
  have hrelease := inFlight_release c (x.shut cause)
  rw [letGo_shut ho] at hrelease
  rw [closeFor, if_pos ho]
  exact hgo.stays (Course.stays hrelease.course hgo.after)

theorem closesFor_close {x : Exchange σ} (ho : x.isOpen = true) : ClosesFor .caller x (x.close c) := by
  rw [close, if_pos ho]
  exact (closesFor_closeFor c ho rfl).stays (stays_note _ rfl)

theorem closesFor_resetSeen {x : Exchange σ} (ho : x.isOpen = true) : ClosesFor .reset x (resetSeen c x) := by
  have hgo := closesFor_letGo ho (Phase.isOpen_reset x.phase) [.resetSeen, .closing .reset] rfl rfl rfl
  exact hgo.stays (Course.stays (inFlight_resetSeen c ho).course hgo.after)

theorem closesFor_scan {x : Exchange σ} (ho : x.isOpen = true) {awaited : Service}
    (hr : awaited ≠ .resetIndication) (h : (x.scan c awaited).1 = .error .resetByServer) :
    ClosesFor .reset x (x.scan c awaited).2 := by
  obtain ⟨passed, f, left, hf, hp, hreset⟩ := (scan_eq_resetByServer_iff c x hr).mp h
  rw [scan_reset c hf hp hreset]
  exact (stays_searched x passed left).closesFor (closesFor_resetSeen c ho)

end Exchange

namespace Client

open Exchange (Course Accounted Stays ClosesFor)

/-- A client that cannot discover the objects is closed for that reason, unless it was closed before. -/
theorem start_of_failed (c : Connection σ) {link : σ} {e : Fault} {x : Exchange σ}
    (h : Discovery.objects c (.start link) = (.error e, x)) :
    ∃ y, start c link = .failed e y ∧ (x.isOpen = true → ClosesFor .discovery x y) ∧
      (x.isOpen = false → Stays x y ∧ y.isOpen = false) := by
  refine ⟨(x.note (.discoveryFailed e)).closeFor c .discovery, by rw [start, h], fun ho => ?_, fun ho => ?_⟩
  · have hopen : (x.note (.discoveryFailed e)).isOpen = true := ho
    exact (Exchange.stays_note x rfl).closesFor (Exchange.closesFor_closeFor c hopen rfl)
  · have hclosed : ¬(x.note (.discoveryFailed e)).isOpen = true := by simp [ho]
    rw [Exchange.closeFor, if_neg hclosed]
    exact ⟨Exchange.stays_note x rfl, ho⟩

/-- At any moment of a life the client has closed at most once and the link was closed if and only if another
than the link closed the client; a closed client stays closed. Who closes an open client is what the closing
says. That the link fails to close changes no reply and nothing that remains. -/
theorem released_at_most_once (c : Connection σ) (link : σ) :
    (∀ x, Course c (.start link) x → Accounted x ∧ ∀ y, Course c x y → x.isOpen = false → Stays x y) ∧
    (∀ calls, Course c (.start link) (life c link calls)) ∧
    (∀ x : Exchange σ, x.isOpen = true →
      ClosesFor .caller x (x.close c) ∧ (∀ n, ClosesFor .link x (x.linkClosed c n)) ∧
      ∀ awaited, awaited ≠ .resetIndication → (x.scan c awaited).1 = .error .resetByServer →
        ClosesFor .reset x (x.scan c awaited).2) ∧
    (∀ e x, Discovery.objects c (.start link) = (.error e, x) →
      ∃ y, start c link = .failed e y ∧ (x.isOpen = true → ClosesFor .discovery x y) ∧
        (x.isOpen = false → Stays x y ∧ y.isOpen = false)) ∧
    start c.forgiving link = (start c link).forgiven ∧
    ∀ (k : Client σ) (calls : List Call),
      k.forgiven.run c.forgiving calls = ((k.run c calls).1, (k.run c calls).2.forgiven) := by
  refine ⟨fun x hx => ⟨?_, fun y hy ho => hy.stays ho⟩, course_life c link, fun x ho => ⟨?_, ?_, ?_⟩, ?_, ?_, ?_⟩
  · exact (Exchange.accounted_start link).course hx
  · exact Exchange.closesFor_close c ho
  · exact fun n => Exchange.closesFor_linkClosed c ho n
  · exact fun awaited hr h => Exchange.closesFor_scan c ho hr h
  · exact fun e x h => start_of_failed c h
  · exact start_forgiven c link
  · exact run_forgiven c

end Client

end BusManagement
