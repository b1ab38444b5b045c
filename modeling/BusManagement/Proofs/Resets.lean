import BusManagement.Proofs.Course.Additions
import BusManagement.Proofs.Outcomes
import BusManagement.Proofs.Passage
import BusManagement.Proofs.Silence

/-! Reset indications. As long as a client is open, all the reset indications that it has received wait among
its arrivals: a search throws only other frames away, and whatever empties the arrivals closes the client
first. A search that meets one takes it, closes the client and says so, and every operation but the count of the
objects passes that on; so a client that has seen a reset is closed, and the call in which it saw it
has said why. -/

namespace BusManagement

variable {σ : Type}

/-- The reset indications among frames. -/
def resetsAmong (fs : List Frame) : List Frame := fs.filter fun f => f.service = .resetIndication

@[simp] theorem resetsAmong_append (fs gs : List Frame) :
    resetsAmong (fs ++ gs) = resetsAmong fs ++ resetsAmong gs := List.filter_append _ _

theorem resetsAmong_eq_nil {fs : List Frame} (h : ∀ f ∈ fs, f.service ≠ .resetIndication) :
    resetsAmong fs = [] := by
  rw [resetsAmong, List.filter_eq_nil_iff]
  intro f hf
  simpa using h f hf

namespace Chronicle

/-- How many reset indications were met by a search. -/
def resetsSeen (h : Chronicle) : Nat := h.count .resetSeen

@[simp] theorem resetsSeen_append (h hs : Chronicle) : resetsSeen (h ++ hs) = h.resetsSeen + hs.resetsSeen :=
  List.count_append

theorem resetsSeen_eq_zero_iff {h : Chronicle} : h.resetsSeen = 0 ↔ .resetSeen ∉ h := List.count_eq_zero

theorem resetsSeen_pos_iff {h : Chronicle} : 0 < h.resetsSeen ↔ .resetSeen ∈ h := List.count_pos_iff

theorem resetsSeen_of_inFlight {hs : Chronicle} (hf : ∀ h ∈ hs, h.inFlight = true) : hs.resetsSeen = 0 := by
  rw [resetsSeen_eq_zero_iff]
  intro h
  exact Bool.noConfusion (hf .resetSeen h)

@[simp] theorem resetsSeen_discarded (passed : List Frame) : resetsSeen (passed.map .discarded) = 0 := by
  rw [resetsSeen_eq_zero_iff]
  simp

theorem sawReset_foldl (hs : Chronicle) (p : Phase) :
    (hs.foldl Phase.after p).sawReset = true ↔ p.sawReset = true ∨ .resetSeen ∈ hs := by
  induction hs generalizing p with
  | nil => simp
  | cons h hs ih =>
      rw [List.foldl_cons, ih, List.mem_cons]
      cases h <;> simp [Phase.after]

/-- The phase remembers whether a search has met a reset indication. -/
theorem sawReset_phase (h : Chronicle) : h.phase.sawReset = true ↔ .resetSeen ∈ h := by
  rw [phase, sawReset_foldl]
  simp [Phase.sawReset]

end Chronicle

namespace Exchange

variable {c : Connection σ}

theorem Adds.resetsSeen_eq {x y : Exchange σ} (h : Adds x y) :
    y.chronicle.resetsSeen = x.chronicle.resetsSeen := by
  obtain ⟨hs, hc, hf⟩ := h
  rw [hc, Chronicle.resetsSeen_append, Chronicle.resetsSeen_of_inFlight hf, Nat.add_zero]

/-! ### What waits -/

/-- While the client is open, all reset indications that were received are waiting. -/
def KeepsResets (x : Exchange σ) : Prop :=
  x.isOpen = true → resetsAmong x.arrivals.frames = resetsAmong x.chronicle.received

theorem KeepsResets.searched {x : Exchange σ} (h : KeepsResets x) {passed left : List Frame}
    (hl : resetsAmong left = resetsAmong x.arrivals.frames) : KeepsResets (x.searched passed left) := by
  intro ho
  have hreceived : (x.searched passed left).chronicle.received = x.chronicle.received := by
    simp [Exchange.searched]
  rw [hreceived]
  exact hl.trans (h ho)

theorem KeepsResets.step {x y : Exchange σ} (h : KeepsResets x) (hs : Step c x y) : KeepsResets y := by
  cases hs with
  | flight hf =>
      intro ho
      obtain ⟨hx, fs, harrivals, hreceived⟩ := hf.gains ho
      rw [harrivals, hreceived, resetsAmong_append, resetsAmong_append, h hx]
  | hand t ho =>
      intro ho
      have hreceived : (x.note (.handed t)).chronicle.received = x.chronicle.received := by
        simp [Chronicle.received]
      rw [hreceived]
      exact h ho
  | take passed f left hf hp =>
      apply h.searched
      rw [hf, List.append_cons, resetsAmong_append, resetsAmong_eq_nil hp, List.nil_append]
  | exhaust hp =>
      apply h.searched
      rw [resetsAmong_eq_nil hp]
      rfl
  | reset passed f left ho hf hp hr =>
      intro hopen
      exact absurd hopen (by simp [letGo, isOpen])
  | resetLate passed f left ho hf hp hr =>
      intro hopen
      exact absurd hopen (by simp [isOpen])

theorem KeepsResets.course {x y : Exchange σ} (h : KeepsResets x) (hc : Course c x y) : KeepsResets y := by
  induction hc with
  | refl => exact h
  | tail _ hstep ih => exact ih.step hstep

/-- A client comes to have seen a reset only in a step that takes a reset indication out of its arrivals. -/
theorem Step.takes_reset {x y : Exchange σ} (hs : Step c x y) (hx : x.phase.sawReset = false)
    (hy : y.phase.sawReset = true) : ∃ passed f left, x.arrivals.frames = passed ++ f :: left ∧
      (∀ g ∈ passed, g.service ≠ .resetIndication) ∧ f.service = .resetIndication := by
  have hsame : y.phase.sawReset ≠ x.phase.sawReset := by
    rw [hx, hy]
    exact Bool.noConfusion
  cases hs with
  | flight hf => exact absurd hf.sawReset_eq hsame
  | hand t ho => exact absurd rfl hsame
  | take passed f left hf hp => exact absurd rfl hsame
  | exhaust hp => exact absurd rfl hsame
  | reset passed f left ho hf hp hr => exact ⟨passed, f, left, hf, hp, hr⟩
  | resetLate passed f left ho hf hp hr => exact ⟨passed, f, left, hf, hp, hr⟩

/-! ### Searches -/

/-- What is in flight does not change how a closed client is closed. -/
theorem InFlight.phase_eq {x y : Exchange σ} (hf : InFlight c x y) (hx : x.isOpen = false) :
    y.phase = x.phase := by
  induction hf with
  | refl => rfl
  | @tail y z _ hstep ih =>
      have hclosed : y.isOpen = false := by rw [isOpen, ih]; exact hx
      rw [← ih]
      cases hstep with
      | settle link => rfl
      | remark h hr => rfl
      | receive f => rfl
      | linkClosed n =>
          rw [linkClosed_eq]
          cases hp : y.phase with
          | opened => rw [isOpen, hp] at hclosed; cases hclosed
          | closed byReset => rfl
      | close cause ho _ =>
          rw [ho] at hclosed
          cases hclosed

theorem phase_resetSeen (c : Connection σ) (x : Exchange σ) : (resetSeen c x).phase = .closed true := by
  cases ho : x.isOpen with
  | true => exact (inFlight_resetSeen c ho).phase_eq rfl
  | false =>
      rw [resetSeen, if_neg (Bool.eq_false_iff.mp ho)]
      rfl

theorem resetsSeen_resetSeen (c : Connection σ) (x : Exchange σ) :
    (resetSeen c x).chronicle.resetsSeen = x.chronicle.resetsSeen + 1 := by
  cases ho : x.isOpen with
  | true =>
      rw [(inFlight_resetSeen c ho).adds.resetsSeen_eq, letGo, Chronicle.resetsSeen_append,
        Chronicle.resetsSeen_append]
      rfl
  | false =>
      rw [resetSeen, if_neg (Bool.eq_false_iff.mp ho)]
      exact Chronicle.resetsSeen_append _ _

/-- A search that meets a reset indication leaves the client closed by the reset. -/
theorem scan_of_reset {x : Exchange σ} {awaited : Service} (hr : awaited ≠ .resetIndication)
    (h : (x.scan c awaited).1 = .error .resetByServer) :
    (x.scan c awaited).2.phase = .closed true ∧
      (x.scan c awaited).2.chronicle.resetsSeen = x.chronicle.resetsSeen + 1 := by
  obtain ⟨passed, f, left, hf, hp, hreset⟩ := (scan_eq_resetByServer_iff c x hr).mp h
  rw [scan_reset c hf hp hreset, phase_resetSeen, resetsSeen_resetSeen]
  simp [searched]

/-- Any other search leaves the phase and the reset indications as they were. -/
theorem scan_of_no_reset {x : Exchange σ} {awaited : Service} (hr : awaited ≠ .resetIndication)
    (h : (x.scan c awaited).1 ≠ .error .resetByServer) :
    (x.scan c awaited).2.phase = x.phase ∧
      resetsAmong (x.scan c awaited).2.arrivals.frames = resetsAmong x.arrivals.frames ∧
      (x.scan c awaited).2.chronicle.resetsSeen = x.chronicle.resetsSeen := by
  rcases divide awaited x.arrivals.frames with hall | ⟨passed, f, left, hf, hp, hreset | ha⟩
  · have hnone := resetsAmong_eq_nil fun g hg => (hall g hg).1
    rw [scan_exhausted c hall, hnone]
    exact ⟨rfl, rfl, by simp [searched]⟩
  · rw [scan_reset c hf hp hreset] at h
    exact absurd rfl h
  · have hfront : resetsAmong (passed ++ [f]) = [] := by
      apply resetsAmong_eq_nil
      intro g hg
      rcases List.mem_append.mp hg with hg | hg
      · exact (hp g hg).1
      · rw [List.mem_singleton.mp hg, ha]
        exact hr
    rw [scan_found c hf hp ha hr, hf, List.append_cons passed f left, resetsAmong_append, hfront]
    exact ⟨rfl, rfl, by simp [searched]⟩

/-! ### Operations -/

/-- If a search has met a reset indication, it was the last thing done, and the fault says so. -/
def TellsReset (x : Exchange σ) (f : Option Fault) (y : Exchange σ) : Prop :=
  y.chronicle.resetsSeen = x.chronicle.resetsSeen ∨
    y.chronicle.resetsSeen = x.chronicle.resetsSeen + 1 ∧ f = some .resetByServer ∧ y.phase = .closed true

theorem TellsReset.same {x y : Exchange σ} {f : Option Fault} (h : TellsReset x f y)
    (hf : f ≠ some .resetByServer) : y.chronicle.resetsSeen = x.chronicle.resetsSeen := by
  rcases h with h | ⟨-, htold, -⟩
  · exact h
  · exact absurd htold hf

theorem TellsReset.trans {x y z : Exchange σ} {f g : Option Fault} (h : TellsReset x f y)
    (hf : f ≠ some .resetByServer) (h' : TellsReset y g z) : TellsReset x g z := by
  rw [TellsReset, ← h.same hf]
  exact h'

theorem explains_tellsReset : Explains (σ := σ) TellsReset where
  idle _ _ := .inl rfl
  afterOk h h' := h.trans (by simp) h'
  afterRefusal := by
    intro x y z e f he h h'
    refine h.trans ?_ h'
    intro htold
    rw [Option.some.inj htold] at he
    cases he
  finding := by
    intro x y f h hh hxy
    have hnone : Chronicle.resetsSeen [h] = 0 := by cases h <;> first | rfl | cases hh
    have hsame : (y.note h).chronicle.resetsSeen = y.chronicle.resetsSeen := by
      rw [chronicle_note, Chronicle.resetsSeen_append, hnone, Nat.add_zero]
    rw [TellsReset, hsame]
    exact hxy

theorem resetsSeen_send (c : Connection σ) (x : Exchange σ) (f : Frame) (confirmed : Bool) :
    (x.send c f confirmed).2.chronicle.resetsSeen = x.chronicle.resetsSeen := by
  cases ht : c.attachment.transmission f confirmed with
  | error e => rw [send_of_error c ht]
  | ok t =>
      have hflight := inFlight_follow c (inFlight_close c) (c.link.send x.link t.octets t.waiting)
        (x.note (.handed t))
      rw [send_of_transmission c ht, hflight.adds.resetsSeen_eq, chronicle_note, Chronicle.resetsSeen_append]
      rfl

theorem request_tellsReset (c : Connection σ) : ExplainsRequests c TellsReset := by
  intro x f awaited hs
  have hr := Service.ne_resetIndication_of_confirmation? hs
  rw [request]
  split_ifs with ho
  · have hsend : ((x.note (.sending f)).send c f true).2.chronicle.resetsSeen = x.chronicle.resetsSeen := by
      rw [resetsSeen_send, chronicle_note, Chronicle.resetsSeen_append]
      rfl
    generalize (x.note (.sending f)).send c f true = o at hsend ⊢
    obtain ⟨r, y⟩ := o
    cases r with
    | error e => exact .inl hsend
    | ok _ =>
        dsimp only at hsend ⊢
        rw [TellsReset, ← hsend]
        by_cases hreset : (y.scan c awaited).1 = .error .resetByServer
        · obtain ⟨hphase, hseen⟩ := scan_of_reset hr hreset
          exact .inr ⟨hseen, by rw [hreset]; rfl, hphase⟩
        · exact .inl (scan_of_no_reset hr hreset).2.2
  · exact explains_tellsReset.idle x _

end Exchange

namespace Client

open Exchange (Course Step TellsReset explains_tellsReset request_tellsReset)

variable (c : Connection σ)

/-- A call in which a search meets a reset indication gives that as its fault. -/
theorem perform_tellsReset (k : Client σ) (call : Call) :
    TellsReset k.exchange (faultOf (k.perform c call).1) (k.perform c call).2.exchange := by
  cases call with
  | get object pid first elements =>
      have h := explained_get explains_tellsReset (request_tellsReset c) k object pid first elements
      simpa [perform, Explained] using h
  | set object pid first elements data =>
      have h := explained_set explains_tellsReset (request_tellsReset c) k object pid first elements data
      simpa [perform, Explained] using h
  | describe object pid index =>
      have h := explained_describe explains_tellsReset (request_tellsReset c) k object pid index
      simpa [perform, Explained] using h
  | reset =>
      left
      change (k.exchange.resetDevice c).2.chronicle.resetsSeen = _
      rw [Exchange.resetDevice]
      split_ifs
      · exact Exchange.resetsSeen_send c k.exchange _ _
      · rfl
  | close => exact .inl (Exchange.inFlight_close c k.exchange).adds.resetsSeen_eq
  | receive octets => exact .inl (Exchange.inFlight_receive c k.exchange octets).adds.resetsSeen_eq
  | linkClosed n => exact .inl (Exchange.Flight.linkClosed k.exchange n).adds.resetsSeen_eq

/-- An opening in which a search meets a reset indication fails with that fault, unless the search was for the
number of the objects; then the client has the objects that every device has. -/
theorem start_tellsReset (link : σ) :
    (∀ k, start c link = .opened k → .resetSeen ∈ k.exchange.chronicle →
      k.objects = .assumed ∧ (Discovery.readPiece c (.start link) ⟨0, 1⟩).1 = .error .resetByServer) ∧
    ∀ e x, start c link = .failed e x → .resetSeen ∈ x.chronicle → e = .resetByServer := by
  have hnew : ∀ {f : Option Fault} {x : Exchange σ}, TellsReset (.start link) f x →
      .resetSeen ∈ x.chronicle → f = some .resetByServer := by
    rintro f x (h | ⟨-, hf, -⟩) hx
    · exact absurd (Chronicle.resetsSeen_pos_iff.mpr hx) (h ▸ Nat.lt_irrefl 0)
    · exact hf
  have hobjects := Discovery.explains_objects explains_tellsReset (request_tellsReset c) (.start link)
  have hcount := Discovery.explains_readPiece (request_tellsReset c) (.start link) ⟨0, 1⟩
  rw [start]
  rcases hobjects with ⟨e, y, hread, -, heq⟩ | hobjects
  · rw [hread] at hcount
    rw [heq]
    constructor
    · intro k hk hmem
      cases hk
      have hseen : .resetSeen ∈ y.chronicle := by simpa using hmem
      exact ⟨rfl, by rw [hread, Option.some.inj (hnew hcount hseen)]⟩
    · intro e' x hx
      cases hx
  · generalize Discovery.objects c (.start link) = o at hobjects ⊢
    obtain ⟨r, x⟩ := o
    cases r with
    | ok objects =>
        constructor
        · intro k hk hmem
          cases hk
          have hseen : .resetSeen ∈ x.chronicle := by simpa using hmem
          cases hnew hobjects hseen
        · intro e' y hy
          cases hy
    | error e =>
        constructor
        · intro k hk
          cases hk
        · intro e' y hy hmem
          cases hy
          have hclose : ((x.note (.discoveryFailed e)).closeFor c .discovery).chronicle.resetsSeen
              = (x.note (.discoveryFailed e)).chronicle.resetsSeen :=
            (Exchange.inFlight_closeFor c _ (.inr rfl)).adds.resetsSeen_eq
          rw [← Chronicle.resetsSeen_pos_iff, hclose, Chronicle.resetsSeen_pos_iff] at hmem
          have hseen : .resetSeen ∈ x.chronicle := by simpa using hmem
          exact Option.some.inj (hnew hobjects hseen)

/-- At every moment of a life at which the client is open, all the reset indications that it has received are
waiting. A search that meets one closes the client for good and says so; any other search leaves them alone. Every
call passes that fault on, and only the count of the objects takes it for an answer. -/
theorem resets_kept_while_open (link : σ) :
    (∀ x, Course c (.start link) x →
      (x.isOpen = true → resetsAmong x.arrivals.frames = resetsAmong x.chronicle.received) ∧
      (x.phase.sawReset = true ↔ .resetSeen ∈ x.chronicle) ∧ (x.phase.sawReset = true → x.isOpen = false) ∧
      ∀ y, Step c x y → x.phase.sawReset = false → y.phase.sawReset = true →
        ∃ passed f left, x.arrivals.frames = passed ++ f :: left ∧
          (∀ g ∈ passed, g.service ≠ .resetIndication) ∧ f.service = .resetIndication) ∧
    (∀ calls, Course c (.start link) (life c link calls)) ∧
    (∀ (x : Exchange σ) awaited, awaited ≠ .resetIndication →
      ((x.scan c awaited).1 = .error .resetByServer ↔
        ∃ passed f left, x.arrivals.frames = passed ++ f :: left ∧
          (∀ g ∈ passed, g.service ≠ .resetIndication ∧ g.service ≠ awaited) ∧ f.service = .resetIndication) ∧
      ((x.scan c awaited).1 = .error .resetByServer →
        (x.scan c awaited).2.phase = .closed true ∧
          (x.scan c awaited).2.chronicle.resetsSeen = x.chronicle.resetsSeen + 1) ∧
      ((x.scan c awaited).1 ≠ .error .resetByServer →
        (x.scan c awaited).2.phase = x.phase ∧
          resetsAmong (x.scan c awaited).2.arrivals.frames = resetsAmong x.arrivals.frames ∧
          (x.scan c awaited).2.chronicle.resetsSeen = x.chronicle.resetsSeen)) ∧
    (∀ (k : Client σ) call,
      TellsReset k.exchange (faultOf (k.perform c call).1) (k.perform c call).2.exchange) ∧
    ((∀ k, start c link = .opened k → .resetSeen ∈ k.exchange.chronicle →
      k.objects = .assumed ∧ (Discovery.readPiece c (.start link) ⟨0, 1⟩).1 = .error .resetByServer) ∧
      ∀ e x, start c link = .failed e x → .resetSeen ∈ x.chronicle → e = .resetByServer) ∧
    Fault.resetByServer.kind = .connectionReset ∧ Fault.resetByServer.detail = "reset by server" := by
  refine ⟨fun x hx => ⟨?_, ?_, Phase.isOpen_eq_false_of_sawReset, fun y hy => hy.takes_reset⟩, course_life c link,
    ?_, perform_tellsReset c, start_tellsReset c link, rfl, rfl⟩
  · have hstart : Exchange.KeepsResets (.start link) := fun _ => rfl
    exact hstart.course hx
  · rw [((Exchange.told_start link).course hx).phase]
    exact Chronicle.sawReset_phase _
  · intro x awaited hr
    exact ⟨Exchange.scan_eq_resetByServer_iff c x hr, Exchange.scan_of_reset hr, Exchange.scan_of_no_reset hr⟩

end Client

end BusManagement
