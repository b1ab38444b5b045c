import BusManagement.Proofs.Course.Client

/-! Links that answer every request with one confirmation, which may stand among other frames that no
search is interested in. Over such a link a request succeeds or is refused by its own confirmation, and it
leaves the client as it was: open, with nothing among its arrivals that a later search could mistake for
an answer. That is the invariant on which all statements about well-behaved devices rest. -/

namespace BusManagement

variable {σ : Type}

/-- What is said of the value of a computation can be decided if it can be decided of every value. -/
instance decidableForallOk {ε α : Type} (r : Except ε α) (p : α → Prop) [DecidablePred p] :
    Decidable (∀ a, r = .ok a → p a) :=
  match r with
  | .error _ => isTrue fun _ h => nomatch h
  | .ok a => decidable_of_iff (p a) ⟨fun ha _ h => Except.ok.inj h ▸ ha, fun h => h a rfl⟩

/-- No search cares for the frame: it is neither a confirmation nor a reset indication. -/
def Frame.IsNoise (f : Frame) : Prop := f.service.isConfirmation = false ∧ f.service ≠ .resetIndication

instance (f : Frame) : Decidable f.IsNoise := inferInstanceAs (Decidable (_ ∧ _))

/-- If the octets hold a frame at all, it is one that no search cares for. -/
def Octets.IsNoise (octets : Octets) : Prop := ∀ f, Frame.decode octets = .ok f → f.IsNoise

instance (octets : Octets) : Decidable octets.IsNoise :=
  inferInstanceAs (Decidable (∀ f, Frame.decode octets = .ok f → f.IsNoise))

theorem Frame.IsNoise.passes {f : Frame} (h : f.IsNoise) {awaited : Service}
    (ha : awaited.isConfirmation = true) : Exchange.Passes awaited f := by
  refine ⟨h.2, fun heq => ?_⟩
  have hnot := h.1
  rw [heq, ha] at hnot
  exact Bool.noConfusion hnot

theorem Service.ne_resetIndication_of_isConfirmation {s : Service} (h : s.isConfirmation = true) :
    s ≠ .resetIndication := by
  rintro rfl
  exact Bool.noConfusion h

/-! ### What links do -/

namespace Activity

/-- Nothing of interest is delivered, and the call succeeds. -/
inductive Calm (P : σ → Prop) : Activity σ → Prop
  | finish {link : σ} (h : P link) : Calm P (.finish link (.ok ()))
  | deliver {octets : Octets} {next : Activity σ} (ho : octets.IsNoise) (h : Calm P next) :
      Calm P (.deliver octets next)
  | observe {next : Phase → Activity σ} (h : Calm P (next .opened)) : Calm P (.observe next)

/-- One confirmation is delivered, nothing else of interest, and the call succeeds. -/
inductive Confirms (P : Frame → σ → Prop) : Activity σ → Prop
  | confirm {octets : Octets} {f : Frame} {next : Activity σ} (hd : Frame.decode octets = .ok f)
      (hf : f.service.isConfirmation = true) (h : Calm (P f) next) : Confirms P (.deliver octets next)
  | deliver {octets : Octets} {next : Activity σ} (ho : octets.IsNoise) (h : Confirms P next) :
      Confirms P (.deliver octets next)
  | observe {next : Phase → Activity σ} (h : Confirms P (next .opened)) : Confirms P (.observe next)

theorem Calm.mono {P Q : σ → Prop} (hPQ : ∀ s, P s → Q s) {a : Activity σ} (h : Calm P a) : Calm Q a := by
  induction h with
  | finish hs => exact .finish (hPQ _ hs)
  | deliver ho _ ih => exact .deliver ho ih
  | observe _ ih => exact .observe ih

theorem Confirms.mono {P Q : Frame → σ → Prop} (hPQ : ∀ f s, P f s → Q f s) {a : Activity σ}
    (h : Confirms P a) : Confirms Q a := by
  induction h with
  | confirm hd hf h => exact .confirm hd hf (h.mono (hPQ _))
  | deliver ho _ ih => exact .deliver ho ih
  | observe _ ih => exact .observe ih

end Activity

namespace Link

/-- Sent in a state, a request is confirmed, and the confirmation and the state afterwards are as said. -/
def Confirms (l : Link σ) (s : σ) (request : Frame) (P : Frame → σ → Prop) : Prop :=
  ∀ octets, request.encode = .ok octets → (l.send s octets .confirmation).Confirms P

/-- Reads of the object list are confirmed, one way or the other, and keep an invariant of the state. -/
def Lists (l : Link σ) (I : σ → Prop) : Prop :=
  ∀ s start elements, I s →
    l.Confirms s (.reading ObjectType.device 1 PropertyId.objectList start elements) fun _ => I

end Link

namespace Exchange

/-! ### What arrives -/

/-- All that has happened to the client is that some frames have arrived. -/
structure Gained (x y : Exchange σ) (frames : List Frame) : Prop where
  phase : y.phase = x.phase
  arrivals : y.arrivals.frames = x.arrivals.frames ++ frames

theorem Gained.trans {x y z : Exchange σ} {fs gs : List Frame} (h : Gained x y fs) (h' : Gained y z gs) :
    Gained x z (fs ++ gs) := by
  refine ⟨h'.phase.trans h.phase, ?_⟩
  rw [h'.arrivals, h.arrivals, List.append_assoc]

theorem receive_of_decode {octets : Octets} {f : Frame} (hd : Frame.decode octets = .ok f)
    (x : Exchange σ) :
    x.receive octets = { x.note (.received f) with arrivals := x.arrivals.push f } := by
  cases octets with
  | nil => cases hd
  | cons code rest => rw [receive, if_pos (Frame.inFamily_of_decode hd), hd]

theorem receive_of_error {octets : Octets} {e : Fault} (hd : Frame.decode octets = .error e)
    (x : Exchange σ) : ∃ h : Happening, h.isRemark = true ∧ x.receive octets = x.note h := by
  cases octets with
  | nil => exact ⟨.ignored [], rfl, rfl⟩
  | cons code rest =>
      rw [receive]
      split_ifs
      · exact ⟨.undecodable e, rfl, by rw [hd]⟩
      · exact ⟨.ignored (code :: rest), rfl, rfl⟩

theorem gained_receive {octets : Octets} {f : Frame} (hd : Frame.decode octets = .ok f) (x : Exchange σ) :
    Gained x (x.receive octets) [f] := by
  rw [receive_of_decode hd]
  exact ⟨rfl, rfl⟩

/-- Whatever is delivered, nothing arrives but the frame that it holds. -/
theorem exists_gained_receive (octets : Octets) (x : Exchange σ) :
    ∃ fs, Gained x (x.receive octets) fs ∧ ∀ g ∈ fs, Frame.decode octets = .ok g := by
  cases hd : Frame.decode octets with
  | ok f => exact ⟨[f], gained_receive hd x, by simp⟩
  | error e =>
      obtain ⟨h, -, heq⟩ := receive_of_error hd x
      rw [heq]
      exact ⟨[], ⟨rfl, (List.append_nil _).symm⟩, by simp⟩

theorem phase_receive (x : Exchange σ) (octets : Octets) : (x.receive octets).phase = x.phase := by
  obtain ⟨fs, hgain, -⟩ := exists_gained_receive octets x
  exact hgain.phase

theorem isOpen_receive {x : Exchange σ} (ho : x.isOpen = true) (octets : Octets) :
    (x.receive octets).isOpen = true := by
  rwa [isOpen, phase_receive]

theorem gained_receive_noise {octets : Octets} (ho : octets.IsNoise) (x : Exchange σ) :
    ∃ fs, Gained x (x.receive octets) fs ∧ ∀ g ∈ fs, g.IsNoise := by
  obtain ⟨fs, hgain, hfs⟩ := exists_gained_receive octets x
  exact ⟨fs, hgain, fun g hg => ho g (hfs g hg)⟩

section Following

variable (c : Connection σ) (onClose : Exchange σ → Exchange σ)

theorem follow_calm {P : σ → Prop} {a : Activity σ} (ha : a.Calm P) {x : Exchange σ}
    (hx : x.isOpen = true) :
    ∃ y fs, follow c onClose a x = (.ok (), y) ∧ Gained x y fs ∧ (∀ g ∈ fs, g.IsNoise) ∧ P y.link := by
  induction ha generalizing x with
  | @finish link h => exact ⟨{ x with link := link }, [], rfl, ⟨rfl, (List.append_nil _).symm⟩, by simp, h⟩
  | @deliver octets next ho _ ih =>
      obtain ⟨fs, hgain, hfs⟩ := gained_receive_noise ho x
      obtain ⟨y, gs, hy, hgain', hgs, hP⟩ := ih (isOpen_receive hx octets)
      exact ⟨y, fs ++ gs, hy, hgain.trans hgain', List.forall_mem_append.mpr ⟨hfs, hgs⟩, hP⟩
  | observe _ ih =>
      rw [follow, phase_eq_opened hx]
      exact ih hx

theorem follow_confirms {P : Frame → σ → Prop} {a : Activity σ} (ha : a.Confirms P) {x : Exchange σ}
    (hx : x.isOpen = true) :
    ∃ y before g after, follow c onClose a x = (.ok (), y) ∧ Gained x y (before ++ g :: after) ∧
      (∀ f ∈ before, f.IsNoise) ∧ g.service.isConfirmation = true ∧ (∀ f ∈ after, f.IsNoise) ∧
      P g y.link := by
  induction ha generalizing x with
  | @confirm octets f next hd hf h =>
      obtain ⟨y, after, hy, hgain, hafter, hP⟩ := follow_calm c onClose h (isOpen_receive hx octets)
      exact ⟨y, [], f, after, hy, (gained_receive hd x).trans hgain, by simp, hf, hafter, hP⟩
  | @deliver octets next ho _ ih =>
      obtain ⟨fs, hgain, hfs⟩ := gained_receive_noise ho x
      obtain ⟨y, before, g, after, hy, hgain', hbefore, hg, hafter, hP⟩ := ih (isOpen_receive hx octets)
      refine ⟨y, fs ++ before, g, after, hy, ?_, List.forall_mem_append.mpr ⟨hfs, hbefore⟩, hg, hafter, hP⟩
      rw [List.append_assoc]
      exact hgain.trans hgain'
  | observe _ ih =>
      rw [follow, phase_eq_opened hx]
      exact ih hx

end Following

/-! ### Requests -/

theorem answerOf_eq (f : Frame) :
    answerOf f = if f.isRefusal then .error (.refused (f.data.headD 0)) else .ok f.data := by
  rw [answerOf, Frame.refusalCode?]
  cases f.isRefusal <;> rfl

variable {c : Connection σ}

/-- The client is open, and nothing has arrived that could be taken for an answer. -/
structure Ready (P : σ → Prop) (x : Exchange σ) : Prop where
  isOpen : x.isOpen = true
  noise : ∀ f ∈ x.arrivals.frames, f.IsNoise
  link : P x.link

theorem ready_start {P : σ → Prop} {link : σ} (h : P link) : Ready P (start link) :=
  ⟨rfl, by simp [start], h⟩

theorem Ready.note {P : σ → Prop} {x : Exchange σ} (h : Ready P x) (k : Happening) : Ready P (x.note k) :=
  ⟨h.isOpen, h.noise, h.link⟩

theorem ready_receive {P : σ → Prop} {x : Exchange σ} (h : Ready P x) {octets : Octets}
    (ho : octets.IsNoise) : Ready P (x.receive octets) := by
  cases hd : Frame.decode octets with
  | ok f =>
      rw [receive_of_decode hd]
      refine ⟨h.isOpen, fun g hg => ?_, h.link⟩
      rcases List.mem_append.mp hg with hg | hg
      · exact h.noise g hg
      · exact List.mem_singleton.mp hg ▸ ho f hd
  | error e =>
      obtain ⟨k, -, heq⟩ := receive_of_error hd x
      rw [heq]
      exact h.note k

/-- A search that finds one confirmation amid noise takes it if it is of the awaited kind, and leaves nothing
but noise in either case. -/
theorem scan_of_confirmation {x : Exchange σ} {before after : List Frame} {g : Frame}
    (hf : x.arrivals.frames = before ++ g :: after) (hbefore : ∀ f ∈ before, f.IsNoise)
    (hg : g.service.isConfirmation = true) (hafter : ∀ f ∈ after, f.IsNoise) {awaited : Service}
    (hawait : awaited.isConfirmation = true) :
    ∃ passed left, (∀ f ∈ left, f.IsNoise) ∧ x.scan c awaited =
      (if g.service = awaited then answerOf g else .error .confirmationExpected, x.searched passed left) := by
  by_cases heq : g.service = awaited
  · refine ⟨before, after, hafter, ?_⟩
    rw [if_pos heq]
    exact scan_found c hf (fun f hmem => (hbefore f hmem).passes hawait) heq
      (Service.ne_resetIndication_of_isConfirmation hawait)
  · refine ⟨x.arrivals.frames, [], by simp, ?_⟩
    rw [if_neg heq]
    refine scan_exhausted c fun f hmem => ?_
    rw [hf] at hmem
    rcases List.mem_append.mp hmem with hmem | hmem
    · exact (hbefore f hmem).passes hawait
    · rcases List.mem_cons.mp hmem with rfl | hmem
      · exact ⟨Service.ne_resetIndication_of_isConfirmation hg, heq⟩
      · exact (hafter f hmem).passes hawait

theorem send_of_confirms {P : Frame → σ → Prop} {x : Exchange σ} (hx : x.isOpen = true) {f : Frame}
    {octets : Octets} (he : f.encode = .ok octets)
    (ha : (c.link.send x.link octets .confirmation).Confirms P) :
    ∃ y before g after, x.send c f true = (.ok (), y) ∧ Gained x y (before ++ g :: after) ∧
      (∀ f ∈ before, f.IsNoise) ∧ g.service.isConfirmation = true ∧ (∀ f ∈ after, f.IsNoise) ∧
      P g y.link := by
  have hopen : (x.note (.handed ⟨octets, .confirmation⟩)).isOpen = true := hx
  obtain ⟨y, before, g, after, hy, hgain, hrest⟩ := follow_confirms c (close c) ha hopen
  refine ⟨y, before, g, after, ?_, ⟨hgain.phase, hgain.arrivals⟩, hrest⟩
  rw [send_of_encode c he]
  exact hy

/-- A request is answered by the only confirmation that comes of it, which does not help if it is one of
the other kind. -/
theorem request_of_confirms {I : σ → Prop} {P : Frame → σ → Prop} {x : Exchange σ} (hx : Ready I x)
    {f : Frame} {octets : Octets} (he : f.encode = .ok octets)
    (ha : (c.link.send x.link octets .confirmation).Confirms P) (awaited : Service)
    (hawait : awaited.isConfirmation = true) :
    ∃ g y, x.request c f awaited
        = (if g.service = awaited then answerOf g else .error .confirmationExpected, y) ∧
      Ready (P g) y := by
  have hsending : (x.note (.sending f)).isOpen = true := hx.isOpen
  obtain ⟨y, before, g, after, hsend, hgain, hbefore, hg, hafter, hP⟩ := send_of_confirms hsending he ha
  have hfront : ∀ h ∈ x.arrivals.frames ++ before, h.IsNoise :=
    List.forall_mem_append.mpr ⟨hx.noise, hbefore⟩
  have hframes : y.arrivals.frames = (x.arrivals.frames ++ before) ++ g :: after := by
    rw [hgain.arrivals, List.append_assoc]
    rfl
  obtain ⟨passed, left, hleft, hscan⟩ := scan_of_confirmation hframes hfront hg hafter hawait
  have hopen : y.isOpen = true := by
    rw [isOpen, hgain.phase]
    exact hx.isOpen
  refine ⟨g, y.searched passed left, ?_, hopen, hleft, hP⟩
  rw [request, if_pos hx.isOpen, hsend]
  exact hscan

/-- A request without octets fails before the link gets to know of it. -/
theorem request_of_encode_error {x : Exchange σ} (hx : x.isOpen = true) {f : Frame} {e : Fault}
    (he : f.encode = .error e) (awaited : Service) :
    x.request c f awaited = (.error e, x.note (.sending f)) := by
  have ht : c.attachment.transmission f true = .error e := by rw [Attachment.transmission, he]
  rw [request, if_pos hx, send_of_error c ht]

theorem ready_request {I : σ → Prop} {x : Exchange σ} (hx : Ready I x) {f : Frame}
    (ha : c.link.Confirms x.link f fun _ => I) {awaited : Service}
    (hawait : awaited.isConfirmation = true) : Ready I (x.request c f awaited).2 := by
  cases he : f.encode with
  | ok octets =>
      obtain ⟨g, y, hy, hready⟩ := request_of_confirms hx he (ha octets he) awaited hawait
      rw [hy]
      exact hready
  | error e =>
      rw [request_of_encode_error hx.isOpen he]
      exact hx.note _

end Exchange

/-! ### Openings -/

section Opening

open Exchange (Ready ready_request)

variable {c : Connection σ} {I : σ → Prop}

/-- To stay ready is a relation between exchanges. -/
theorem Exchange.spans_ready (I : σ → Prop) : Exchange.Spans fun x y : Exchange σ => Ready I x → Ready I y :=
  ⟨fun _ hx => hx, fun hxy hyz hx => hyz (hxy hx), fun _ k _ hx => hx.note k⟩

/-- An opened client is ready. -/
theorem Client.ready_of_start (hl : c.link.Lists I) {link : σ} (hI : I link) {k : Client σ}
    (hs : start c link = .opened k) : Ready I k.exchange ∧ k.bookmark = .start := by
  have hobjects := Discovery.spans_objects (c := c) (Exchange.spans_ready I)
    (fun p _ x hx => ready_request hx (hl x.link p.start p.elements hx.link) rfl) (.start link)
    (Exchange.ready_start hI)
  rw [start] at hs
  split at hs
  · next h =>
      rw [h] at hobjects
      cases hs
      exact ⟨hobjects.note _, rfl⟩
  · cases hs

end Opening

end BusManagement
