import BusManagement.Proofs.Confirmation
import BusManagement.Proofs.Interruption
import BusManagement.Proofs.PropertyMap

/-! Refusals on their way to the caller. A refusal covers no elements, whatever its request asks for, so it fits into a
frame even if the request does not, and it comes back from its octets with its code. Delivered while a request of its
kind is in flight, in front of everything else at which the search would stop, it is what the search finds: the call
fails with the reason that the code gives. The search tells a refusal by the number of its elements alone, so no
confirmation of other numbers is taken for one. -/

namespace BusManagement

open Simulation (Scripted)

variable {σ : Type}

namespace Frame

variable {request : Frame} {awaited : Service}

/-- A refusal has octets if only the start of its request fits. -/
theorem encode_refused (hs : request.service.confirmation? = some awaited) (hstart : request.start ≤ maxStart)
    (code : UInt8) :
    ∃ octets, (request.refused code).encode = .ok octets ∧ decode octets = .ok (request.refused code) := by
  have hh : (request.refused code).service.hasHeader = true :=
    Service.hasHeader_of_isConfirmation (confirms_refused hs code).isConfirmation
  have he : (request.refused code).elements ≤ maxElements := by
    show (0 : UInt8) ≤ 15
    decide
  exact ⟨_, encode_of_le hh he hstart, decode_layout hh he hstart⟩

theorem service_refused (hs : request.service.confirmation? = some awaited) (code : UInt8) :
    (request.refused code).service = awaited :=
  Option.some.inj ((confirms_refused hs code).service.symm.trans hs)

end Frame

namespace Activity

/-- Nobody closes the client and the call succeeds, whatever is delivered. -/
inductive Undisturbed : Activity σ → Prop
  | finish (link : σ) : Undisturbed (.finish link (.ok ()))
  | deliver (octets : Octets) {next : Activity σ} (h : Undisturbed next) : Undisturbed (.deliver octets next)
  | observe {next : Phase → Activity σ} (h : Undisturbed (next .opened)) : Undisturbed (.observe next)

/-- Of all that a search does not pass by, these octets are delivered first. Nobody closes the client and the call
succeeds. -/
inductive Brings (awaited : Service) (octets : Octets) : Activity σ → Prop
  | arrive {next : Activity σ} (h : Undisturbed next) : Brings awaited octets (.deliver octets next)
  | deliver {others : Octets} {next : Activity σ}
      (ho : ∀ f, Frame.decode others = .ok f → Exchange.Passes awaited f) (h : Brings awaited octets next) :
      Brings awaited octets (.deliver others next)
  | observe {next : Phase → Activity σ} (h : Brings awaited octets (next .opened)) :
      Brings awaited octets (.observe next)

end Activity

namespace Exchange

variable {c : Connection σ} {x : Exchange σ} {awaited : Service} {octets : Octets} {f : Frame}

/-! ### Requests in flight -/

theorem follow_undisturbed (c : Connection σ) (onClose : Exchange σ → Exchange σ) {a : Activity σ}
    (ha : a.Undisturbed) {x : Exchange σ} (ho : x.isOpen = true) :
    ∃ y fs, follow c onClose a x = (.ok (), y) ∧ Gained x y fs := by
  induction ha generalizing x with
  | finish link => exact ⟨{ x with link := link }, [], rfl, rfl, (List.append_nil _).symm⟩
  | deliver octets _ ih =>
      obtain ⟨fs, hgain, -⟩ := exists_gained_receive octets x
      obtain ⟨y, gs, hy, hgain'⟩ := ih (isOpen_receive ho octets)
      exact ⟨y, fs ++ gs, hy, hgain.trans hgain'⟩
  | observe _ ih =>
      rw [follow, phase_eq_opened ho]
      exact ih ho

/-- The frame arrives behind others that the search passes by. -/
theorem follow_brings (c : Connection σ) (onClose : Exchange σ → Exchange σ) {a : Activity σ}
    (ha : a.Brings awaited octets) (hd : Frame.decode octets = .ok f) {x : Exchange σ} (ho : x.isOpen = true) :
    ∃ y before after, follow c onClose a x = (.ok (), y) ∧ Gained x y (before ++ f :: after) ∧
      ∀ g ∈ before, Passes awaited g := by
  induction ha generalizing x with
  | arrive h =>
      obtain ⟨y, after, hy, hgain⟩ := follow_undisturbed c onClose h (isOpen_receive ho octets)
      exact ⟨y, [], after, hy, (gained_receive hd x).trans hgain, by simp⟩
  | @deliver others next hp _ ih =>
      obtain ⟨fs, hgain, hfs⟩ := exists_gained_receive others x
      obtain ⟨y, before, after, hy, hgain', hbefore⟩ := ih (isOpen_receive ho others)
      refine ⟨y, fs ++ before, after, hy, ?_, List.forall_mem_append.mpr ⟨fun g hg => hp g (hfs g hg), hbefore⟩⟩
      rw [List.append_assoc]
      exact hgain.trans hgain'
  | observe _ ih =>
      rw [follow, phase_eq_opened ho]
      exact ih ho

/-- What is brought first is the answer, and the client stays open. -/
theorem request_of_brings (ho : x.isOpen = true) (hx : ∀ g ∈ x.arrivals.frames, Passes awaited g) {current : Frame}
    {sent : Octets} (he : current.encode = .ok sent)
    (ha : (c.link.send x.link sent .confirmation).Brings awaited octets) (hd : Frame.decode octets = .ok f)
    (hf : f.service = awaited) (hr : awaited ≠ .resetIndication) :
    ∃ y, x.request c current awaited = (answerOf f, y) ∧ y.isOpen = true := by
  let handed : Exchange σ := (x.note (.sending current)).note (.handed ⟨sent, .confirmation⟩)
  have hopen : handed.isOpen = true := ho
  obtain ⟨y, before, after, hfollow, hgain, hbefore⟩ := follow_brings c (close c) ha hd hopen
  have hsend : (x.note (.sending current)).send c current true = (.ok (), y) := by
    rw [send_of_encode c he]
    exact hfollow
  have hframes : y.arrivals.frames = (x.arrivals.frames ++ before) ++ f :: after := by
    rw [hgain.arrivals, List.append_assoc]
    rfl
  have hscan := scan_found c hframes (List.forall_mem_append.mpr ⟨hx, hbefore⟩) hf hr
  refine ⟨y.searched (x.arrivals.frames ++ before) after, ?_, ?_⟩
  · rw [request, if_pos ho, hsend]
    exact hscan
  · show y.phase.isOpen = true
    rw [hgain.phase]
    exact ho

/-! ### Searches -/

variable {passed left : List Frame}

/-- A confirmation of any elements gives its data. -/
theorem scan_of_elements (c : Connection σ) (ha : awaited.isConfirmation = true) (hm : x.Meets awaited passed f left)
    (hf : f.service = awaited) (he : 1 ≤ f.elements) : x.scan c awaited = (.ok f.data, x.searched passed left) := by
  have hsome : f.elements ≠ 0 := by
    intro hnone
    rw [hnone] at he
    exact absurd he (by decide)
  rw [scan_found c hm.frames hm.passed hf (Service.ne_resetIndication_of_isConfirmation ha),
    answerOf_of_isConfirmation (hf ▸ ha), if_neg hsome]

/-- A search that fails for a remote cause has met a confirmation of no elements. -/
theorem exists_refusal_of_scan (ha : awaited.isConfirmation = true) {e : Fault}
    (h : (x.scan c awaited).1 = .error e) (hk : e.kind = .remote) :
    ∃ passed f left, x.Meets awaited passed f left ∧ f.service = awaited ∧ f.elements = 0 ∧
      e = .refused (f.data.headD 0) := by
  rcases divide awaited x.arrivals.frames with hall | ⟨passed, f, left, hf, hp, hreset | hs⟩
  · rw [scan_exhausted c hall] at h
    cases h
    cases hk
  · rw [scan_reset c hf hp hreset] at h
    cases h
    cases hk
  · rw [scan_found c hf hp hs (Service.ne_resetIndication_of_isConfirmation ha),
      answerOf_of_isConfirmation (hs ▸ ha)] at h
    dsimp only at h
    split_ifs at h with he
    exact ⟨passed, f, left, ⟨hf, hp, .inr hs⟩, hs, he, (Except.error.inj h).symm⟩

end Exchange

namespace Client

variable {c : Connection σ} {k : Client σ} {call : Call} {awaited : Service} {octets : Octets} {f : Frame}

/-- An open client sends the request of a call. Nothing waits at which the search for a confirmation of this kind would
stop, and of all such things the link brings these octets first. -/
structure HearsFirst (c : Connection σ) (k : Client σ) (call : Call) (awaited : Service) (octets : Octets) :
    Prop where
  isOpen : k.isOpen = true
  waiting : ∀ g ∈ k.exchange.arrivals.frames, Exchange.Passes awaited g
  request : ∃ current sent, k.requestOf call = some current ∧ current.service.confirmation? = some awaited ∧
    current.encode = .ok sent ∧ (c.link.send k.exchange.link sent .confirmation).Brings awaited octets

theorem HearsFirst.perform_eq (h : k.HearsFirst c call awaited octets) (hd : Frame.decode octets = .ok f)
    (hf : f.service = awaited) :
    ∃ reply, (k.perform c call).1 = (Exchange.answerOf f).map reply ∧ (k.perform c call).2.isOpen = true := by
  obtain ⟨current, sent, hr, hs, he, ha⟩ := h.request
  obtain ⟨awaited', reply, hs', hperform⟩ := perform_of_requestOf (c := c) h.isOpen hr
  obtain rfl : awaited = awaited' := Option.some.inj (hs.symm.trans hs')
  obtain ⟨y, hrequest, hopen⟩ := Exchange.request_of_brings h.isOpen h.waiting he ha hd hf
    (Service.ne_resetIndication_of_confirmation? hs)
  rw [hrequest] at hperform
  exact ⟨reply, by rw [hperform], by rw [hperform]; exact hopen⟩

/-- A refusal of a read or write reaches the caller. If the start of the request fits, the refusal has octets, be the
request of as many elements as it likes; they hold the refusal again, which confirms its request and tells the code.
If a read or write of the same kind hears them first, it fails with the reason for the code, and the client stays
open. A search never takes a confirmation of any elements for a refusal, whatever data it carries. -/
theorem refusal_reaches_caller (c : Connection σ) {request : Frame} {awaited : Service}
    (hs : request.service.confirmation? = some awaited) (hstart : request.start ≤ 0xfff) (code : UInt8) :
    (∃ octets, (request.refused code).encode = .ok octets ∧ Frame.decode octets = .ok (request.refused code) ∧
      (request.refused code).Confirms request ∧ (request.refused code).isRefusal = true ∧
      (request.refused code).refusalCode? = some code ∧
      ∀ (k : Client σ) call, k.HearsFirst c call awaited octets →
        (k.perform c call).1 = .error (.refused code) ∧ (k.perform c call).2.isOpen = true) ∧
    ((Fault.refused code).kind = .remote ∧ (Fault.refused code).detail = Refusal.text code) ∧
    ∀ x : Exchange σ,
      (∀ passed f left, x.Meets awaited passed f left → f.service = awaited → 1 ≤ f.elements →
        x.scan c awaited = (.ok f.data, x.searched passed left)) ∧
      ∀ e, (x.scan c awaited).1 = .error e → e.kind = .remote →
        ∃ passed f left, x.Meets awaited passed f left ∧ f.service = awaited ∧ f.elements = 0 ∧
          e = .refused (f.data.headD 0) := by
  have ha : awaited.isConfirmation = true := Service.isConfirmation_of_confirmation? hs
  obtain ⟨octets, hencode, hdecode⟩ := Frame.encode_refused hs hstart code
  refine ⟨⟨octets, hencode, hdecode, Frame.confirms_refused hs code, Frame.isRefusal_refused request code,
    Frame.refusalCode?_refused request code, fun k call h => ?_⟩, ⟨rfl, rfl⟩,
    fun x => ⟨fun passed f left hm hf he => Exchange.scan_of_elements c ha hm hf he,
      fun e h hk => Exchange.exists_refusal_of_scan ha h hk⟩⟩
  obtain ⟨reply, hreply, hopen⟩ := h.perform_eq hdecode (Frame.service_refused hs code)
  refine ⟨?_, hopen⟩
  rw [hreply, answerOf_refused]
  rfl

end Client

namespace Simulation

/-- A device without an object list. To the first transmission after the opening it delivers the confirmation of a
write, the refusal of a read of a mode, a confirmation of it and a reset indication. -/
def Scripted.refusing : Scripted :=
  ⟨⟨none, none, []⟩, false,
    [⟨true, [], [], none, [], .ok ()⟩,
      ⟨false, [[0xf5, 0, 8, 1, 52, 0x10, 1], [0xfb, 0, 8, 1, 52, 0, 1, 10]],
        [[0xfb, 0, 8, 1, 52, 0x10, 1, 0], [0xf0]], none, [], .ok ()⟩],
    none, none, 0, true, []⟩

end Simulation

/-- The read that is refused asks for so many elements that it could not have been sent, but another read of the same
property hears of it. -/
theorem Client.refusal_reaches_caller_unsendable :
    (Frame.reading 8 1 PropertyId.commMode 1 200).encode = .error (.tooManyElements 200) ∧
    ((Frame.reading 8 1 PropertyId.commMode 1 200).refused 10).encode = .ok [0xfb, 0, 8, 1, 52, 0, 1, 10] ∧
    ∃ k, start (Scripted.connection .plain) .refusing = .opened k ∧
      k.HearsFirst (Scripted.connection .plain) (.get 1 PropertyId.commMode 1 1) .readConfirmation
        [0xfb, 0, 8, 1, 52, 0, 1, 10] ∧
      (k.perform (Scripted.connection .plain) (.get 1 PropertyId.commMode 1 1)).1 = .error (.refused 10) ∧
      (k.perform (Scripted.connection .plain) (.get 1 PropertyId.commMode 1 1)).2.isOpen = true ∧
      (Fault.refused 10).message = "Remote error: value temporarily not writeable" := by
  obtain ⟨k, hk, hears⟩ : ∃ k, start (Scripted.connection .plain) .refusing = .opened k ∧
      k.HearsFirst (Scripted.connection .plain) (.get 1 PropertyId.commMode 1 1) .readConfirmation
        [0xfb, 0, 8, 1, 52, 0, 1, 10] := by
    refine ⟨_, rfl, rfl, (fun g hg => nomatch hg), ⟨_, _, rfl, rfl, rfl, ?_⟩⟩
    exact .deliver (by decide) (.arrive (.deliver _ (.deliver _ (.finish _))))
  have hs : (Frame.reading 8 1 PropertyId.commMode 1 200).service.confirmation? = some .readConfirmation := rfl
  have hstart : (Frame.reading 8 1 PropertyId.commMode 1 200).start ≤ 0xfff := by decide
  obtain ⟨⟨octets, hencode, -, -, -, -, hreaches⟩, -⟩ :=
    refusal_reaches_caller (Scripted.connection .plain) hs hstart 10
  obtain rfl : [0xfb, 0, 8, 1, 52, 0, 1, 10] = octets := Except.ok.inj hencode
  obtain ⟨hfails, hopen⟩ := hreaches k _ hears
  exact ⟨rfl, hencode, k, hk, hears, hfails, hopen, rfl⟩

end BusManagement
