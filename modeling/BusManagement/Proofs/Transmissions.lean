import BusManagement.Proofs.Addressing
import BusManagement.Proofs.Course.Run
import BusManagement.Proofs.Discovery
import BusManagement.Proofs.Silence

/-! What reaches the link. The fields of a request come from the caller, from counting the objects, and from the
number that the device tells, and they are checked at different places: an object has an address, a range has
octets, and a piece lies in the list. Together the checks leave nothing but requests that are well formed, whatever
the caller asks and the device answers. Every operation is made of requests, so it is enough to look at one. -/

namespace BusManagement

open Simulation (Scripted)

variable {σ : Type}

namespace Transmission

/-- The octets hold the frame, and its confirmation is waited for. -/
structure Carries (t : Transmission) (f : Frame) : Prop where
  decode : Frame.decode t.octets = .ok f
  waiting : t.waiting = .confirmation

/-- A read of the object list: of the number of the objects, or of some elements within the reach of a start
index. -/
def ReadsList (t : Transmission) : Prop :=
  ∃ start elements, t.Carries (.reading ObjectType.device 1 PropertyId.objectList start elements) ∧
    (start = 0 ∧ elements = 1 ∨ 1 ≤ start ∧ 1 ≤ elements ∧ elements ≤ 15 ∧
      start.toNat + elements.toNat - 1 ≤ 4095)

/-- A read or a write of a property of one of these objects. -/
def Accesses (d : ObjectList) (object : UInt16) (t : Transmission) : Prop :=
  ∃ f, t.Carries f ∧ (f.service = .readRequest ∧ f.data = [] ∨ f.service = .writeRequest) ∧
    d.address object = .ok ⟨f.objectType, f.objectInstance⟩ ∧ 1 ≤ f.objectInstance ∧ f.start ≤ 0xfff ∧
    f.elements ≤ 15

/-- Whatever reaches the link holds a request. Only the request to reset is not confirmed. -/
def WellFormed (a : Attachment) (t : Transmission) : Prop :=
  ∃ f, Frame.decode t.octets = .ok f ∧
    ((f.service = .readRequest ∧ f.data = [] ∨ f.service = .writeRequest) ∧ t.waiting = .confirmation ∨
      f.service = .resetRequest ∧ t = ⟨[0xf1], a.waiting false⟩)

theorem ReadsList.wellFormed {t : Transmission} (h : t.ReadsList) (a : Attachment) :
    t.WellFormed a := by
  obtain ⟨start, elements, ht, -⟩ := h
  exact ⟨_, ht.decode, .inl ⟨.inl ⟨rfl, rfl⟩, ht.waiting⟩⟩

theorem Accesses.wellFormed {d : ObjectList} {object : UInt16} {t : Transmission}
    (h : t.Accesses d object) (a : Attachment) : t.WellFormed a := by
  obtain ⟨f, ht, hservice, -⟩ := h
  exact ⟨f, ht.decode, .inl ⟨hservice, ht.waiting⟩⟩

theorem carries_of_encode {f : Frame} (hh : f.service.hasHeader = true) {octets : Octets}
    (he : f.encode = .ok octets) : Carries ⟨octets, .confirmation⟩ f :=
  ⟨Frame.decode_of_encode hh he, rfl⟩

/-- A piece that has octets starts within reach, and then it ends within reach, too. -/
theorem readsList_of_asks {p : Discovery.Piece} (hp : Discovery.Asks p) {octets : Octets}
    (he : p.request.encode = .ok octets) : ReadsList ⟨octets, .confirmation⟩ := by
  refine ⟨p.start, p.elements, carries_of_encode rfl he, ?_⟩
  obtain ⟨-, hreach, -⟩ := (Frame.encode_eq_ok_iff rfl).mp he
  have hreach : p.start.toNat ≤ 4095 := UInt16.le_iff_toNat_le.mp hreach
  cases hp with
  | count => exact .inl ⟨rfl, rfl⟩
  | @piece length hl _ hp =>
      rw [Discovery.pieces_eq] at hp
      obtain ⟨i, hi, rfl⟩ := List.mem_map.mp hp
      have hlt : i < (length + 14) / 15 := List.mem_range.mp hi
      -- No start index wraps around, since a device tells a number of 16 bits.
      have hstart := Discovery.toNat_start_pieceAt length (i := i) (by omega)
      have helements := Discovery.toNat_elements_pieceAt length i
      rw [UInt16.le_iff_toNat_le, UInt8.le_iff_toNat_le, UInt8.le_iff_toNat_le, helements, hstart]
      rw [hstart] at hreach
      refine .inr ⟨Nat.le_add_left 1 _, ?_, Nat.min_le_left _ _, ?_⟩
      · show 1 ≤ min 15 (length - 15 * i)
        omega
      · omega

theorem accesses_of_asks {d : ObjectList} {object : UInt16} {f : Frame} {awaited : Service}
    (h : d.Asks object f awaited) {octets : Octets} (he : f.encode = .ok octets) :
    Accesses d object ⟨octets, .confirmation⟩ := by
  have hh := Service.hasHeader_of_confirmation? h.confirmation?
  obtain ⟨helements, hstart, -⟩ := (Frame.encode_eq_ok_iff hh).mp he
  have hcarries := carries_of_encode hh he
  cases h with
  | read ha => exact ⟨_, hcarries, .inl ⟨rfl, rfl⟩, ha, ObjectList.one_le_objectInstance ha, hstart, helements⟩
  | write ha => exact ⟨_, hcarries, .inr rfl, ha, ObjectList.one_le_objectInstance ha, hstart, helements⟩

end Transmission

/-- What a call may hand over when the client has these objects. -/
def Call.Hands (a : Attachment) (d : ObjectList) : Call → Transmission → Prop
  | .get object _ _ _, t | .set object _ _ _ _, t | .describe object _ _, t => t.Accesses d object
  | .reset, t => t = ⟨[0xf1], a.waiting false⟩
  | .close, _ | .receive _, _ | .linkClosed _, _ => False

theorem Call.Hands.wellFormed {a : Attachment} {d : ObjectList} {call : Call} {t : Transmission}
    (h : call.Hands a d t) : t.WellFormed a := by
  cases call with
  | get object pid first elements => exact Transmission.Accesses.wellFormed h a
  | set object pid first elements data => exact Transmission.Accesses.wellFormed h a
  | describe object pid index => exact Transmission.Accesses.wellFormed h a
  | reset =>
      obtain rfl : t = ⟨[0xf1], a.waiting false⟩ := h
      exact ⟨.bare .resetRequest, rfl, .inr ⟨rfl, rfl⟩⟩
  | close => exact h.elim
  | receive octets => exact h.elim
  | linkClosed n => exact h.elim

namespace Exchange

variable {c : Connection σ} {P : Transmission → Prop}

/-- From one exchange to another only such transmissions are handed over. -/
def HandsOnly (P : Transmission → Prop) (x y : Exchange σ) : Prop :=
  ∃ ts, y.chronicle.transmissions = x.chronicle.transmissions ++ ts ∧ ∀ t ∈ ts, P t

theorem HandsOnly.of_eq {x y : Exchange σ} (h : y.chronicle.transmissions = x.chronicle.transmissions) :
    HandsOnly P x y := ⟨[], by rw [h, List.append_nil], by simp⟩

theorem HandsOnly.single {x y : Exchange σ} {t : Transmission}
    (h : y.chronicle.transmissions = x.chronicle.transmissions ++ [t]) (ht : P t) : HandsOnly P x y :=
  ⟨[t], h, by simpa using ht⟩

theorem HandsOnly.trans {x y z : Exchange σ} (h : HandsOnly P x y) (h' : HandsOnly P y z) : HandsOnly P x z := by
  obtain ⟨ts, hts, hall⟩ := h
  obtain ⟨us, hus, hall'⟩ := h'
  refine ⟨ts ++ us, ?_, List.forall_mem_append.mpr ⟨hall, hall'⟩⟩
  rw [hus, hts, List.append_assoc]

theorem HandsOnly.mono {Q : Transmission → Prop} {x y : Exchange σ} (h : HandsOnly P x y)
    (hPQ : ∀ t, P t → Q t) : HandsOnly Q x y := by
  obtain ⟨ts, hts, hall⟩ := h
  exact ⟨ts, hts, fun t ht => hPQ t (hall t ht)⟩

theorem spans_handsOnly (P : Transmission → Prop) : Spans (HandsOnly (σ := σ) P) where
  refl _ := .of_eq rfl
  trans := .trans
  remark x _ hr := .of_eq (transmissions_note x (Happening.inFlight_of_isRemark hr))

theorem handsOnly_request {f : Frame} {awaited : Service} (hr : awaited ≠ .resetIndication)
    (hP : ∀ octets, f.encode = .ok octets → P ⟨octets, .confirmation⟩) (x : Exchange σ) :
    HandsOnly P x (x.request c f awaited).2 := by
  by_cases ho : x.isOpen = true
  · cases he : f.encode with
    | ok octets => exact .single (transmissions_request ho he hr) (hP octets he)
    | error e =>
        rw [request_of_encode_error ho he]
        exact (spans_handsOnly P).remark x _ rfl
  · rw [request, if_neg ho]
    exact (spans_handsOnly P).refl x

theorem handsOnly_resetDevice (x : Exchange σ) :
    HandsOnly (· = ⟨[0xf1], c.attachment.waiting false⟩) x (x.resetDevice c).2 := by
  rw [resetDevice]
  split_ifs
  · exact .single (transmissions_send rfl) rfl
  · exact (spans_handsOnly _).refl x

theorem InFlight.handsOnly {x y : Exchange σ} (h : InFlight c x y) : HandsOnly P x y :=
  .of_eq h.adds.transmissions_eq

end Exchange

namespace Client

open Exchange (HandsOnly spans_handsOnly handsOnly_request)

variable (c : Connection σ)

/-- The operations on an object hand over requests about it only. -/
theorem covers_accesses (d : ObjectList) (object : UInt16) :
    Covers c d object (HandsOnly (Transmission.Accesses d object)) :=
  ⟨spans_handsOnly _, fun x _ _ h =>
    handsOnly_request (Service.ne_resetIndication_of_confirmation? h.confirmation?)
      (fun _ he => Transmission.accesses_of_asks h he) x⟩

theorem handsOnly_start (link : σ) :
    HandsOnly Transmission.ReadsList (.start link) (start c link).exchange := by
  have hobjects := Discovery.spans_objects (c := c) (spans_handsOnly Transmission.ReadsList)
    (fun p hp x => handsOnly_request (f := p.request) (by decide)
      (fun _ he => Transmission.readsList_of_asks hp he) x) (.start link)
  rw [start]
  split
  · next h =>
      rw [h] at hobjects
      exact hobjects.trans ((spans_handsOnly _).remark _ _ rfl)
  · next e x h =>
      rw [h] at hobjects
      have hremark := hobjects.trans ((spans_handsOnly _).remark x (.discoveryFailed e) rfl)
      exact hremark.trans (Exchange.InFlight.handsOnly (Exchange.inFlight_closeFor c _ (.inr rfl)))

theorem handsOnly_perform (k : Client σ) (call : Call) :
    HandsOnly (call.Hands c.attachment k.objects) k.exchange (k.perform c call).2.exchange := by
  cases call with
  | get object pid first elements =>
      exact (keeps_get (covers_accesses c k.objects object) pid first elements).exchange
  | set object pid first elements data =>
      exact (keeps_set (covers_accesses c k.objects object) pid first elements data).exchange
  | describe object pid index => exact (leads_describe (covers_accesses c k.objects object) pid index).exchange
  | reset => exact Exchange.handsOnly_resetDevice k.exchange
  | close => exact Exchange.InFlight.handsOnly (Exchange.inFlight_close c k.exchange)
  | receive octets => exact Exchange.InFlight.handsOnly (Exchange.inFlight_receive c k.exchange octets)
  | linkClosed n => exact Exchange.InFlight.handsOnly (.single (.linkClosed (c := c) k.exchange n))

theorem handsOnly_run (k : Client σ) (calls : List Call) :
    HandsOnly (fun t => ∃ call ∈ calls, call.Hands c.attachment k.objects t) k.exchange
      (k.run c calls).2.exchange := by
  induction calls generalizing k with
  | nil => exact (spans_handsOnly _).refl _
  | cons call rest ih =>
      have hfirst := handsOnly_perform c k call
      have hrest := ih (k.perform c call).2
      rw [(leads_perform c k call).objects] at hrest
      refine (hfirst.mono fun t ht => ?_).trans (hrest.mono fun t ht => ?_)
      · exact ⟨call, List.mem_cons_self, ht⟩
      · obtain ⟨later, hmem, hhands⟩ := ht
        exact ⟨later, List.mem_cons_of_mem call hmem, hhands⟩

/-- Over any link, nothing but well-formed requests is handed over. An opening reads the object list, each time
within the reach of a start index. After that, each call reads and writes properties of the object that it is about,
which is one of those that were discovered, or it asks for a reset; the other calls hand nothing over. -/
theorem hands_only_requests (c : Connection σ) (link : σ) :
    (∀ t ∈ (start c link).exchange.chronicle.transmissions, t.ReadsList) ∧
    (∀ k, start c link = .opened k → ∀ calls,
      (∀ i call, calls[i]? = some call →
        HandsOnly (call.Hands c.attachment k.objects) (k.before c calls i).exchange
          (k.before c calls (i + 1)).exchange) ∧
      HandsOnly (fun t => ∃ call ∈ calls, call.Hands c.attachment k.objects t) k.exchange (life c link calls)) ∧
    (∀ calls, ∀ t ∈ (life c link calls).chronicle.transmissions, t.WellFormed c.attachment) ∧
    Attachment.direct.waiting false = .none ∧ Attachment.network.waiting false = .acknowledgement := by
  have hstart : ∀ t ∈ (start c link).exchange.chronicle.transmissions, t.ReadsList := by
    obtain ⟨ts, hts, hall⟩ := handsOnly_start c link
    rwa [hts]
  have hrun : ∀ k, start c link = .opened k → ∀ calls,
      HandsOnly (fun t => ∃ call ∈ calls, call.Hands c.attachment k.objects t) k.exchange (life c link calls) := by
    intro k hk calls
    rw [life, hk]
    exact handsOnly_run c k calls
  refine ⟨hstart, fun k hk calls => ⟨fun i call hc => ?_, hrun k hk calls⟩, fun calls t ht => ?_, rfl, rfl⟩
  · have hobjects : (k.before c calls i).objects = k.objects := (leads_before c k calls (Nat.zero_le i)).objects
    rw [before_succ hc, ← hobjects]
    exact handsOnly_perform c (k.before c calls i) call
  · cases hk : start c link with
    | failed e x =>
        rw [life, hk] at ht
        rw [hk] at hstart
        exact (hstart t ht).wellFormed c.attachment
    | opened k =>
        obtain ⟨ts, hts, hall⟩ := hrun k hk calls
        rw [hk] at hstart
        rw [hts] at ht
        rcases List.mem_append.mp ht with hopening | hlater
        · exact (hstart t hopening).wellFormed c.attachment
        · obtain ⟨call, -, hhands⟩ := hall t hlater
          exact hhands.wellFormed

/-- Of an object that is not listed, and of more elements than fit into a frame, the link gets to know nothing. -/
example : (life (Scripted.connection .plain) .modeAndMedium
    [.get 1 52 1 1, .get 2 52 1 1, .get 1 52 1 16, .reset]).chronicle.transmissions =
      [⟨[0xfc, 0, 0, 1, 71, 0x10, 0], .confirmation⟩, ⟨[0xfc, 0, 0, 1, 71, 0x20, 1], .confirmation⟩,
        ⟨[0xfc, 0, 8, 1, 52, 0x10, 1], .confirmation⟩, ⟨[0xf1], .none⟩] := by
  decide +kernel

end Client

end BusManagement
