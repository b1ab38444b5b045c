import BusManagement.Proofs.Correlation
import BusManagement.Proofs.Course.Additions

/-! Requests that are interrupted. A client may be closed while the sending of a request is in flight, by its
caller or because the link tells that it is closed, and frames may have come before, the confirmation among them.
Whoever closes it throws away whatever waits. If the link delivers nothing behind that, the search that follows a
successful sending finds nothing, so neither a confirmation nor a reset indication outlives the closing. -/

namespace BusManagement

open Simulation (Scripted)

variable {σ : Type}

/-- The link tells that it is closed, or it is called to close. -/
def Happening.endsLink : Happening → Bool
  | .linkClosed _ _ | .released => true
  | _ => false

def Happening.isReceived : Happening → Bool
  | .received _ => true
  | _ => false

/-- A link that has told that it is closed, or was called to close, delivers no frame any more. -/
def Chronicle.Hushed (h : Chronicle) : Prop := h.Pairwise fun k l => k.endsLink = true → l.isReceived = false

instance (h : Chronicle) : Decidable h.Hushed :=
  inferInstanceAs (Decidable (h.Pairwise fun k l => k.endsLink = true → l.isReceived = false))

namespace Exchange

variable {c : Connection σ} {x y : Exchange σ}

/-- The client of an exchange that is found closed has just lost what was waiting, or it was closed before and
only a frame can have joined. -/
theorem Flight.closed_cases (hf : Flight c x y) (hy : y.isOpen = false) :
    ∃ hs : Chronicle, y.chronicle = x.chronicle ++ hs ∧
      ((∃ k ∈ hs, k.endsLink = true) ∧ y.arrivals = .empty ∨
        x.isOpen = false ∧ ((∀ k ∈ hs, k.isReceived = false) → y.arrivals = x.arrivals)) := by
  cases hf with
  | settle link => exact ⟨[], (List.append_nil _).symm, .inr ⟨hy, fun _ => rfl⟩⟩
  | remark k hr => exact ⟨[k], rfl, .inr ⟨hy, fun _ => rfl⟩⟩
  | receive f =>
      refine ⟨[.received f], rfl, .inr ⟨hy, fun hnone => ?_⟩⟩
      cases hnone _ (List.mem_singleton_self _)
  | linkClosed n =>
      rw [linkClosed_eq]
      exact ⟨closingNotes c x n, rfl, .inl ⟨⟨.linkClosed n (x.phase.forward n), by simp [closingNotes], rfl⟩, rfl⟩⟩
  | close cause ho hcause =>
      exact ⟨[.closing cause, .cleared x.arrivals.size, .released], by simp [letGo],
        .inl ⟨⟨.released, by simp, rfl⟩, rfl⟩⟩

/-- A client that was closed in flight has nothing waiting, provided no frame came behind the closing. -/
theorem InFlight.arrivals_eq_empty (hf : InFlight c x y) (hx : x.isOpen = true) (hy : y.isOpen = false) :
    ∃ hs : Chronicle, y.chronicle = x.chronicle ++ hs ∧ (∃ k ∈ hs, k.endsLink = true) ∧
      (hs.Hushed → y.arrivals = .empty) := by
  induction hf with
  | refl =>
      rw [hx] at hy
      cases hy
  | @tail y z hxy hyz ih =>
      -- Either the last thing to happen has closed the client, or it came behind the closing and was no frame.
      obtain ⟨ks, hchronicle, ⟨hends, hempty⟩ | ⟨hclosed, hstays⟩⟩ := hyz.closed_cases hy
      · obtain ⟨hs, hbefore, -⟩ := InFlight.adds hxy
        obtain ⟨k, hk, hend⟩ := hends
        refine ⟨hs ++ ks, ?_, ⟨k, List.mem_append_right hs hk, hend⟩, fun _ => hempty⟩
        rw [hchronicle, hbefore, List.append_assoc]
      · obtain ⟨hs, hbefore, ⟨k, hk, hend⟩, hlast⟩ := ih hclosed
        refine ⟨hs ++ ks, ?_, ⟨k, List.mem_append_left ks hk, hend⟩, fun hhushed => ?_⟩
        · rw [hchronicle, hbefore, List.append_assoc]
        · obtain ⟨hfront, -, hbehind⟩ := List.pairwise_append.mp hhushed
          exact (hstays fun l hl => hbehind k hk l hl hend).trans (hlast hfront)

end Exchange

/-- A client that is closed and has seen no reset. -/
theorem Phase.eq_closed_false {p : Phase} (ho : p.isOpen = false) (hr : p.sawReset = false) : p = .closed false := by
  cases p with
  | opened => cases ho
  | closed byReset => exact congrArg Phase.closed hr

namespace Client

variable {c : Connection σ} {k : Client σ} {call : Call} {request : Frame} {octets : Octets}

/-- A call that has a request to send does nothing else but make it. -/
theorem perform_of_requestOf (ho : k.isOpen = true) (hr : k.requestOf call = some request) :
    ∃ awaited reply, request.service.confirmation? = some awaited ∧
      k.perform c call = ((k.exchange.request c request awaited).1.map reply,
        { k with exchange := (k.exchange.request c request awaited).2 }) := by
  cases call with
  | get object pid first elements =>
      obtain ⟨a, ha, rfl⟩ := exists_address_of_request hr
      refine ⟨.readConfirmation, .data, rfl, ?_⟩
      rw [perform, get, access_of_address c _ _ ho ha]
  | set object pid first elements data =>
      obtain ⟨a, ha, rfl⟩ := exists_address_of_request hr
      refine ⟨.writeConfirmation, fun _ => .done, rfl, ?_⟩
      rw [perform, set_of_address c ho ha]
      dsimp only
      generalize k.exchange.request c _ .writeConfirmation = o
      rcases o with ⟨_ | _, _⟩ <;> rfl
  | describe object pid index => cases hr
  | reset => cases hr
  | close => cases hr
  | receive octets => cases hr
  | linkClosed n => cases hr

/-- What becomes of a request if the client is closed while it is in flight. -/
structure Interrupted (c : Connection σ) (k : Client σ) (call : Call) (sent : Except Fault Unit) : Prop where
  failed : ∀ e, sent = .error e → (k.perform c call).1 = .error e
  unconfirmed : sent = .ok () → (k.perform c call).1 = .error .confirmationExpected
  phase : (k.perform c call).2.exchange.phase = .closed false
  arrivals : (k.perform c call).2.exchange.arrivals = .empty

theorem interrupted_of_transmit (ho : k.isOpen = true) (hr : k.requestOf call = some request)
    {sent : Except Fault Unit} {y : Exchange σ} (ht : k.transmit c request = (sent, y))
    (hphase : y.phase = .closed false) (hempty : y.arrivals = .empty) : Interrupted c k call sent := by
  obtain ⟨awaited, reply, -, hperform⟩ := perform_of_requestOf (c := c) ho hr
  have hx : k.exchange.isOpen = true := ho
  rw [transmit] at ht
  rw [Exchange.request, if_pos hx, ht] at hperform
  cases sent with
  | error e =>
      refine ⟨fun e' he' => ?_, fun hok => ?_, ?_, ?_⟩
      · rw [hperform, ← Except.error.inj he']
        rfl
      · cases hok
      · rw [hperform]
        exact hphase
      · rw [hperform]
        exact hempty
  | ok u =>
      -- The search begins with nothing to look at.
      have hscan : y.scan c awaited = (.error .confirmationExpected, y.searched [] []) := by
        have hnone : ∀ g ∈ y.arrivals.frames, Exchange.Passes awaited g := by simp [hempty]
        have hframes : y.arrivals.frames = [] := by rw [hempty]; rfl
        rw [Exchange.scan_exhausted c hnone, hframes]
      simp only [hscan] at hperform
      refine ⟨fun e' he' => ?_, fun _ => ?_, ?_, ?_⟩
      · cases he'
      · rw [hperform]
        rfl
      · rw [hperform]
        exact hphase
      · rw [hperform]
        rfl

/-- A request does not outlive its client. If the client is closed while the sending is in flight, by its caller or
by the link, and no frame is delivered behind that, the call fails: with the fault of the sending, or for want of a
confirmation if the sending succeeds nevertheless. What came before the closing is lost, so no reset is seen. -/
theorem closing_interrupts_request (ho : k.isOpen = true) (hr : k.requestOf call = some request)
    (he : request.encode = .ok octets) :
    (∃ sent y, ∃ hs : Chronicle, k.transmit c request = (sent, y) ∧
      y.chronicle = k.exchange.chronicle ++ [.sending request, .handed ⟨octets, .confirmation⟩] ++ hs ∧
      (y.isOpen = false → hs.Hushed → Interrupted c k call sent)) ∧
    Fault.confirmationExpected.kind = .invalidResponse ∧
    Fault.confirmationExpected.detail = "confirmation expected" := by
  refine ⟨?_, rfl, rfl⟩
  have hflight := inFlight_of_transmission k (Exchange.transmission_of_encode c he)
  rcases ht : k.transmit c request with ⟨sent, y⟩
  rw [ht] at hflight
  obtain ⟨hs, hchronicle, -⟩ := Exchange.InFlight.adds hflight
  refine ⟨sent, y, hs, rfl, ?_, fun hclosed hhushed => ?_⟩
  · rw [hchronicle]
    simp
  · obtain ⟨ks, hchronicle', -, hempty⟩ := Exchange.InFlight.arrivals_eq_empty hflight ho hclosed
    obtain rfl : hs = ks := List.append_cancel_left (hchronicle.symm.trans hchronicle')
    have hreset : y.phase.sawReset = false := by
      rw [Exchange.InFlight.sawReset_eq hflight]
      exact congrArg Phase.sawReset (Exchange.phase_eq_opened ho)
    exact interrupted_of_transmit ho hr ht (Phase.eq_closed_false hclosed hreset) (hempty hhushed)

end Client

namespace Simulation

/-- A device without an object list. It answers the first transmission after the opening and resets itself, and then
the link breaks; the transmission counts as sent all the same. -/
def Scripted.lost : Scripted :=
  ⟨⟨none, none, [(⟨ObjectType.cemiServer, 1, PropertyId.commMode⟩, ⟨[0], true⟩)]⟩, false,
    [⟨true, [], [], none, [], .ok ()⟩, ⟨true, [], [[0xf0]], some ⟨.internal, "link lost"⟩, [], .ok ()⟩],
    none, none, 0, true, []⟩

end Simulation

/-- The confirmation of a read and a reset indication have come when the link breaks, and neither is found. -/
theorem Client.closing_interrupts_request_lost :
    ∃ k, start (Scripted.connection .plain) .lost = .opened k ∧
      ∃ y, ∃ hs : Chronicle,
        k.transmit (Scripted.connection .plain) (.reading 8 1 PropertyId.commMode 1 1) = (.ok (), y) ∧
        y.isOpen = false ∧ hs.Hushed ∧
        hs.received = [⟨.readConfirmation, 8, 1, PropertyId.commMode, 1, 1, [0]⟩, .bare .resetIndication] ∧
        y.chronicle = k.exchange.chronicle ++ [.sending (.reading 8 1 PropertyId.commMode 1 1),
          .handed ⟨[0xfc, 0, 8, 1, 52, 0x10, 1], .confirmation⟩] ++ hs ∧
        Interrupted (Scripted.connection .plain) k (.get 1 PropertyId.commMode 1 1) (.ok ()) := by
  obtain ⟨k, y, hk, ho, hr, he, ht, hclosed, hhushed, hreceived⟩ :
      ∃ k y, start (Scripted.connection .plain) .lost = .opened k ∧ k.isOpen = true ∧
        k.requestOf (.get 1 PropertyId.commMode 1 1) = some (.reading 8 1 PropertyId.commMode 1 1) ∧
        (Frame.reading 8 1 PropertyId.commMode 1 1).encode = .ok [0xfc, 0, 8, 1, 52, 0x10, 1] ∧
        k.transmit (Scripted.connection .plain) (.reading 8 1 PropertyId.commMode 1 1) = (.ok (), y) ∧
        y.isOpen = false ∧ Chronicle.Hushed (y.chronicle.drop (k.exchange.chronicle.length + 2)) ∧
        Chronicle.received (y.chronicle.drop (k.exchange.chronicle.length + 2)) =
          [⟨.readConfirmation, 8, 1, PropertyId.commMode, 1, 1, [0]⟩, .bare .resetIndication] :=
    ⟨_, _, rfl, rfl, rfl, rfl, rfl, rfl, by decide +kernel, rfl⟩
  obtain ⟨⟨sent, y', hs, ht', hchronicle, hinterrupted⟩, -⟩ :=
    closing_interrupts_request (c := Scripted.connection .plain) ho hr he
  obtain ⟨rfl, rfl⟩ := Prod.mk.inj (ht.symm.trans ht')
  have hs_eq : y.chronicle.drop (k.exchange.chronicle.length + 2) = hs := by
    rw [hchronicle]
    exact List.drop_left' (by simp)
  rw [hs_eq] at hhushed hreceived
  exact ⟨k, hk, y, hs, ht, hclosed, hhushed, hreceived, hchronicle, hinterrupted hclosed hhushed⟩

end BusManagement
