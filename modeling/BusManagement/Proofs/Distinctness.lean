import BusManagement.Proofs.Rejections

/-! What a device can tell of a call. A request names its object by type and instance instead of the index, and packs
the range into two octets. Still nothing gets lost: no two objects share an address, whatever does not fit is rejected
instead of cut, and a frame comes back from its octets as it was. So two calls that hand over the same octets are the
same call, whenever they are made. -/

namespace BusManagement

open Simulation (Scripted)

variable {σ : Type}

/-- The request names the object of the call by its address, and repeats the rest of the call. -/
inductive Call.Tells (d : ObjectList) : Call → Frame → Prop
  | get {object : UInt16} {a : ObjectAddress} (ha : d.address object = .ok a) (pid : UInt8) (first : UInt16)
      (elements : UInt8) :
      Tells d (.get object pid first elements) (.reading a.objectType a.objectInstance pid first elements)
  | set {object : UInt16} {a : ObjectAddress} (ha : d.address object = .ok a) (pid : UInt8) (first : UInt16)
      (elements : UInt8) (data : Octets) :
      Tells d (.set object pid first elements data)
        (.writing a.objectType a.objectInstance pid first elements data)

section Requests

variable {d : ObjectList} {call call' : Call} {request request' : Frame}

theorem ObjectList.eq_of_address_eq {object object' : UInt16} {a a' : ObjectAddress} (ha : d.address object = .ok a)
    (ha' : d.address object' = .ok a') (ht : a.objectType = a'.objectType)
    (hn : a.objectInstance = a'.objectInstance) : object = object' := by
  obtain ⟨t, n⟩ := a
  obtain rfl : t = a'.objectType := ht
  obtain rfl : n = a'.objectInstance := hn
  exact address_injective ha ha'

/-- Different calls make different requests. -/
theorem Call.Tells.call_eq (h : call.Tells d request) (h' : call'.Tells d request') (heq : request = request') :
    call = call' := by
  cases h with
  | get ha =>
      cases h' with
      | get ha' =>
          simp only [Frame.reading, Frame.mk.injEq] at heq
          obtain ⟨-, ht, hn, rfl, rfl, rfl, -⟩ := heq
          rw [ObjectList.eq_of_address_eq ha ha' ht hn]
      | set => cases congrArg Frame.service heq
  | set ha =>
      cases h' with
      | get => cases congrArg Frame.service heq
      | set ha' =>
          simp only [Frame.writing, Frame.mk.injEq] at heq
          obtain ⟨-, ht, hn, rfl, rfl, rfl, rfl⟩ := heq
          rw [ObjectList.eq_of_address_eq ha ha' ht hn]

theorem Call.Tells.request_eq (h : call.Tells d request) (h' : call.Tells d request') : request = request' := by
  cases h with
  | get ha =>
      cases h' with
      | get ha' => rw [Except.ok.inj (ha.symm.trans ha')]
  | set ha =>
      cases h' with
      | set ha' => rw [Except.ok.inj (ha.symm.trans ha')]

theorem Call.Tells.hasHeader (h : call.Tells d request) : request.service.hasHeader = true := by
  cases h <;> rfl

/-- The octets tell the call. -/
theorem Call.Tells.octets_eq_iff (h : call.Tells d request) (h' : call'.Tells d request') {octets octets' : Octets}
    (he : request.encode = .ok octets) (he' : request'.encode = .ok octets') : octets = octets' ↔ call = call' := by
  constructor
  · rintro rfl
    have hdecode := Frame.decode_of_encode h.hasHeader he
    have hdecode' := Frame.decode_of_encode h'.hasHeader he'
    exact h.call_eq h' (Except.ok.inj (hdecode.symm.trans hdecode'))
  · rintro rfl
    rw [h.request_eq h', he'] at he
    exact (Except.ok.inj he).symm

end Requests

namespace Client

variable {c : Connection σ} {k : Client σ} {object object' first first' : UInt16} {elements elements' : UInt8}
  {call call' : Call} {t t' : Transmission}

/-- In the course of the call, the client hands over the transmission. -/
def HandsOver (c : Connection σ) (k : Client σ) (call : Call) (t : Transmission) : Prop :=
  ∃ ts, (k.perform c call).2.exchange.chronicle.transmissions = k.exchange.chronicle.transmissions ++ ts ∧ t ∈ ts

theorem tells_of_requestOf (hc : call.Accesses object first elements) {request : Frame}
    (hr : k.requestOf call = some request) : call.Tells k.objects request := by
  cases hc with
  | get pid =>
      obtain ⟨a, ha, rfl⟩ := exists_address_of_request hr
      exact .get ha pid first elements
  | set pid data =>
      obtain ⟨a, ha, rfl⟩ := exists_address_of_request hr
      exact .set ha pid first elements data

theorem perform_of_closed (ho : k.isOpen = false) (hc : call.Accesses object first elements) :
    k.perform c call = (.error (Exchange.closedFault c), k) :=
  perform_of_access_error hc (access_of_closed c ho object)

/-- A call that hands something over has not been rejected, and hands over nothing but its request. -/
theorem HandsOver.exists_request (h : k.HandsOver c call t) (hc : call.Accesses object first elements) :
    ∃ request, call.Tells k.objects request ∧ request.encode = .ok t.octets := by
  obtain ⟨ts, hts, hmem⟩ := h
  have hsome : ¬(k.perform c call).2.exchange.chronicle.transmissions = k.exchange.chronicle.transmissions := by
    intro hsame
    rw [hsame, List.self_eq_append_right] at hts
    rw [hts] at hmem
    cases hmem
  cases ho : k.isOpen with
  | false =>
      rw [perform_of_closed ho hc] at hsome
      exact absurd rfl hsome
  | true =>
      obtain ⟨request, octets, hr, he, hsent⟩ :=
        transmissions_of_accepted (c := c) ho hc (mt (transmissions_eq_iff ho hc).mpr hsome)
      obtain rfl := List.append_cancel_left (hsent.symm.trans hts)
      obtain rfl := List.mem_singleton.mp hmem
      exact ⟨request, tells_of_requestOf hc hr, he⟩

/-- Whatever objects a client has, and whatever it has done before: two accesses of it that hand over the same octets
are the same operation on the same object, with the same property id, start, number of elements and data. The same
access always hands over the same octets. -/
theorem octets_tell_call (c : Connection σ) (k : Client σ) (earlier earlier' : List Call)
    (hc : call.Accesses object first elements) (hc' : call'.Accesses object' first' elements')
    (h : (k.run c earlier).2.HandsOver c call t) (h' : (k.run c earlier').2.HandsOver c call' t') :
    t.octets = t'.octets ↔ call = call' := by
  obtain ⟨request, htells, he⟩ := h.exists_request hc
  obtain ⟨request', htells', he'⟩ := h'.exists_request hc'
  rw [(leads_run c k earlier).objects] at htells
  rw [(leads_run c k earlier').objects] at htells'
  exact htells.octets_eq_iff htells' he he'

/-- Writes a mode. -/
def modeWrite : Call := .set 1 PropertyId.commMode 1 1 [5]

/-- Written for the second time, the mode is written with the octets of the first. The octets of a read that starts 256
elements later differ in one bit only, but they differ. -/
theorem octets_tell_call_mode :
    ∃ k t t' u u', start (Scripted.connection .plain) .modeAndMedium = .opened k ∧
      k.HandsOver (Scripted.connection .plain) modeWrite t ∧
      (k.run (Scripted.connection .plain) [modeWrite, .get 1 PropertyId.commMode 1 1]).2.HandsOver
        (Scripted.connection .plain) modeWrite t' ∧
      t.octets = t'.octets ∧
      k.HandsOver (Scripted.connection .plain) (.get 1 PropertyId.commMode 1 1) u ∧
      k.HandsOver (Scripted.connection .plain) (.get 1 PropertyId.commMode 257 1) u' ∧ u.octets ≠ u'.octets := by
  obtain ⟨k, t, t', u, u', hk, h, h', hu, hu'⟩ : ∃ k t t' u u',
      start (Scripted.connection .plain) .modeAndMedium = .opened k ∧
      k.HandsOver (Scripted.connection .plain) modeWrite t ∧
      (k.run (Scripted.connection .plain) [modeWrite, .get 1 PropertyId.commMode 1 1]).2.HandsOver
        (Scripted.connection .plain) modeWrite t' ∧
      k.HandsOver (Scripted.connection .plain) (.get 1 PropertyId.commMode 1 1) u ∧
      k.HandsOver (Scripted.connection .plain) (.get 1 PropertyId.commMode 257 1) u' :=
    ⟨_, _, _, _, _, rfl, ⟨[_], rfl, List.mem_singleton_self _⟩, ⟨[_], rfl, List.mem_singleton_self _⟩,
      ⟨[_], rfl, List.mem_singleton_self _⟩, ⟨[_], rfl, List.mem_singleton_self _⟩⟩
  have hsame := octets_tell_call _ k [] _ (.set _ _) (.set _ _) h h'
  have hother := octets_tell_call _ k [] [] (.get _) (.get _) hu hu'
  exact ⟨k, t, t', u, u', hk, h, h', hsame.mpr rfl, hu, hu', mt hother.mp (by decide)⟩

end Client

end BusManagement
