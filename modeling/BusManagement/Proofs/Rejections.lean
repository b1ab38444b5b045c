import BusManagement.Proofs.Addressing
import BusManagement.Proofs.Interruption
import BusManagement.Proofs.Resumption

/-! Calls that are rejected. A call is checked three times on its way to the link: the object has to be listed, its
instance has to fit into an octet, and the range has to fit into a frame, which is found out as late as the octets are
written. The first check that fails tells why, and whichever it is, nothing but the log remembers the call. A call that
passes all of them hands over one request. A query for a property of an object that is not listed fails, too; by
position it takes a pass through all property ids to find that out, of which none is asked for. -/

namespace BusManagement

open Simulation (Scripted)

variable {σ : Type}

/-- The call reads or writes elements of a property of an object. -/
inductive Call.Accesses (object first : UInt16) (elements : UInt8) : Call → Prop
  | get (pid : UInt8) : Accesses object first elements (.get object pid first elements)
  | set (pid : UInt8) (data : Octets) : Accesses object first elements (.set object pid first elements data)

/-- The first check that an access to these objects does not pass. -/
inductive ObjectList.Rejects (d : ObjectList) (object first : UInt16) (elements : UInt8) : Fault → Prop
  | unlisted (h : d.types.length ≤ object.toNat) : Rejects d object first elements (.objectNotListed object)
  | beyond {t : UInt16} {n : Nat} (ht : d.types[object.toNat]? = some t)
      (hn : (d.places t (object.toNat + 1)).length = n) (h : 255 < n) :
      Rejects d object first elements (.instanceOutOfRange n)
  | tooMany {a : ObjectAddress} (ha : d.address object = .ok a) (h : 15 < elements) :
      Rejects d object first elements (.tooManyElements elements)
  | tooFar {a : ObjectAddress} (ha : d.address object = .ok a) (he : elements ≤ 15) (h : 0xfff < first) :
      Rejects d object first elements (.startOutOfRange first)

section Checks

variable {d : ObjectList} {object first : UInt16} {elements : UInt8} {a : ObjectAddress} {f : Frame} {e : Fault}

/-- The check of the object comes first. -/
theorem ObjectList.rejects_of_address (h : d.address object = .error e) : d.Rejects object first elements e := by
  have haddressed := d.addressed object
  rw [h] at haddressed
  cases haddressed with
  | unlisted hnone => exact .unlisted (List.getElem?_eq_none_iff.mp hnone)
  | beyond ht hn =>
      rw [instances_eq] at hn ⊢
      exact .beyond ht rfl hn

theorem ObjectList.rejects_of_encode (ha : d.address object = .ok a) (hh : f.service.hasHeader = true)
    (h : f.encode = .error e) : d.Rejects object f.start f.elements e := by
  rw [Frame.encode, if_pos hh] at h
  split_ifs at h with he hs
  · rw [← Except.error.inj h]
    exact .tooFar ha he (UInt16.not_le.mp hs)
  · rw [← Except.error.inj h]
    exact .tooMany ha (UInt8.not_le.mp he)

/-- An access that is rejected has no address to be sent to, or no octets. -/
theorem ObjectList.Rejects.address_or_encode (h : d.Rejects object first elements e) :
    d.address object = .error e ∨ ∃ a, d.address object = .ok a ∧
      ∀ f : Frame, f.service.hasHeader = true → f.start = first → f.elements = elements → f.encode = .error e := by
  cases h with
  | unlisted hle => exact .inl (Addressed.unlisted (List.getElem?_eq_none hle)).address_eq
  | beyond ht hn hgt =>
      rw [← instances_eq] at hn
      subst hn
      exact .inl (Addressed.beyond ht hgt).address_eq
  | tooMany ha hgt =>
      refine .inr ⟨_, ha, fun f hh _ helements => ?_⟩
      have hmany : ¬f.elements ≤ Frame.maxElements := UInt8.not_le.mpr (helements ▸ hgt)
      rw [Frame.encode, if_pos hh, if_neg hmany, helements]
  | tooFar ha hle hgt =>
      refine .inr ⟨_, ha, fun f hh hstart helements => ?_⟩
      have hfew : f.elements ≤ Frame.maxElements := helements ▸ hle
      have hfar : ¬f.start ≤ Frame.maxStart := UInt16.not_le.mpr (hstart ▸ hgt)
      rw [Frame.encode, if_pos hh, if_pos hfew, if_neg hfar, hstart]

theorem ObjectList.Rejects.kind (h : d.Rejects object first elements e) :
    e.kind = if d.types.length ≤ object.toNat then .remote else .invalidData := by
  have hlisted {a : ObjectAddress} (ha : d.address object = .ok a) : ¬d.types.length ≤ object.toNat := by
    intro hle
    rw [(Addressed.unlisted (List.getElem?_eq_none hle)).address_eq] at ha
    cases ha
  cases h with
  | unlisted hle => rw [if_pos hle]; rfl
  | beyond ht _ _ =>
      have hlt := (List.getElem?_eq_some_iff.mp ht).1
      rw [if_neg (Nat.not_le.mpr hlt)]
      rfl
  | tooMany ha _ => rw [if_neg (hlisted ha)]; rfl
  | tooFar ha _ _ => rw [if_neg (hlisted ha)]; rfl

end Checks

/-- A bookmark in an object is in one that is listed. -/
def Bookmark.Listed (d : ObjectList) : Bookmark → Prop
  | .start => True
  | .found object _ _ => object.toNat < d.types.length

theorem Bookmark.Listed.forQuery {d : ObjectList} {b : Bookmark} (hb : b.Listed d) (object : UInt16) (pid : UInt8)
    (index : UInt16) : (b.forQuery object pid index).Listed d := by
  rw [Bookmark.forQuery]
  split_ifs
  · exact hb
  · trivial

/-- No query about an object that is not listed goes on from such a bookmark. -/
theorem Bookmark.Listed.forQuery_eq_start {d : ObjectList} {b : Bookmark} (hb : b.Listed d) {object : UInt16}
    (h : d.types.length ≤ object.toNat) (pid : UInt8) (index : UInt16) : b.forQuery object pid index = .start := by
  refine Bookmark.resumes_iff.mp (.anew fun i p hfound _ _ => ?_)
  rw [hfound] at hb
  exact absurd hb (Nat.not_lt.mpr h)

namespace Client

/-- Nothing has happened to the client but what the log tells. -/
structure Untouched (k k' : Client σ) : Prop where
  objects : k'.objects = k.objects
  bookmark : k'.bookmark = k.bookmark
  link : k'.exchange.link = k.exchange.link
  arrivals : k'.exchange.arrivals = k.exchange.arrivals
  phase : k'.exchange.phase = k.exchange.phase
  remarks : ∃ hs : Chronicle, k'.exchange.chronicle = k.exchange.chronicle ++ hs ∧ ∀ h ∈ hs, h.isRemark = true

variable {c : Connection σ} {k : Client σ} {object first index : UInt16} {elements pid : UInt8} {call : Call} {e : Fault}

theorem Untouched.refl (k : Client σ) : k.Untouched k := ⟨rfl, rfl, rfl, rfl, rfl, [], by simp, by simp⟩

theorem untouched_note (k : Client σ) {h : Happening} (hr : h.isRemark = true) :
    k.Untouched { k with exchange := k.exchange.note h } :=
  ⟨rfl, rfl, rfl, rfl, rfl, [h], rfl, by simpa using hr⟩

theorem Untouched.transmissions {k' : Client σ} (h : k.Untouched k') :
    k'.exchange.chronicle.transmissions = k.exchange.chronicle.transmissions := by
  obtain ⟨hs, hc, hr⟩ := h.remarks
  have hnone := Chronicle.transmissions_of_inFlight fun h hh => Happening.inFlight_of_isRemark (hr h hh)
  rw [hc, Chronicle.transmissions_append, hnone, List.append_nil]

/-! ### Accesses -/

/-- An access that comes to nothing leaves the client as it was. -/
theorem perform_of_access_error (hc : call.Accesses object first elements)
    (h : ∀ requestTo awaited, k.access c object requestTo awaited = (.error e, k)) :
    k.perform c call = (.error e, k) := by
  cases hc with
  | get pid =>
      rw [perform, get, h]
      rfl
  | set pid data =>
      rw [perform, set, h]
      rfl

theorem perform_of_address_error (ho : k.isOpen = true) (hc : call.Accesses object first elements)
    (he : k.objects.address object = .error e) : k.perform c call = (.error e, k) :=
  perform_of_access_error hc fun requestTo awaited => access_of_unlisted c requestTo awaited ho he

/-- The request of an access covers the range that the caller gave. -/
theorem exists_requestOf (hc : call.Accesses object first elements) {a : ObjectAddress}
    (ha : k.objects.address object = .ok a) :
    ∃ f, k.requestOf call = some f ∧ f.service.hasHeader = true ∧ f.start = first ∧ f.elements = elements := by
  cases hc with
  | get pid => exact ⟨_, by rw [requestOf, ha]; rfl, rfl, rfl, rfl⟩
  | set pid data => exact ⟨_, by rw [requestOf, ha]; rfl, rfl, rfl, rfl⟩

theorem perform_of_encode_error (ho : k.isOpen = true) {request : Frame} (hr : k.requestOf call = some request)
    (he : request.encode = .error e) :
    k.perform c call = (.error e, { k with exchange := k.exchange.note (.sending request) }) := by
  obtain ⟨awaited, reply, -, hperform⟩ := perform_of_requestOf (c := c) ho hr
  rw [hperform, Exchange.request_of_encode_error ho he]
  rfl

theorem transmissions_perform (ho : k.isOpen = true) {request : Frame} (hr : k.requestOf call = some request)
    {octets : Octets} (he : request.encode = .ok octets) :
    (k.perform c call).2.exchange.chronicle.transmissions =
      k.exchange.chronicle.transmissions ++ [⟨octets, .confirmation⟩] := by
  obtain ⟨awaited, reply, hs, hperform⟩ := perform_of_requestOf (c := c) ho hr
  rw [hperform]
  exact Exchange.transmissions_request ho he (Service.ne_resetIndication_of_confirmation? hs)

theorem perform_of_rejects (ho : k.isOpen = true) (hc : call.Accesses object first elements)
    (hr : k.objects.Rejects object first elements e) :
    (k.perform c call).1 = .error e ∧ k.Untouched (k.perform c call).2 := by
  rcases hr.address_or_encode with he | ⟨a, ha, hencode⟩
  · rw [perform_of_address_error ho hc he]
    exact ⟨rfl, .refl k⟩
  · obtain ⟨f, hf, hh, hstart, helements⟩ := exists_requestOf hc ha
    rw [perform_of_encode_error ho hf (hencode f hh hstart helements)]
    exact ⟨rfl, untouched_note k rfl⟩

/-- An access that passes the checks hands its request over. -/
theorem transmissions_of_accepted (ho : k.isOpen = true) (hc : call.Accesses object first elements)
    (hr : ¬∃ e, k.objects.Rejects object first elements e) :
    ∃ request octets, k.requestOf call = some request ∧ request.encode = .ok octets ∧
      (k.perform c call).2.exchange.chronicle.transmissions =
        k.exchange.chronicle.transmissions ++ [⟨octets, .confirmation⟩] := by
  cases ha : k.objects.address object with
  | error e => exact absurd ⟨e, ObjectList.rejects_of_address ha⟩ hr
  | ok a =>
      obtain ⟨f, hf, hh, rfl, rfl⟩ := exists_requestOf hc ha
      cases he : f.encode with
      | error e => exact absurd ⟨e, ObjectList.rejects_of_encode ha hh he⟩ hr
      | ok octets => exact ⟨f, octets, hf, he, transmissions_perform ho hf he⟩

/-- A client that has handed nothing over has rejected the access. -/
theorem transmissions_eq_iff (ho : k.isOpen = true) (hc : call.Accesses object first elements) :
    (k.perform c call).2.exchange.chronicle.transmissions = k.exchange.chronicle.transmissions ↔
      ∃ e, k.objects.Rejects object first elements e := by
  constructor
  · intro hsame
    by_contra hr
    obtain ⟨request, octets, -, -, hsent⟩ := transmissions_of_accepted (c := c) ho hc hr
    rw [hsame] at hsent
    simp at hsent
  · rintro ⟨e, hr⟩
    exact (perform_of_rejects ho hc hr).2.transmissions

/-! ### Queries about an object that is not listed -/

section Unlisted

variable (ho : k.isOpen = true) (h : k.objects.types.length ≤ object.toNat)

include ho h

theorem getFirst_of_unlisted (pid : UInt8) : k.getFirst c object pid = (.error (.objectNotListed object), k) := by
  have haddress := (ObjectList.Addressed.unlisted (List.getElem?_eq_none h)).address_eq
  rw [getFirst, get, access_of_unlisted c _ _ ho haddress]

/-- A search that still misses a property takes every refusal for an id without a property, and comes to its end. -/
theorem search_of_unlisted (last : UInt8) (value : Option Octets) (missing : Nat) (pids : List UInt8) :
    search c object last value (missing + 1) pids k = (.exhausted, k) := by
  induction pids with
  | nil => rfl
  | cons pid rest ih =>
      rw [search, getFirst_of_unlisted ho h]
      exact ih

/-- Without a bookmark at least one property is missing, so the search does ask. -/
theorem locate_of_unlisted (hb : k.bookmark = .start) (index : UInt16) :
    k.locate c object index = (.error (.positionNotFound object index), { k with bookmark := .start }) := by
  have hmissing : index.toNat + 1 - Bookmark.start.count = index.toNat + 1 := rfl
  rw [locate, hb, hmissing, search_of_unlisted ho h]

theorem describe_of_unlisted (hb : k.bookmark.Listed k.objects) (pid : UInt8) (index : UInt16) :
    k.describe c object pid index =
      (.error (if pid = 0 then .positionNotFound object index else .objectNotListed object),
        { k with bookmark := .start }) := by
  have hqueried : k.queried object pid index = { k with bookmark := .start } := by
    rw [queried, hb.forQuery_eq_start h]
  refine describe_of_missed ho ?_
  rw [hqueried, select]
  split_ifs
  · exact locate_of_unlisted (k := { k with bookmark := .start }) ho h rfl index
  · rw [getFirst_of_unlisted (k := { k with bookmark := .start }) ho h]

end Unlisted

theorem listed_locate (hb : k.bookmark.Listed k.objects) (h : object.toNat < k.objects.types.length) :
    (k.locate c object index).2.bookmark.Listed k.objects := by
  have hkeep := keeps_search (covers_any c k.objects object) (pidsAfter k.bookmark.pid)
    (index.toNat + 1 - k.bookmark.count) k.bookmark.pid none
  rw [locate]
  rcases hsearch : search c object k.bookmark.pid none (index.toNat + 1 - k.bookmark.count)
    (pidsAfter k.bookmark.pid) k with ⟨r, k'⟩
  rw [hsearch] at hkeep
  cases r with
  | found pid value => exact h
  | exhausted => trivial
  | failed e => exact hkeep.bookmark ▸ hb

theorem listed_describe (hb : k.bookmark.Listed k.objects) (pid : UInt8) :
    (k.describe c object pid index).2.bookmark.Listed k.objects := by
  by_cases ho : k.isOpen = true
  -- Only a query about an object that is listed can leave a bookmark behind, whatever it has found.
  · by_cases h : k.objects.types.length ≤ object.toNat
    · rw [describe_of_unlisted ho h hb]
      trivial
    · by_cases hpid : pid = 0
      · rw [bookmark_describe ho, select, if_pos hpid]
        exact listed_locate (k := k.queried object pid index) (hb.forQuery object pid index) (Nat.not_le.mp h)
      · rw [bookmark_describe_of_pid ho hpid]
        trivial
  · rw [describe, if_neg ho]
    exact hb

theorem listed_perform (hb : k.bookmark.Listed k.objects) (call : Call) :
    (k.perform c call).2.bookmark.Listed (k.perform c call).2.objects := by
  rw [(leads_perform c k call).objects]
  cases hp : call.position? with
  | none => exact (bookmark_perform hp).symm ▸ hb
  | some index =>
      cases call with
      | describe object pid index => exact listed_describe hb pid
      | _ => cases hp

/-- A bookmark never leaves the objects that are listed. -/
theorem listed_run (hb : k.bookmark.Listed k.objects) (calls : List Call) :
    (k.run c calls).2.bookmark.Listed (k.run c calls).2.objects := by
  induction calls generalizing k with
  | nil => exact hb
  | cons call rest ih => exact ih (listed_perform hb call)

/-- At any moment of a run that finds the client open, a read or a write of elements is rejected in four cases: the
object is not listed, which is a fault of the remote side, or it is but its instance, the number of elements or the
start is too large, which is a fault of the data. Then it leaves no trace but in the log. In every other case it hands
over one request, the one for the address of the object with what the caller gave. A query about an object that is not
listed asks for nothing, fails with a fault of the remote side and leaves no bookmark. -/
theorem rejected_leaves_untouched (c : Connection σ) {link : σ} (hk : start c link = .opened k) (calls : List Call) :
    ∀ m, (k.run c calls).2 = m → m.isOpen = true →
      (∀ call object first elements, call.Accesses object first elements →
        (∀ e, m.objects.Rejects object first elements e →
          (m.perform c call).1 = .error e ∧ m.Untouched (m.perform c call).2 ∧
          e.kind = if m.objects.types.length ≤ object.toNat then .remote else .invalidData) ∧
        ((¬∃ e, m.objects.Rejects object first elements e) →
          ∃ request octets, m.requestOf call = some request ∧ request.encode = .ok octets ∧
            (m.perform c call).2.exchange.chronicle.transmissions =
              m.exchange.chronicle.transmissions ++ [⟨octets, .confirmation⟩]) ∧
        ((m.perform c call).2.exchange.chronicle.transmissions = m.exchange.chronicle.transmissions ↔
          ∃ e, m.objects.Rejects object first elements e)) ∧
      ∀ object : UInt16, m.objects.types.length ≤ object.toNat → ∀ pid index,
        ∃ e, m.describe c object pid index = (.error e, { m with bookmark := .start }) ∧ e.kind = .remote := by
  rintro m rfl ho
  have hb : (k.run c calls).2.bookmark.Listed (k.run c calls).2.objects := by
    refine listed_run ?_ calls
    rw [bookmark_of_start hk]
    trivial
  refine ⟨fun call object first elements hc => ⟨fun e he => ?rejected, fun hnone => ?accepted, ?handed⟩,
    fun object h pid index => ?unlisted⟩
  case rejected =>
    obtain ⟨hresult, huntouched⟩ := perform_of_rejects (c := c) ho hc he
    exact ⟨hresult, huntouched, he.kind⟩
  case accepted => exact transmissions_of_accepted ho hc hnone
  case handed => exact transmissions_eq_iff ho hc
  case unlisted =>
    refine ⟨_, describe_of_unlisted ho h hb pid index, ?_⟩
    split_ifs <;> rfl

/-- A query has left a bookmark. A read of too many elements from too far a start is rejected for the former, and the
bookmark is still there; a query about the third of two objects takes it away. -/
theorem rejected_leaves_untouched_modeAndMedium :
    ∃ k m, start (Scripted.connection .plain) .modeAndMedium = .opened k ∧
      (k.run (Scripted.connection .plain) [.describe 1 0 0]).2 = m ∧
      m.bookmark = .found 1 0 PropertyId.mediumType ∧
      (m.perform (Scripted.connection .plain) (.get 1 PropertyId.mediumType 4096 16)).1 =
        .error (.tooManyElements 16) ∧
      m.Untouched (m.perform (Scripted.connection .plain) (.get 1 PropertyId.mediumType 4096 16)).2 ∧
      ∃ e, m.describe (Scripted.connection .plain) 2 0 0 = (.error e, { m with bookmark := .start }) ∧
        e.kind = .remote := by
  obtain ⟨k, m, hk, hm, hb, ho, haddress, hlength⟩ : ∃ k m,
      start (Scripted.connection .plain) .modeAndMedium = .opened k ∧
      (k.run (Scripted.connection .plain) [.describe 1 0 0]).2 = m ∧
      m.bookmark = .found 1 0 PropertyId.mediumType ∧ m.isOpen = true ∧
      m.objects.address 1 = .ok ⟨ObjectType.cemiServer, 1⟩ ∧ m.objects.types.length = 2 :=
    ⟨_, _, rfl, rfl, rfl, rfl, rfl, rfl⟩
  obtain ⟨haccesses, hqueries⟩ :=
    rejected_leaves_untouched (Scripted.connection .plain) hk [.describe 1 0 0] m hm ho
  obtain ⟨hrejected, -, -⟩ := haccesses _ 1 4096 16 (.get PropertyId.mediumType)
  obtain ⟨hresult, huntouched, -⟩ := hrejected _ (.tooMany haddress (by decide))
  exact ⟨k, m, hk, hm, hb, hresult, huntouched, hqueries 2 (Nat.le_of_eq hlength) 0 0⟩

end Client

end BusManagement
