import BusManagement.Proofs.PropertyMap
import BusManagement.Proofs.Readings

/-! Finding out about writing without changing anything. A device has no answer to the question whether a property may
be written, so its own value is written to it. The value is the one that was read to find the property, and if it was
not read for that, because the bookmark stood there already, it is read now. Either way it is what the device holds, so
the device holds the same afterwards; and whether it took the write is what tells that the property may be written. -/

namespace BusManagement

open Exchange (Ready)
open Simulation (PropertyKey Property keyOf objectListKey Scripted)

variable {σ : Type}

namespace PropertyMap

variable {m : PropertyMap} {key : PropertyKey} {p : Property}

theorem exists_of_read {value : Octets} (h : m.read key = .ok value) : ∃ p, m key = some p ∧ p.value = value := by
  rw [read] at h
  cases hp : m key with
  | none =>
      rw [hp] at h
      cases h
  | some p =>
      rw [hp] at h
      exact ⟨p, rfl, Except.ok.inj h⟩

/-- A property that may be written and gets the value that it has is what it was. -/
theorem put_self (h : m key = some p) (hw : p.writable = true) : m.put key p.value = m := by
  funext l
  rw [put]
  by_cases hl : l = key
  · rw [if_pos hl, hl, h, ← hw]
  · rw [if_neg hl]

/-- To write the value that a property has changes nothing, and it tells whether the property may be written. -/
theorem write_self (h : m key = some p) :
    m.write key p.value = (if p.writable then .ok () else .error (.refused Refusal.readOnly), m) := by
  simp only [write, h]
  cases hw : p.writable with
  | true => rw [if_pos rfl, if_pos rfl, put_self h hw]
  | false => rfl

end PropertyMap

/-- A write of the first element of a property, as it is handed over. -/
def ObjectAddress.writeFirst (a : ObjectAddress) (pid : UInt8) (value : Octets) : Transmission :=
  ⟨(Frame.writing a.objectType a.objectInstance pid 1 1 value).layout, .confirmation⟩

theorem ObjectAddress.encode_writing (a : ObjectAddress) (pid : UInt8) (value : Octets) :
    (Frame.writing a.objectType a.objectInstance pid 1 1 value).encode = .ok (a.writeFirst pid value).octets := rfl

theorem ObjectAddress.carries_writeFirst (a : ObjectAddress) (pid : UInt8) (value : Octets) :
    (a.writeFirst pid value).Carries (.writing a.objectType a.objectInstance pid 1 1 value) :=
  Transmission.carries_of_encode rfl (a.encode_writing pid value)

/-! ### Calls about other objects than the device object -/

/-- The object is not the device object itself, which has the object list. -/
def ObjectAddress.IsOther (a : ObjectAddress) : Prop := a ≠ ⟨ObjectType.device, 1⟩

instance (a : ObjectAddress) : Decidable a.IsOther := inferInstanceAs (Decidable (a ≠ _))

theorem ObjectAddress.IsOther.property_ne {a : ObjectAddress} (h : a.IsOther) (pid : UInt8) :
    a.property pid ≠ objectListKey := by
  intro heq
  obtain ⟨htype, hinstance, -⟩ := Simulation.PropertyKey.mk.inj heq
  apply h
  rw [← htype, ← hinstance]

/-- The call reads, writes or describes a property of another object than the device object, or it is the link that
delivers something of no interest. -/
def Call.IsElsewhere (objects : ObjectList) : Call → Prop
  | .get object _ _ _ | .set object _ _ _ _ | .describe object _ _ =>
    ∀ a, objects.address object = .ok a → a.IsOther
  | .receive octets => octets.IsNoise
  | .reset | .close | .linkClosed _ => False

instance (objects : ObjectList) : (call : Call) → Decidable (call.IsElsewhere objects)
  | .get _ _ _ _ | .set _ _ _ _ _ | .describe _ _ _ => inferInstanceAs (Decidable (∀ _, _ → _))
  | .receive octets => inferInstanceAs (Decidable octets.IsNoise)
  | .reset | .close | .linkClosed _ => instDecidableFalse

namespace Client

variable {c : Connection σ} {I : σ → Prop} {map : σ → PropertyMap} {M : PropertyMap} {k k₁ : Client σ}
  {object index : UInt16} {a : ObjectAddress}

/-- A request about such an object is confirmed, so a client that is ready stays ready. -/
theorem covers_elsewhere (hs : c.link.Serves I map) {d : ObjectList}
    (hd : ∀ a, d.address object = .ok a → a.IsOther) : Covers c d object fun x y => Ready I x → Ready I y := by
  refine ⟨Exchange.spans_ready I, fun x f awaited hasks hx => ?_⟩
  cases hasks with
  | @read a ha pid first elements =>
      have hconfirms := hs.read x.link (.reading a.objectType a.objectInstance pid first elements) hx.link rfl
        ((hd a ha).property_ne pid)
      exact Exchange.ready_request hx (fun octets he => (hconfirms octets he).mono fun _ _ h => h.1) rfl
  | @write a ha pid first elements data =>
      have hconfirms := hs.write x.link (.writing a.objectType a.objectInstance pid first elements data) hx.link rfl
        ((hd a ha).property_ne pid)
      exact Exchange.ready_request hx (fun octets he => (hconfirms octets he).mono fun _ _ h => h.1) rfl

theorem ready_perform_elsewhere (hs : c.link.Serves I map) (hk : Ready I k.exchange) {call : Call}
    (hc : call.IsElsewhere k.objects) : Ready I (k.perform c call).2.exchange := by
  cases call with
  | get object pid first elements => exact (keeps_get (covers_elsewhere hs hc) pid first elements).exchange hk
  | set object pid first elements data => exact (keeps_set (covers_elsewhere hs hc) pid first elements data).exchange hk
  | describe object pid index => exact (leads_describe (covers_elsewhere hs hc) pid index).exchange hk
  | receive octets => exact Exchange.ready_receive hk hc
  | reset => exact hc.elim
  | close => exact hc.elim
  | linkClosed n => exact hc.elim

theorem ready_run_elsewhere (hs : c.link.Serves I map) {calls : List Call} (hk : Ready I k.exchange)
    (hc : ∀ call ∈ calls, call.IsElsewhere k.objects) : Ready I (k.run c calls).2.exchange := by
  induction calls generalizing k with
  | nil => exact hk
  | cons call rest ih =>
      obtain ⟨hcall, hrest⟩ := List.forall_mem_cons.mp hc
      rw [← (leads_perform c k call).objects] at hrest
      exact ih (ready_perform_elsewhere hs hk hcall) hrest

/-- A first element fits into a frame. -/
theorem one_le_max : (1 : UInt8) ≤ Frame.maxElements ∧ (1 : UInt16) ≤ Frame.maxStart := by decide

/-- What is selected, if nothing but reads of the object was handed over to find it: its value, if there is one, is the
one that the device holds. -/
structure Selects (M : PropertyMap) (a : ObjectAddress) (p : UInt8) (v : Option Octets) (k k₁ : Client σ) : Prop where
  read : ∀ value, v = some value → M.read (a.property p) = .ok value
  objects : k₁.objects = k.objects
  reads : ∃ pids : List UInt8,
    k₁.exchange.chronicle.transmissions = k.exchange.chronicle.transmissions ++ pids.map a.readFirst

/-- After some reads of the object, the value of a property was written back to it, and nothing more. -/
structure WritesBack (M : PropertyMap) (a : ObjectAddress) (p : UInt8) (property : Property) (k k₁ : Client σ) :
    Prop where
  holds : M (a.property p) = some property
  requests : ∃ pids : List UInt8, k₁.exchange.chronicle.transmissions =
    k.exchange.chronicle.transmissions ++ pids.map a.readFirst ++ [a.writeFirst p property.value]

section Serving

variable (hs : c.link.Serves I map) (ha : k.objects.address object = .ok a) (hother : a.IsOther)
  (hk : Ready (Holds I map M) k.exchange)

include hs ha hother hk

/-! ### Reads -/

/-- A read gives what the device holds, which stays. -/
theorem read_of_getFirst {pid : UInt8} {r : Except Fault Octets} (h : k.getFirst c object pid = (r, k₁)) :
    r = M.read (a.property pid) ∧ Ready (Holds I map M) k₁.exchange := by
  obtain ⟨hread, hready⟩ := Exchange.request_read hs hk (.reading a.objectType a.objectInstance pid 1 1)
    one_le_max.1 one_le_max.2 rfl (hother.property_ne pid) (UInt8.le_refl 1)
  rw [getFirst, get, access_of_address c _ _ hk.isOpen ha] at h
  obtain ⟨rfl, rfl⟩ := Prod.mk.inj h
  exact ⟨hread, hready⟩

theorem Probes.ready {s : Probe} (h : Probes c object index k s k₁) : Ready (Holds I map M) k₁.exchange := by
  induction h with
  | start => exact hk
  | hit h _ _ hget ih => exact (read_of_getFirst hs (h.keeps.objects ▸ ha) hother ih hget).2
  | miss h _ _ hget _ ih => exact (read_of_getFirst hs (h.keeps.objects ▸ ha) hother ih hget).2

/-- A search that ends at a property that it has read has the value of this property. -/
theorem Probes.read_eq {s : Probe} (h : Probes c object index k s k₁) (heq : s.index = some index.toNat)
    {value : Octets} (hv : s.value = some value) : M.read (a.property (UInt8.ofNat s.pid)) = .ok value := by
  cases h with
  | start => cases hv
  | @hit s k₁ k₂ found h _ _ hget =>
      have hready := h.ready hs ha hother hk
      obtain ⟨hread, -⟩ := read_of_getFirst hs (h.keeps.objects ▸ ha) hother hready hget
      obtain rfl : found = value := Option.some.inj hv
      exact hread.symm
  | miss _ hne => exact absurd heq hne

theorem Locates.ready {o : Except Fault (UInt8 × Option Octets)} (h : Locates c object index k o k₁) :
    Ready (Holds I map M) k₁.exchange := by
  cases h with
  | found h _ =>
      have hready := h.ready hs ha hother hk
      exact hready
  | exhausted h _ _ =>
      have hready := h.ready hs ha hother hk
      exact hready
  | failed h _ _ hget _ =>
      exact (read_of_getFirst hs (h.keeps.objects ▸ ha) hother (h.ready hs ha hother hk) hget).2

theorem Locates.selects {p : UInt8} {v : Option Octets} (h : Locates c object index k (.ok (p, v)) k₁) :
    Selects M a p v k k₁ := by
  generalize ho : (Except.ok (p, v) : Except Fault (UInt8 × Option Octets)) = o at h
  have hobjects := h.objects
  cases h with
  | found h heq =>
      obtain ⟨rfl, rfl⟩ := Prod.mk.inj (Except.ok.inj ho)
      obtain ⟨present, hreads, -⟩ := h.reads
      have hhanded := hreads.transmissions ha
      exact ⟨fun _ hv => h.read_eq hs ha hother hk heq hv, hobjects, _, hhanded⟩
  | exhausted => cases ho
  | failed => cases ho

/-- Selecting a property changes nothing. -/
theorem ready_select (hf : k.bookmark.Fits) (hb : k.bookmark.Serves index) (pid : UInt8) :
    Ready (Holds I map M) (k.select c object pid index).2.exchange := by
  rw [select]
  split_ifs
  · rcases hlocate : k.locate c object index with ⟨o, k₁⟩
    exact ((locates_iff hf hb).mpr hlocate).ready hs ha hother hk
  · rcases hget : k.getFirst c object pid with ⟨e | value, k₁⟩ <;> exact (read_of_getFirst hs ha hother hk hget).2

theorem selects_of_select (hf : k.bookmark.Fits) (hb : k.bookmark.Serves index) {pid p : UInt8} {v : Option Octets}
    (h : k.select c object pid index = (.ok (p, v), k₁)) : Selects M a p v k k₁ ∧ (pid ≠ 0 → p = pid) := by
  rw [select] at h
  split_ifs at h with hpid
  · exact ⟨((locates_iff hf hb).mpr h).selects hs ha hother hk, fun hne => absurd hpid hne⟩
  · rcases hget : k.getFirst c object pid with ⟨e | value, k₂⟩
    · rw [hget] at h
      cases h
    · rw [hget] at h
      cases h
      obtain ⟨hread, -⟩ := read_of_getFirst hs ha hother hk hget
      have hhanded := transmissions_of_getFirst ha hget (by simp)
      refine ⟨⟨fun other hv => ?_, (keeps_of_getFirst hget).objects, [pid], hhanded⟩, fun _ => rfl⟩
      rw [← hread, Option.some.inj hv]

/-- The same holds from where a query starts, since this differs from the client by its bookmark alone. -/
theorem select_queried (hf : k.bookmark.Fits) (pid : UInt8) (index : UInt16) :
    Ready (Holds I map M) ((k.queried object pid index).select c object pid index).2.exchange ∧
      ∀ p v k₁, (k.queried object pid index).select c object pid index = (.ok (p, v), k₁) →
        Selects M a p v k k₁ ∧ (pid ≠ 0 → p = pid) := by
  have hfq : (k.queried object pid index).bookmark.Fits := hf.forQuery object pid index
  have hbq : (k.queried object pid index).bookmark.Serves index := k.bookmark.serves_forQuery object pid index
  have hkq : Ready (Holds I map M) (k.queried object pid index).exchange := hk
  have haq : (k.queried object pid index).objects.address object = .ok a := ha
  refine ⟨ready_select hs haq hother hkq hfq hbq pid, fun p v k₁ h => ?_⟩
  obtain ⟨hselects, hpid⟩ := selects_of_select hs haq hother hkq hfq hbq h
  exact ⟨⟨hselects.read, hselects.objects, hselects.reads⟩, hpid⟩

/-! ### Writing back -/

/-- A property whose value is written back stays what it is, and whether this is confirmed tells whether it may be
written. -/
theorem writeBack_of_property {p : UInt8} {property : Property} (hp : M (a.property p) = some property) :
    (k.writeBack c object p property.value).1 = .ok property.writable ∧
      Ready (Holds I map M) (k.writeBack c object p property.value).2.exchange ∧
      (k.writeBack c object p property.value).2.exchange.chronicle.transmissions =
        k.exchange.chronicle.transmissions ++ [a.writeFirst p property.value] := by
  let request : Frame := .writing a.objectType a.objectInstance p 1 1 property.value
  have hx : k.exchange.isOpen = true := hk.isOpen
  have hhanded : (k.exchange.request c request .writeConfirmation).2.chronicle.transmissions =
      k.exchange.chronicle.transmissions ++ [a.writeFirst p property.value] :=
    Exchange.transmissions_request hx (a.encode_writing p property.value) (by decide)
  have hset := set_of_address c hk.isOpen ha p 1 1 property.value
  obtain ⟨hr, hready⟩ := Exchange.request_write hs hk request one_le_max.1 one_le_max.2 rfl (hother.property_ne p)
    (UInt8.le_refl 1)
  have hwrite : M.write (keyOf request) request.data =
      (if property.writable then .ok () else .error (.refused Refusal.readOnly), M) := PropertyMap.write_self hp
  rw [hwrite] at hr hready
  rw [hr] at hset
  rw [writeBack, hset]
  -- A device that does not take the value refuses it, and a refusal is all that a client makes a remark of.
  cases property.writable with
  | true => exact ⟨rfl, hready, hhanded⟩
  | false => exact ⟨rfl, hready.note _, (Exchange.transmissions_note _ rfl).trans hhanded⟩

/-- A value that is not known is read, and then it is what the device holds, too. -/
theorem writesBack_of_writable {p : UInt8} {known : Option Octets}
    (hknown : ∀ value, known = some value → M.read (a.property p) = .ok value) :
    Ready (Holds I map M) (k.writable c object p known).2.exchange ∧
      ∀ enabled k₁, k.writable c object p known = (.ok enabled, k₁) →
        ∃ property, WritesBack M a p property k k₁ ∧ enabled = property.writable := by
  cases known with
  | some value =>
      obtain ⟨property, hp, rfl⟩ := PropertyMap.exists_of_read (hknown value rfl)
      obtain ⟨hr, hready, hwritten⟩ := writeBack_of_property hs ha hother hk hp
      refine ⟨hready, fun enabled k₁ h => ?_⟩
      have hwrite : k.writeBack c object p property.value = (.ok enabled, k₁) := h
      rw [hwrite] at hr hwritten
      refine ⟨property, ⟨hp, [], ?_⟩, Except.ok.inj hr⟩
      rw [List.map_nil, List.append_nil]
      exact hwritten
  | none =>
      rcases hget : k.getFirst c object p with ⟨e | value, k'⟩
      · obtain ⟨-, hready⟩ := read_of_getFirst hs ha hother hk hget
        rw [writable, hget]
        refine ⟨hready, fun enabled k₁ h => ?_⟩
        cases h
      · obtain ⟨hread, hk'⟩ := read_of_getFirst hs ha hother hk hget
        obtain ⟨property, hp, rfl⟩ := PropertyMap.exists_of_read hread.symm
        have ha' : k'.objects.address object = .ok a := (keeps_of_getFirst hget).objects ▸ ha
        obtain ⟨hr, hready, hwritten⟩ := writeBack_of_property hs ha' hother hk' hp
        rw [writable, hget]
        refine ⟨hready, fun enabled k₁ h => ?_⟩
        have hwrite : k'.writeBack c object p property.value = (.ok enabled, k₁) := h
        rw [hwrite] at hr hwritten
        refine ⟨property, ⟨hp, [p], ?_⟩, Except.ok.inj hr⟩
        rw [hwritten, transmissions_of_getFirst ha hget (by simp)]
        rfl

/-! ### Queries -/

/-- Whatever becomes of a query, the device holds what it has held. -/
theorem ready_describe (hf : k.bookmark.Fits) (pid : UInt8) (index : UInt16) :
    Ready (Holds I map M) (k.describe c object pid index).2.exchange := by
  obtain ⟨hselected, hselects⟩ := select_queried hs ha hother hk hf pid index
  have hdescribes := describes c k object pid index
  generalize k.describe c object pid index = o at hdescribes ⊢
  cases hdescribes with
  | closed _ => exact hk
  | missed h =>
      rw [h] at hselected
      exact hselected
  | placed _ h =>
      rw [h] at hselected
      exact hselected
  | @probed p v k₁ _ h =>
      rw [h] at hselected
      obtain ⟨hfound, -⟩ := hselects p v k₁ h
      exact (writesBack_of_writable hs (hfound.objects ▸ ha) hother hselected hfound.read).1

/-- The two ways in which a query succeeds. -/
theorem described_of_ok (hf : k.bookmark.Fits) {pid : UInt8} {index : UInt16} {octets : Octets}
    (h : k.describe c object pid index = (.ok octets, k₁)) :
    ∃ p enabled, octets = (placeOf object p index enabled).octets ∧ (pid ≠ 0 → p = pid) ∧
      (c.config.probesWriting = true → ∃ property, WritesBack M a p property k k₁ ∧ enabled = property.writable) ∧
      (c.config.probesWriting = false → enabled = false ∧ ∃ pids : List UInt8,
        k₁.exchange.chronicle.transmissions = k.exchange.chronicle.transmissions ++ pids.map a.readFirst) := by
  obtain ⟨hselected, hselects⟩ := select_queried hs ha hother hk hf pid index
  have hdescribes := describes c k object pid index
  rw [h] at hdescribes
  generalize ho : (Except.ok octets, k₁) = o at hdescribes
  cases hdescribes with
  | closed _ => cases ho
  | missed _ => cases ho
  | @placed p v k' hq hselect =>
      cases ho
      obtain ⟨hfound, hpid⟩ := hselects p v _ hselect
      refine ⟨p, false, rfl, hpid, fun hyes => ?_, fun _ => ⟨rfl, hfound.reads⟩⟩
      rw [hq] at hyes
      cases hyes
  | @probed p v k' hq hselect =>
      rw [hselect] at hselected
      obtain ⟨hfound, hpid⟩ := hselects p v k' hselect
      obtain ⟨-, hwritten⟩ := writesBack_of_writable hs (hfound.objects ▸ ha) hother hselected hfound.read
      rcases hwritable : k'.writable c object p v with ⟨e | enabled, k₂⟩ <;> rw [hwritable] at ho <;> cases ho
      refine ⟨p, enabled, rfl, hpid, fun _ => ?_, fun hno => ?_⟩
      · obtain ⟨property, hback, henabled⟩ := hwritten enabled _ hwritable
        obtain ⟨first, hfirst⟩ := hfound.reads
        obtain ⟨pids, hpids⟩ := hback.requests
        refine ⟨property, ⟨hback.holds, first ++ pids, ?_⟩, henabled⟩
        rw [hpids, hfirst, List.map_append, ← List.append_assoc k.exchange.chronicle.transmissions]
      · rw [hq] at hno
        cases hno

end Serving

/-- Over a link to a device that answers from a map, and whatever has been asked before about other objects than the
device object, a query leaves the map as it is, by whatever way it comes to its property and whether it succeeds or
not. If the client finds out about writing and the query succeeds, the device has the property, the last request is the
write of the value that it holds, and the description says that the property may be written exactly if it may be. If the
client does not find out about writing, the description does not say so, and nothing is written. -/
theorem describe_keeps_map (hs : c.link.Serves I map) {link : σ} (hI : I link) (hk : start c link = .opened k)
    {calls : List Call} (hc : ∀ call ∈ calls, call.IsElsewhere k.objects) (ha : k.objects.address object = .ok a)
    (hother : a.IsOther) (pid : UInt8) (index : UInt16) :
    ∀ m, (k.run c calls).2 = m →
      map (m.describe c object pid index).2.exchange.link = map m.exchange.link ∧
      ∀ octets m', m.describe c object pid index = (.ok octets, m') → ∃ p, ∃ pids : List UInt8, octets[1]? = some p ∧
        (pid ≠ 0 → p = pid) ∧
        (c.config.probesWriting = true → ∃ property, map m.exchange.link (a.property p) = some property ∧
          octets[3]? = some (if property.writable then 0x80 else 0) ∧
          m'.exchange.chronicle.transmissions =
            m.exchange.chronicle.transmissions ++ pids.map a.readFirst ++ [a.writeFirst p property.value]) ∧
        (c.config.probesWriting = false → octets[3]? = some 0 ∧
          m'.exchange.chronicle.transmissions = m.exchange.chronicle.transmissions ++ pids.map a.readFirst) ∧
        (∀ pid, (a.readFirst pid).Carries (.reading a.objectType a.objectInstance pid 1 1)) ∧
        ∀ value, (a.writeFirst p value).Carries (.writing a.objectType a.objectInstance p 1 1 value) := by
  rintro m rfl
  have hlists : c.link.Lists I := fun s first elements hI octets he =>
    (hs.list (map s) s first elements ⟨hI, rfl⟩ octets he).mono fun _ _ h => h.1
  obtain ⟨hstarted, hbookmark⟩ := ready_of_start hlists hI hk
  have hready := ready_run_elsewhere hs hstarted hc
  have hf : (k.run c calls).2.bookmark.Fits := by
    apply fits_run
    rw [hbookmark]
    trivial
  rw [← (leads_run c k calls).objects] at ha
  generalize (k.run c calls).2 = m at hready hf ha
  -- Writes before may have changed the map, so it is the one at this moment that the query has to keep.
  have hm : Ready (Holds I map (map m.exchange.link)) m.exchange := ⟨hready.isOpen, hready.noise, hready.link, rfl⟩
  refine ⟨(ready_describe hs ha hother hm hf pid index).link.2, fun octets m' h => ?_⟩
  obtain ⟨p, enabled, rfl, hpid, hasked, hunasked⟩ := described_of_ok hs ha hother hm hf h
  have hfields := octets_placeOf object p index enabled
  cases hq : c.config.probesWriting with
  | true =>
      obtain ⟨property, hback, henabled⟩ := hasked hq
      obtain ⟨pids, hpids⟩ := hback.requests
      refine ⟨p, pids, ?_, hpid, fun _ => ⟨property, hback.holds, ?_, hpids⟩, fun hno => ?_, a.carries_readFirst,
        a.carries_writeFirst p⟩
      · rw [hfields]
        rfl
      · rw [hfields, henabled]
        rfl
      · cases hno
  | false =>
      obtain ⟨rfl, pids, hpids⟩ := hunasked hq
      refine ⟨p, pids, ?_, hpid, fun hyes => ?_, fun _ => ⟨?_, hpids⟩, a.carries_readFirst, a.carries_writeFirst p⟩
      · rw [hfields]
        rfl
      · cases hyes
      · rw [hfields]
        rfl

/-- A mode is written, and then the client asks for it by its position, and the second time it stands there already. -/
def modeQueries : List Call := [.set 1 PropertyId.commMode 1 1 [1], .describe 1 0 0, .describe 1 0 1]

theorem describe_keeps_map_mode :
    ∃ k m m', start (Scripted.connection ⟨true, false⟩) .modeAndMedium = .opened k ∧
      (k.run (Scripted.connection ⟨true, false⟩) modeQueries).2 = m ∧
      m.describe (Scripted.connection ⟨true, false⟩) 1 0 1 = (.ok [1, PropertyId.commMode, 1, 0x80, 0, 0, 0], m') ∧
      m'.exchange.link.store.get? = m.exchange.link.store.get? ∧
      ∃ property, ∃ pids : List UInt8,
        m.exchange.link.store.get? ⟨ObjectType.cemiServer, 1, PropertyId.commMode⟩ = some property ∧
        property.writable = true ∧ m'.exchange.chronicle.transmissions = m.exchange.chronicle.transmissions ++
          pids.map (ObjectAddress.readFirst ⟨ObjectType.cemiServer, 1⟩) ++
          [ObjectAddress.writeFirst ⟨ObjectType.cemiServer, 1⟩ PropertyId.commMode property.value] := by
  obtain ⟨k, m, m', hk, hobjects, hm, hdescribe⟩ : ∃ k m m',
      start (Scripted.connection ⟨true, false⟩) .modeAndMedium = .opened k ∧
      k.objects = ⟨[ObjectType.device, ObjectType.cemiServer]⟩ ∧
      (k.run (Scripted.connection ⟨true, false⟩) modeQueries).2 = m ∧
      m.describe (Scripted.connection ⟨true, false⟩) 1 0 1 = (.ok [1, PropertyId.commMode, 1, 0x80, 0, 0, 0], m') :=
    ⟨_, _, _, rfl, rfl, rfl, rfl⟩
  have hc : ∀ call ∈ modeQueries, call.IsElsewhere k.objects := by
    rw [hobjects]
    decide
  have ha : k.objects.address 1 = .ok ⟨ObjectType.cemiServer, 1⟩ := by
    rw [hobjects]
    rfl
  obtain ⟨hmap, hresult⟩ := describe_keeps_map (Scripted.serves "a") (Scripted.idle_ofStore _) hk hc ha (by decide) 0 1
    m hm
  obtain ⟨p, pids, hp, -, hprobed, -⟩ := hresult _ m' hdescribe
  obtain ⟨property, hproperty, hflag, htransmissions⟩ := hprobed rfl
  obtain rfl : PropertyId.commMode = p := Option.some.inj hp
  have hw : property.writable = true := by
    cases hw : property.writable with
    | true => rfl
    | false =>
        rw [hw] at hflag
        cases hflag
  rw [hdescribe] at hmap
  exact ⟨k, m, m', hk, hm, hdescribe, hmap, property, pids, hproperty, hw, htransmissions⟩

end Client

end BusManagement
