import BusManagement.Proofs.Probing

/-! What a description tells. It names the property that was found, at the index that was asked for, and whether the
device took the value of the property back; everything else in it is zero. It takes no more reads than there are
property ids, whatever the device answers, and at most one write. -/

namespace BusManagement

open Simulation (Scripted)

variable {σ : Type}

namespace Transmission

/-- A read of the first element of a property of one of these objects. -/
def ReadsFirst (d : ObjectList) (object : UInt16) (t : Transmission) : Prop :=
  ∃ a pid, d.address object = .ok a ∧ t.Carries (.reading a.objectType a.objectInstance pid 1 1)

/-- A write of the first element of a property of one of these objects. -/
def WritesFirst (d : ObjectList) (object : UInt16) (t : Transmission) : Prop :=
  ∃ a pid value, d.address object = .ok a ∧ t.Carries (.writing a.objectType a.objectInstance pid 1 1 value)

end Transmission

namespace Exchange

/-- From one exchange to another only such transmissions are handed over, and no more than so many of them. -/
def HandsAtMost (n : Nat) (P : Transmission → Prop) (x y : Exchange σ) : Prop :=
  ∃ ts, y.chronicle.transmissions = x.chronicle.transmissions ++ ts ∧ ts.length ≤ n ∧ ∀ t ∈ ts, P t

variable {c : Connection σ} {n m : Nat} {P : Transmission → Prop} {x y z : Exchange σ}

theorem HandsAtMost.of_eq (h : y.chronicle.transmissions = x.chronicle.transmissions) : HandsAtMost n P x y :=
  ⟨[], by rw [h, List.append_nil], Nat.zero_le n, by simp⟩

theorem HandsAtMost.trans (h : HandsAtMost n P x y) (h' : HandsAtMost m P y z) : HandsAtMost (n + m) P x z := by
  obtain ⟨ts, hts, hn, hall⟩ := h
  obtain ⟨us, hus, hm, hall'⟩ := h'
  refine ⟨ts ++ us, ?_, ?_, List.forall_mem_append.mpr ⟨hall, hall'⟩⟩
  · rw [hus, hts, List.append_assoc]
  · rw [List.length_append]
    exact Nat.add_le_add hn hm

theorem HandsAtMost.mono (h : HandsAtMost n P x y) (hnm : n ≤ m) : HandsAtMost m P x y := by
  obtain ⟨ts, hts, hn, hall⟩ := h
  exact ⟨ts, hts, Nat.le_trans hn hnm, hall⟩

/-- A request is handed over at most once. -/
theorem handsAtMost_request {f : Frame} {awaited : Service} (hr : awaited ≠ .resetIndication)
    (hP : ∀ octets, f.encode = .ok octets → P ⟨octets, .confirmation⟩) (x : Exchange σ) :
    HandsAtMost 1 P x (x.request c f awaited).2 := by
  by_cases ho : x.isOpen = true
  · cases he : f.encode with
    | ok octets => exact ⟨_, transmissions_request ho he hr, Nat.le_refl 1, by simpa using hP octets he⟩
    | error e =>
        rw [request_of_encode_error ho he]
        exact .of_eq (transmissions_note x rfl)
  · rw [request, if_neg ho]
    exact .of_eq rfl

end Exchange

namespace Client

open Exchange (HandsAtMost)

variable {c : Connection σ} {object index : UInt16} {k k₁ k₂ : Client σ} {s : Probe}

/-! ### Requests -/

theorem handsAtMost_access {requestTo : ObjectAddress → Frame} {awaited : Service} {P : Transmission → Prop}
    (hr : awaited ≠ .resetIndication) (hP : ∀ a octets, k.objects.address object = .ok a →
      (requestTo a).encode = .ok octets → P ⟨octets, .confirmation⟩) :
    HandsAtMost 1 P k.exchange (k.access c object requestTo awaited).2.exchange := by
  rw [access]
  split_ifs
  · split
    · exact .of_eq rfl
    · next a ha => exact Exchange.handsAtMost_request hr (hP a · ha) k.exchange
  · exact .of_eq rfl

theorem handsAtMost_getFirst (c : Connection σ) (k : Client σ) (object : UInt16) (pid : UInt8) :
    HandsAtMost 1 (Transmission.ReadsFirst k.objects object) k.exchange (k.getFirst c object pid).2.exchange :=
  handsAtMost_access (by decide) fun a _ ha he => ⟨a, pid, ha, Transmission.carries_of_encode rfl he⟩

theorem handsAtMost_set (c : Connection σ) (k : Client σ) (object : UInt16) (pid : UInt8) (value : Octets) :
    HandsAtMost 1 (Transmission.WritesFirst k.objects object) k.exchange (k.set c object pid 1 1 value).2.exchange := by
  let request (o : ObjectAddress) : Frame := .writing o.objectType o.objectInstance pid 1 1 value
  have haccess : HandsAtMost 1 (Transmission.WritesFirst k.objects object) k.exchange
      (k.access c object request .writeConfirmation).2.exchange :=
    handsAtMost_access (by decide) fun a _ ha he => ⟨a, pid, value, ha, Transmission.carries_of_encode rfl he⟩
  rw [set]
  split <;> next h => rwa [h] at haccess

theorem covers_any (c : Connection σ) (d : ObjectList) (object : UInt16) : Covers c d object fun _ _ => True :=
  ⟨⟨fun _ => trivial, fun _ _ => trivial, fun _ _ _ => trivial⟩, fun _ _ _ _ => trivial⟩

theorem keeps_of_getFirst {pid : UInt8} {r : Except Fault Octets} (h : k.getFirst c object pid = (r, k₁)) :
    Keeps (fun _ _ => True) k k₁ := by
  have hkeeps : Keeps (fun _ _ => True) k (k.getFirst c object pid).2 :=
    keeps_get (covers_any c k.objects object) pid 1 1
  rwa [h] at hkeeps

theorem handsAtMost_of_getFirst {pid : UInt8} {r : Except Fault Octets} (h : k.getFirst c object pid = (r, k₁)) :
    HandsAtMost 1 (Transmission.ReadsFirst k.objects object) k.exchange k₁.exchange := by
  have hread := handsAtMost_getFirst c k object pid
  rwa [h] at hread

/-! ### The number of reads -/

theorem Probes.keeps (h : Probes c object index k s k₁) : Keeps (fun _ _ => True) k k₁ := by
  have hany : Exchange.Spans (σ := σ) fun _ _ => True := (covers_any c k.objects object).toSpans
  induction h with
  | start => exact .refl hany k
  | hit _ _ _ hget ih => exact ih.trans hany (keeps_of_getFirst hget)
  | miss _ _ _ hget _ ih => exact ih.trans hany (keeps_of_getFirst hget)

/-- Each property id behind the bookmark is read at most once. -/
theorem Probes.handsAtMost (h : Probes c object index k s k₁) :
    ∃ n, k.bookmark.pid.toNat + n = s.pid ∧
      HandsAtMost n (Transmission.ReadsFirst k.objects object) k.exchange k₁.exchange := by
  have hnext {k₁ k₂ : Client σ} {s : Probe} {r : Except Fault Octets} (h : Probes c object index k s k₁)
      (hget : k₁.getFirst c object (UInt8.ofNat (s.pid + 1)) = (r, k₂))
      (ih : ∃ n, k.bookmark.pid.toNat + n = s.pid ∧
        HandsAtMost n (Transmission.ReadsFirst k.objects object) k.exchange k₁.exchange) :
      ∃ n, k.bookmark.pid.toNat + n = s.pid + 1 ∧
        HandsAtMost n (Transmission.ReadsFirst k.objects object) k.exchange k₂.exchange := by
    obtain ⟨n, hn, hreads⟩ := ih
    have hread := handsAtMost_of_getFirst hget
    rw [h.keeps.objects] at hread
    exact ⟨n + 1, by omega, hreads.trans hread⟩
  induction h with
  | start => exact ⟨0, rfl, .of_eq rfl⟩
  | hit h _ _ hget ih => exact hnext h hget ih
  | miss h _ _ hget _ ih => exact hnext h hget ih

/-- A search that ends without a value has ended where it began. -/
theorem Probes.eq_of_unread (h : Probes c object index k s k₁) (heq : s.index = some index.toNat)
    (hnone : s.value = none) : k₁ = k := by
  cases h with
  | start => rfl
  | hit => cases hnone
  | miss _ hne => exact absurd heq hne

theorem Locates.objects {o : Except Fault (UInt8 × Option Octets)} (h : Locates c object index k o k₁) :
    k₁.objects = k.objects := by
  cases h with
  | found h _ => exact h.keeps.objects
  | exhausted h _ _ => exact h.keeps.objects
  | failed h _ _ hget _ => exact (keeps_of_getFirst hget).objects.trans h.keeps.objects

theorem Locates.handsAtMost (hf : k.bookmark.Fits) (hs : k.bookmark.Serves index)
    {o : Except Fault (UInt8 × Option Octets)} (h : Locates c object index k o k₁) :
    HandsAtMost 255 (Transmission.ReadsFirst k.objects object) k.exchange k₁.exchange := by
  cases h with
  | found h _ =>
      obtain ⟨n, hn, hreads⟩ := h.handsAtMost
      have hle := (h.sound hf hs).pid_le
      exact hreads.mono (by omega)
  | exhausted h _ _ =>
      obtain ⟨n, hn, hreads⟩ := h.handsAtMost
      have hle := (h.sound hf hs).pid_le
      exact hreads.mono (by omega)
  | failed h _ hlt hget _ =>
      obtain ⟨n, hn, hreads⟩ := h.handsAtMost
      have hread := handsAtMost_of_getFirst hget
      rw [h.keeps.objects] at hread
      exact (hreads.trans hread).mono (by omega)

/-! ### Whether the device takes a value back -/

/-- The value of a property: the one that was read to find it, or else one that is read now. -/
inductive Knows (c : Connection σ) (object : UInt16) (pid : UInt8) (k : Client σ) :
    Option Octets → Octets → Client σ → Prop
  | found (value : Octets) : Knows c object pid k (some value) value k
  | read {value : Octets} {k₁ : Client σ} (hget : k.getFirst c object pid = (.ok value, k₁)) :
      Knows c object pid k none value k₁

/-- Whether a description says that the property may be written. -/
inductive Flags (c : Connection σ) (object : UInt16) (pid : UInt8) (k : Client σ) (known : Option Octets) :
    Bool → Client σ → Prop
  | unasked (hq : c.config.probesWriting = false) : Flags c object pid k known false k
  | confirmed {value : Octets} {k₁ k₂ : Client σ} (hq : c.config.probesWriting = true)
      (hvalue : Knows c object pid k known value k₁) (hset : k₁.set c object pid 1 1 value = (.ok (), k₂)) :
      Flags c object pid k known true k₂
  | refused {value : Octets} {e : Fault} {k₁ k₂ : Client σ} (hq : c.config.probesWriting = true)
      (hvalue : Knows c object pid k known value k₁) (hset : k₁.set c object pid 1 1 value = (.error e, k₂))
      (he : e.kind = .remote) :
      Flags c object pid k known false { k₂ with exchange := k₂.exchange.note (.notWritable object pid e.detail) }

theorem flags_of_writeBack {known : Option Octets} {value : Octets} {pid : UInt8} {enabled : Bool}
    (hq : c.config.probesWriting = true) (hvalue : Knows c object pid k known value k₁)
    (h : k₁.writeBack c object pid value = (.ok enabled, k₂)) : Flags c object pid k known enabled k₂ := by
  rw [writeBack] at h
  rcases hset : k₁.set c object pid 1 1 value with ⟨e | _, k'⟩
  · rw [hset] at h
    dsimp only at h
    split_ifs at h with he
    · cases h
      exact .refused hq hvalue hset he
    · cases h
  · rw [hset] at h
    cases h
    exact .confirmed hq hvalue hset

theorem flags_of_writable {known : Option Octets} {pid : UInt8} {enabled : Bool}
    (hq : c.config.probesWriting = true) (h : k.writable c object pid known = (.ok enabled, k₂)) :
    Flags c object pid k known enabled k₂ := by
  cases known with
  | some value => exact flags_of_writeBack hq (.found value) h
  | none =>
      rw [writable] at h
      rcases hget : k.getFirst c object pid with ⟨e | value, k₁⟩
      · rw [hget] at h
        cases h
      · rw [hget] at h
        exact flags_of_writeBack hq (.read hget) h

theorem handsAtMost_writeBack (c : Connection σ) (k : Client σ) (object : UInt16) (pid : UInt8) (value : Octets) :
    HandsAtMost 1 (Transmission.WritesFirst k.objects object) k.exchange
      (k.writeBack c object pid value).2.exchange := by
  have hset := handsAtMost_set c k object pid value
  rw [writeBack]
  split
  · next h => rwa [h] at hset
  · next e k₁ h =>
      rw [h] at hset
      split_ifs
      · exact hset.trans (.of_eq (n := 0) (Exchange.transmissions_note k₁.exchange rfl))
      · exact hset

/-- A value that is not known is read first, and then at most one write follows. -/
theorem handsAtMost_writable (c : Connection σ) (k : Client σ) (object : UInt16) (pid : UInt8) (known : Option Octets) :
    ∃ z, HandsAtMost (if known = none then 1 else 0) (Transmission.ReadsFirst k.objects object) k.exchange z ∧
      HandsAtMost 1 (Transmission.WritesFirst k.objects object) z (k.writable c object pid known).2.exchange := by
  cases known with
  | some value => exact ⟨k.exchange, .of_eq rfl, handsAtMost_writeBack c k object pid value⟩
  | none =>
      rcases hget : k.getFirst c object pid with ⟨e | value, k₁⟩
      · refine ⟨k₁.exchange, handsAtMost_of_getFirst hget, ?_⟩
        rw [writable, hget]
        exact .of_eq rfl
      · have hwrite := handsAtMost_writeBack c k₁ object pid value
        rw [(keeps_of_getFirst hget).objects] at hwrite
        refine ⟨k₁.exchange, handsAtMost_of_getFirst hget, ?_⟩
        rw [writable, hget]
        exact hwrite

/-! ### Descriptions -/

/-- The client as a query finds it: the bookmark is kept only if the query goes on from there. -/
def queried (k : Client σ) (object : UInt16) (pid : UInt8) (index : UInt16) : Client σ :=
  { k with bookmark := k.bookmark.forQuery object pid index }

theorem handsAtMost_select (c : Connection σ) (object : UInt16) (hf : k.bookmark.Fits)
    (hs : k.bookmark.Serves index) (pid : UInt8) :
    HandsAtMost (if pid = 0 then 255 else 1) (Transmission.ReadsFirst k.objects object) k.exchange
      (k.select c object pid index).2.exchange := by
  rw [select]
  split_ifs
  · rcases hlocate : k.locate c object index with ⟨o, k₁⟩
    exact ((locates_iff hf hs).mpr hlocate).handsAtMost hf hs
  · rcases hget : k.getFirst c object pid with ⟨e | value, k₁⟩ <;> exact handsAtMost_of_getFirst hget

/-- If the property is found without reading it, nothing has been read at all. -/
theorem unread_of_select (hf : k.bookmark.Fits) (hs : k.bookmark.Serves index) {pid p : UInt8}
    (h : k.select c object pid index = (.ok (p, none), k₁)) : pid = 0 ∧ k₁.exchange = k.exchange := by
  rw [select] at h
  split_ifs at h with hpid
  · refine ⟨hpid, ?_⟩
    generalize ho : (Except.ok (p, none) : Except Fault (UInt8 × Option Octets)) = o at h
    cases (locates_iff hf hs).mpr h with
    | found hprobes heq =>
        have hnone := (Prod.mk.inj (Except.ok.inj ho)).2
        rw [hprobes.eq_of_unread heq hnone.symm]
    | exhausted => cases ho
    | failed => cases ho
  · rcases hget : k.getFirst c object pid with ⟨e | value, k₂⟩ <;> rw [hget] at h <;> cases h

theorem objects_select (c : Connection σ) (k : Client σ) (object : UInt16) (pid : UInt8) (index : UInt16) :
    (k.select c object pid index).2.objects = k.objects :=
  (leads_select (covers_any c k.objects object) pid index).objects

/-- What becomes of a query: the client is closed, no property is found, or there is one, and then the client finds
out about writing or not. -/
inductive Describes (c : Connection σ) (object : UInt16) (pid : UInt8) (index : UInt16) (k : Client σ) :
    Outcome Octets σ → Prop
  | closed (ho : ¬k.isOpen = true) : Describes c object pid index k (.error (Exchange.closedFault c), k)
  | missed {e : Fault} {k₁ : Client σ}
      (h : (k.queried object pid index).select c object pid index = (.error e, k₁)) :
      Describes c object pid index k (.error e, k₁)
  | placed {p : UInt8} {v : Option Octets} {k₁ : Client σ} (hq : c.config.probesWriting = false)
      (h : (k.queried object pid index).select c object pid index = (.ok (p, v), k₁)) :
      Describes c object pid index k (.ok (placeOf object p index false).octets, k₁)
  | probed {p : UInt8} {v : Option Octets} {k₁ : Client σ} (hq : c.config.probesWriting = true)
      (h : (k.queried object pid index).select c object pid index = (.ok (p, v), k₁)) :
      Describes c object pid index k
        ((k₁.writable c object p v).1.map fun enabled => (placeOf object p index enabled).octets,
          (k₁.writable c object p v).2)

theorem describes (c : Connection σ) (k : Client σ) (object : UInt16) (pid : UInt8) (index : UInt16) :
    Describes c object pid index k (k.describe c object pid index) := by
  by_cases ho : k.isOpen = true
  · rw [describe, if_pos ho]
    rcases hselect : select c { k with bookmark := k.bookmark.forQuery object pid index } object pid index with
      ⟨e | ⟨p, v⟩, k₁⟩
    · exact .missed hselect
    · cases hq : c.config.probesWriting with
      | false => exact .placed hq hselect
      | true =>
          have hprobed : Describes c object pid index k _ := .probed hq hselect
          simp only [if_true]
          rcases hwritable : k₁.writable c object p v with ⟨_ | _, _⟩ <;> rwa [hwritable] at hprobed
  · rw [describe, if_neg ho]
    exact .closed ho

theorem describe_eq_ok {pid : UInt8} {octets : Octets}
    (h : k.describe c object pid index = (.ok octets, k₂)) :
    ∃ p v enabled k₁, (k.queried object pid index).select c object pid index = (.ok (p, v), k₁) ∧
      Flags c object p k₁ v enabled k₂ ∧ octets = (placeOf object p index enabled).octets := by
  have hdescribes := describes c k object pid index
  rw [h] at hdescribes
  generalize ho : (Except.ok octets, k₂) = o at hdescribes
  cases hdescribes with
  | closed _ => cases ho
  | missed _ => cases ho
  | placed hq hselect =>
      cases ho
      exact ⟨_, _, false, _, hselect, .unasked hq, rfl⟩
  | @probed p v k₁ hq hselect =>
      rcases hwritable : k₁.writable c object p v with ⟨e | enabled, k'⟩ <;> rw [hwritable] at ho <;> cases ho
      exact ⟨p, v, enabled, k₁, hselect, flags_of_writable hq hwritable, rfl⟩

/-- A query by position reads each property id once at the most, and a query by id reads that id once. Only if the
client finds out about writing, one write follows. -/
theorem handsAtMost_describe (c : Connection σ) (hf : k.bookmark.Fits) (object : UInt16) (pid : UInt8)
    (index : UInt16) :
    ∃ z, HandsAtMost (if pid = 0 then 255 else 1) (Transmission.ReadsFirst k.objects object) k.exchange z ∧
      HandsAtMost (if c.config.probesWriting then 1 else 0) (Transmission.WritesFirst k.objects object) z
        (k.describe c object pid index).2.exchange := by
  have hfq : (k.queried object pid index).bookmark.Fits := hf.forQuery object pid index
  have hsq : (k.queried object pid index).bookmark.Serves index := k.bookmark.serves_forQuery object pid index
  have hreads := handsAtMost_select c object hfq hsq pid
  have hobjects := objects_select c (k.queried object pid index) object pid index
  have hdescribes := describes c k object pid index
  generalize k.describe c object pid index = o at hdescribes ⊢
  cases hdescribes with
  | closed _ => exact ⟨k.exchange, .of_eq rfl, .of_eq rfl⟩
  | @missed e k₁ hselect =>
      rw [hselect] at hreads
      exact ⟨k₁.exchange, hreads, .of_eq rfl⟩
  | @placed p v k₁ hq hselect =>
      rw [hselect] at hreads
      exact ⟨k₁.exchange, hreads, .of_eq rfl⟩
  | @probed p v k₁ hq hselect =>
      obtain ⟨z, hread, hwrite⟩ := handsAtMost_writable c k₁ object p v
      rw [hselect] at hreads hobjects
      rw [show k₁.objects = k.objects from hobjects] at hread hwrite
      rw [if_pos hq]
      refine ⟨z, ?_, hwrite⟩
      cases v with
      | some value => exact hreads.trans hread
      | none =>
          obtain ⟨rfl, hsame⟩ := unread_of_select hfq hsq hselect
          rw [show k₁.exchange = k.exchange from hsame] at hread
          exact hread.mono (by decide)

theorem octets_placeOf (object : UInt16) (pid : UInt8) (index : UInt16) (enabled : Bool) :
    (placeOf object pid index enabled).octets =
      [object.toUInt8, pid, index.toUInt8, if enabled then Description.writeFlag else 0, 0, 0, 0] := by
  have hrest : Octets.ofWord (0 % 4096) ++ [0 % 16 * 16 + 0 % 16] = [0, 0, 0] := by decide
  rw [placeOf, Description.octets, List.append_assoc, hrest]
  cases enabled <;> rfl

/-- Nothing is lost when such a description is read. -/
theorem ofOctets_placeOf (object : UInt16) (pid : UInt8) (index : UInt16) (enabled : Bool) :
    Description.ofOctets (placeOf object pid index enabled).octets = .ok (placeOf object pid index enabled) := by
  rw [octets_placeOf]
  cases enabled <;> rfl

/-! ### Bookmarks in the course of a run -/

/-- Where a search ends, its bookmark fits. -/
theorem Locates.fits (hf : k.bookmark.Fits) (hs : k.bookmark.Serves index)
    {o : Except Fault (UInt8 × Option Octets)} (h : Locates c object index k o k₁) : k₁.bookmark.Fits := by
  cases h with
  | @found s _ h heq =>
      have hsound := h.sound hf hs
      have hlt : index.toNat < s.pid := hsound.index_lt _ heq
      have hpid : (UInt8.ofNat s.pid).toNat = s.pid := by
        rw [UInt8.toNat_ofNat', Nat.mod_eq_of_lt (Nat.lt_succ_of_le hsound.pid_le)]
      show index.toNat < (UInt8.ofNat s.pid).toNat
      rwa [hpid]
  | exhausted => trivial
  | failed h _ _ hget _ =>
      rw [(keeps_of_getFirst hget).bookmark, h.keeps.bookmark]
      exact hf

theorem fits_select (c : Connection σ) (object : UInt16) (hf : k.bookmark.Fits) (hs : k.bookmark.Serves index)
    (pid : UInt8) :
    (k.select c object pid index).2.bookmark.Fits := by
  rw [select]
  split_ifs
  · rcases hlocate : k.locate c object index with ⟨o, k₁⟩
    exact ((locates_iff hf hs).mpr hlocate).fits hf hs
  · rcases hget : k.getFirst c object pid with ⟨e | value, k₁⟩ <;> exact (keeps_of_getFirst hget).bookmark ▸ hf

theorem fits_describe (hf : k.bookmark.Fits) (pid : UInt8) : (k.describe c object pid index).2.bookmark.Fits := by
  have hfq : (k.queried object pid index).bookmark.Fits := hf.forQuery object pid index
  have hselected := fits_select c object hfq (k.bookmark.serves_forQuery object pid index) pid
  have hdescribes := describes c k object pid index
  generalize k.describe c object pid index = o at hdescribes ⊢
  cases hdescribes with
  | closed _ => exact hf
  | missed hselect => rwa [hselect] at hselected
  | placed hq hselect => rwa [hselect] at hselected
  | @probed p v k₁ hq hselect =>
      have hkeeps := keeps_writable (covers_any c k₁.objects object) p v
      rw [hselect] at hselected
      rw [hkeeps.bookmark]
      exact hselected

theorem fits_perform (hf : k.bookmark.Fits) (call : Call) : (k.perform c call).2.bookmark.Fits := by
  cases call with
  | get object pid first elements =>
      have hkeeps := keeps_get (covers_any c k.objects object) pid first elements
      exact hkeeps.bookmark ▸ hf
  | set object pid first elements data =>
      have hkeeps := keeps_set (covers_any c k.objects object) pid first elements data
      exact hkeeps.bookmark ▸ hf
  | describe object pid index => exact fits_describe hf pid
  | _ => exact hf

/-- A bookmark that fits stays one, whatever is asked of the client. -/
theorem fits_run (hf : k.bookmark.Fits) (calls : List Call) : (k.run c calls).2.bookmark.Fits := by
  induction calls generalizing k with
  | nil => exact hf
  | cons call rest ih => exact ih (fits_perform hf call)

theorem bookmark_of_start {link : σ} (hk : start c link = .opened k) : k.bookmark = .start := by
  rw [start] at hk
  split at hk <;> cases hk
  rfl

theorem Locates.bookmark_eq {p : UInt8} {v : Option Octets} (h : Locates c object index k (.ok (p, v)) k₁) :
    k₁.bookmark = .found object index p := by
  cases h with
  | found h heq => rfl

theorem toNat_octets_placeOf (object : UInt16) (pid : UInt8) (index : UInt16) (enabled : Bool) :
    (placeOf object pid index enabled).octets.map UInt8.toNat =
      [object.toNat % 256, pid.toNat, index.toNat % 256, if enabled then 0x80 else 0, 0, 0, 0] := by
  rw [octets_placeOf]
  cases enabled <;> simp [Description.writeFlag]

/-- At any moment of a run the bookmark fits. So a query by position counts neither the property ids nor the indices
further than they reach, and never past the index that is asked for; and it takes 255 reads at the most, where a
query by id takes one. What a description tells is the place of the property, which for a query by position lies
behind the index, and that its value was taken back, if the client wanted to know and the device confirmed the write. -/
theorem describe_bounded (c : Connection σ) {link : σ} (hk : start c link = .opened k) (calls : List Call) (i : Nat) :
    (k.before c calls i).bookmark.Fits ∧
    (∀ object index,
      (∀ s k₁, Probes c object index ((k.before c calls i).queried object 0 index) s k₁ →
        s.pid ≤ 255 ∧ ∀ j, s.index = some j → j ≤ index.toNat ∧ j < s.pid) ∧
      ∀ o k₁, ((k.before c calls i).queried object 0 index).locate c object index = (o, k₁) ↔
        Locates c object index ((k.before c calls i).queried object 0 index) o k₁) ∧
    (∀ object pid index, ∃ z,
      HandsAtMost (if pid = 0 then 255 else 1) (Transmission.ReadsFirst k.objects object)
        (k.before c calls i).exchange z ∧
      HandsAtMost (if c.config.probesWriting then 1 else 0) (Transmission.WritesFirst k.objects object) z
        ((k.before c calls i).describe c object pid index).2.exchange) ∧
    ∀ object pid index octets k₂, (k.before c calls i).describe c object pid index = (.ok octets, k₂) →
      (∃ d, Description.ofOctets octets = .ok d ∧ d.octets = octets) ∧
      ∃ p v enabled k₁, Flags c object p k₁ v enabled k₂ ∧
        octets.map UInt8.toNat =
          [object.toNat % 256, p.toNat, index.toNat % 256, if enabled then 0x80 else 0, 0, 0, 0] ∧
        (pid = 0 → Locates c object index ((k.before c calls i).queried object 0 index) (.ok (p, v)) k₁ ∧
          index.toNat < p.toNat ∧ index.toNat ≤ 254 ∧ index.toNat % 256 = index.toNat) ∧
        (pid ≠ 0 → p = pid ∧ ∃ value, v = some value ∧
          ((k.before c calls i).queried object pid index).getFirst c object pid = (.ok value, k₁)) := by
  have hf : (k.before c calls i).bookmark.Fits := by
    refine fits_run ?_ (calls.take i)
    rw [bookmark_of_start hk]
    trivial
  have hobjects : (k.before c calls i).objects = k.objects := (leads_before c k calls (Nat.zero_le i)).objects
  generalize k.before c calls i = m at hf hobjects ⊢
  have hfq (object : UInt16) (pid : UInt8) (index : UInt16) : (m.queried object pid index).bookmark.Fits :=
    hf.forQuery object pid index
  have hsq (object : UInt16) (pid : UInt8) (index : UInt16) :
      (m.queried object pid index).bookmark.Serves index := m.bookmark.serves_forQuery object pid index
  refine ⟨hf, fun object index => ⟨fun s k₁ h => ?loop, fun o k₁ => ?ends⟩, fun object pid index => ?requests,
    fun object pid index octets k₂ h => ?result⟩
  case loop =>
    have hsound := h.sound (hfq object 0 index) (hsq object 0 index)
    exact ⟨hsound.pid_le, fun j hj => ⟨hsound.index_le j hj, hsound.index_lt j hj⟩⟩
  case ends => exact (locates_iff (hfq object 0 index) (hsq object 0 index)).symm
  case requests =>
    rw [← hobjects]
    exact handsAtMost_describe c hf object pid index
  case result =>
    obtain ⟨p, v, enabled, k₁, hselect, hflags, rfl⟩ := describe_eq_ok h
    refine ⟨⟨_, ofOctets_placeOf object p index enabled, rfl⟩, p, v, enabled, k₁, hflags,
      toNat_octets_placeOf object p index enabled, fun hpid => ?_, fun hpid => ?_⟩
    · subst hpid
      rw [select, if_pos rfl] at hselect
      have hlocates := (locates_iff (hfq object 0 index) (hsq object 0 index)).mpr hselect
      have hfits := hlocates.fits (hfq object 0 index) (hsq object 0 index)
      rw [hlocates.bookmark_eq] at hfits
      have hlt : index.toNat < p.toNat := hfits
      have hp := p.toNat_lt
      exact ⟨hlocates, hlt, by omega, by omega⟩
    · rw [select, if_neg hpid] at hselect
      rcases hget : (m.queried object pid index).getFirst c object pid with ⟨e | value, k'⟩ <;>
        rw [hget] at hselect <;> cases hselect
      exact ⟨rfl, value, rfl, rfl⟩

/-- The second property of the device object has the third id and may be written. -/
theorem describe_bounded_second :
    ∃ k k₁ k₂ v, start (Scripted.connection ⟨true, false⟩)
        (.ofStore ⟨some [0, 8], none, [(⟨0, 1, 1⟩, ⟨[0, 0], false⟩), (⟨0, 1, 3⟩, ⟨[7], true⟩)]⟩) = .opened k ∧
      k.describe (Scripted.connection ⟨true, false⟩) 0 0 1 = (.ok [0, 3, 1, 0x80, 0, 0, 0], k₂) ∧
      Locates (Scripted.connection ⟨true, false⟩) 0 1 (k.queried 0 0 1) (.ok (3, v)) k₁ ∧
      Flags (Scripted.connection ⟨true, false⟩) 0 3 k₁ v true k₂ := by
  obtain ⟨k, k₂, hk, hdescribe⟩ : ∃ k k₂, start (Scripted.connection ⟨true, false⟩)
        (.ofStore ⟨some [0, 8], none, [(⟨0, 1, 1⟩, ⟨[0, 0], false⟩), (⟨0, 1, 3⟩, ⟨[7], true⟩)]⟩) = .opened k ∧
      k.describe (Scripted.connection ⟨true, false⟩) 0 0 1 = (.ok [0, 3, 1, 0x80, 0, 0, 0], k₂) := ⟨_, _, rfl, rfl⟩
  obtain ⟨-, -, -, hresult⟩ := describe_bounded (Scripted.connection ⟨true, false⟩) hk [] 0
  obtain ⟨-, p, v, enabled, k₁, hflags, hoctets, hposition, -⟩ := hresult 0 0 1 _ k₂ hdescribe
  obtain ⟨hlocates, -⟩ := hposition rfl
  have hp : p = 3 := by
    have hpid : 3 = p.toNat := congrArg (·.getD 1 0) hoctets
    exact UInt8.toNat_inj.mp hpid.symm
  have henabled : enabled = true := by
    cases enabled with
    | true => rfl
    | false => cases congrArg (·.getD 3 0) hoctets
  subst hp henabled
  exact ⟨k, k₁, k₂, v, hk, hdescribe, hlocates, hflags⟩

end Client

end BusManagement
