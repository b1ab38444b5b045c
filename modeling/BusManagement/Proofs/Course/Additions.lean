import BusManagement.Proofs.Course.Client

/-! What the chronicle gains. While a call on the link is in flight nothing is handed over and no search is
made, whatever the link does; so a request hands over exactly one transmission, provided the client is open and
the request fits into a frame, and none otherwise. -/

namespace BusManagement

variable {σ : Type}

/-- It may happen while a call on the link is in flight: the client neither sends nor searches then. -/
def Happening.inFlight : Happening → Bool
  | .handed _ | .discarded _ | .resetSeen => false
  | _ => true

theorem Happening.inFlight_of_isRemark {h : Happening} (hr : h.isRemark = true) : h.inFlight = true := by
  cases h <;> first | rfl | cases hr

namespace Chronicle

@[simp] theorem transmissions_append (h hs : Chronicle) :
    transmissions (h ++ hs) = h.transmissions ++ hs.transmissions := List.filterMap_append

theorem transmissions_of_inFlight {hs : Chronicle} (hf : ∀ h ∈ hs, h.inFlight = true) :
    hs.transmissions = [] := by
  rw [transmissions, List.filterMap_eq_nil_iff]
  intro h hh
  have hflight := hf h hh
  cases h <;> first | rfl | cases hflight

@[simp] theorem transmissions_discarded (passed : List Frame) :
    transmissions (passed.map .discarded) = [] := by
  rw [transmissions, List.filterMap_eq_nil_iff]
  intro h hh
  obtain ⟨f, -, rfl⟩ := List.mem_map.mp hh
  rfl

end Chronicle

namespace Exchange

variable {c : Connection σ}

/-- The chronicle goes on, with what may happen in flight. -/
def Adds (x y : Exchange σ) : Prop :=
  ∃ hs : Chronicle, y.chronicle = x.chronicle ++ hs ∧ ∀ h ∈ hs, h.inFlight = true

theorem Adds.refl (x : Exchange σ) : Adds x x := ⟨[], (List.append_nil _).symm, by simp⟩

theorem Adds.trans {x y z : Exchange σ} (h : Adds x y) (h' : Adds y z) : Adds x z := by
  obtain ⟨hs, hc, hf⟩ := h
  obtain ⟨hs', hc', hf'⟩ := h'
  refine ⟨hs ++ hs', ?_, List.forall_mem_append.mpr ⟨hf, hf'⟩⟩
  rw [hc', hc, List.append_assoc]

theorem Adds.transmissions_eq {x y : Exchange σ} (h : Adds x y) :
    y.chronicle.transmissions = x.chronicle.transmissions := by
  obtain ⟨hs, hc, hf⟩ := h
  rw [hc, Chronicle.transmissions_append, Chronicle.transmissions_of_inFlight hf, List.append_nil]

theorem transmissions_note (x : Exchange σ) {h : Happening} (hf : h.inFlight = true) :
    (x.note h).chronicle.transmissions = x.chronicle.transmissions :=
  Adds.transmissions_eq ⟨[h], rfl, by simpa using hf⟩

theorem Flight.adds {x y : Exchange σ} (hf : Flight c x y) : Adds x y := by
  cases hf with
  | settle link => exact ⟨[], (List.append_nil _).symm, by simp⟩
  | remark h hr => exact ⟨[h], rfl, by simpa using Happening.inFlight_of_isRemark hr⟩
  | receive f => exact ⟨[.received f], rfl, by simp [Happening.inFlight]⟩
  | linkClosed n =>
      rw [linkClosed_eq]
      refine ⟨closingNotes c x n, rfl, fun h hh => ?_⟩
      rcases closingNotes_cases hh with rfl | rfl | rfl | rfl <;> rfl
  | close cause ho hcause =>
      refine ⟨[.closing cause, .cleared x.arrivals.size, .released], by simp [letGo], ?_⟩
      simp [Happening.inFlight]

theorem InFlight.adds {x y : Exchange σ} (hf : InFlight c x y) : Adds x y := by
  induction hf with
  | refl => exact .refl x
  | tail _ hstep ih => exact ih.trans hstep.adds

/-- No search is made in flight, so no reset is seen. -/
theorem Flight.sawReset_eq {x y : Exchange σ} (hf : Flight c x y) : y.phase.sawReset = x.phase.sawReset := by
  cases hf with
  | settle link => rfl
  | remark h hr => rfl
  | receive f => rfl
  | linkClosed n =>
      rw [linkClosed_eq]
      exact Phase.sawReset_close x.phase
  | close cause ho hcause => exact Phase.sawReset_close x.phase

theorem InFlight.sawReset_eq {x y : Exchange σ} (hf : InFlight c x y) :
    y.phase.sawReset = x.phase.sawReset := by
  induction hf with
  | refl => rfl
  | tail _ hstep ih => exact hstep.sawReset_eq.trans ih

/-! ### What a request hands over -/

theorem transmissions_send {x : Exchange σ} {f : Frame} {confirmed : Bool} {t : Transmission}
    (ht : c.attachment.transmission f confirmed = .ok t) :
    (x.send c f confirmed).2.chronicle.transmissions = x.chronicle.transmissions ++ [t] := by
  have hflight := inFlight_follow c (inFlight_close c) (c.link.send x.link t.octets t.waiting) (x.note (.handed t))
  rw [send_of_transmission c ht, hflight.adds.transmissions_eq, chronicle_note, Chronicle.transmissions_append]
  rfl

theorem transmissions_resetSeen (x : Exchange σ) :
    (resetSeen c x).chronicle.transmissions = x.chronicle.transmissions := by
  cases ho : x.isOpen with
  | true =>
      rw [(inFlight_resetSeen c ho).adds.transmissions_eq, letGo, Chronicle.transmissions_append,
        Chronicle.transmissions_append]
      simp [Chronicle.transmissions]
  | false =>
      rw [resetSeen, if_neg (Bool.eq_false_iff.mp ho)]
      simp [Chronicle.transmissions]

theorem transmissions_scan (x : Exchange σ) {awaited : Service} (hr : awaited ≠ .resetIndication) :
    (x.scan c awaited).2.chronicle.transmissions = x.chronicle.transmissions := by
  rcases divide awaited x.arrivals.frames with hall | ⟨passed, f, left, hf, hp, hreset | ha⟩
  · rw [scan_exhausted c hall]
    simp [searched]
  · rw [scan_reset c hf hp hreset, transmissions_resetSeen]
    simp [searched]
  · rw [scan_found c hf hp ha hr]
    simp [searched]

/-- An open client hands a request over once if it fits into a frame. -/
theorem transmissions_request {x : Exchange σ} (ho : x.isOpen = true) {f : Frame} {octets : Octets}
    (he : f.encode = .ok octets) {awaited : Service} (hr : awaited ≠ .resetIndication) :
    (x.request c f awaited).2.chronicle.transmissions = x.chronicle.transmissions ++ [⟨octets, .confirmation⟩] := by
  have ht := transmission_of_encode c he
  have hsend : ((x.note (.sending f)).send c f true).2.chronicle.transmissions
      = x.chronicle.transmissions ++ [⟨octets, .confirmation⟩] := by
    rw [transmissions_send ht, chronicle_note, Chronicle.transmissions_append]
    simp [Chronicle.transmissions]
  rw [request, if_pos ho]
  generalize (x.note (.sending f)).send c f true = o at hsend ⊢
  obtain ⟨r, y⟩ := o
  cases r with
  | ok _ => exact (transmissions_scan y hr).trans hsend
  | error e => exact hsend

end Exchange

end BusManagement
