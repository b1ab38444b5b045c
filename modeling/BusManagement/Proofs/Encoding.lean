import BusManagement.Proofs.Frame

/-! What the octets of a frame hold. A frame has octets exactly if its element count fits into four bits and
its start index into twelve, or if it is a reset service, which carries neither. The octets of a property
frame are its header and its data and lose nothing of it; those of a reset service keep the code only, so
another field survives only if it was zero. -/

namespace BusManagement

namespace Service

/-- The services about no property. -/
def IsReset (s : Service) : Prop := s = .resetRequest ∨ s = .resetIndication

theorem hasHeader_eq_false_iff {s : Service} : s.hasHeader = false ↔ s.IsReset := by
  cases s <;> simp [hasHeader, IsReset]

theorem hasHeader_of_not_isReset {s : Service} (h : ¬s.IsReset) : s.hasHeader = true := by
  apply Bool.of_not_eq_false
  intro hh
  exact h (hasHeader_eq_false_iff.mp hh)

end Service

namespace Frame

/-- The octets spell the frame out: every word is two octets, the more significant one first, and the last
word of the header is the element count, shifted by twelve bits, and the start index. -/
def Spelled (f : Frame) (octets : Octets) : Prop :=
  ∃ typeHigh typeLow spanHigh spanLow : UInt8,
    octets = f.service.code :: typeHigh :: typeLow :: f.objectInstance :: f.pid :: spanHigh :: spanLow
      :: f.data ∧
    typeHigh.toNat * 256 + typeLow.toNat = f.objectType.toNat ∧
    spanHigh.toNat * 256 + spanLow.toNat = f.elements.toNat * 4096 + f.start.toNat

theorem Spelled.length_eq {f : Frame} {octets : Octets} (h : f.Spelled octets) :
    octets.length = 7 + f.data.length := by
  obtain ⟨typeHigh, typeLow, spanHigh, spanLow, rfl, -, -⟩ := h
  simp only [List.length_cons]
  omega

theorem toNat_high_low (w : UInt16) : (Octets.high w).toNat * 256 + (Octets.low w).toNat = w.toNat := by
  rw [Octets.toNat_high, Octets.toNat_low]
  omega

/-- The word of count and start is their sum in the format's sense, provided both fit. -/
theorem toNat_span {elements : UInt8} {start : UInt16} (he : elements ≤ maxElements) (hs : start ≤ maxStart) :
    (span elements start).toNat = elements.toNat * 4096 + start.toNat := by
  have he : elements.toNat ≤ 15 := UInt8.le_iff_toNat_le.mp he
  have hs : start.toNat ≤ 4095 := UInt16.le_iff_toNat_le.mp hs
  simp only [span, UInt16.toNat_ofNat']
  omega

theorem spelled_layout {f : Frame} (he : f.elements ≤ maxElements) (hs : f.start ≤ maxStart) :
    f.Spelled f.layout := by
  refine ⟨_, _, _, _, rfl, toNat_high_low f.objectType, ?_⟩
  rw [toNat_high_low]
  exact toNat_span he hs

/-- A reset service has no use for its other fields. -/
theorem encode_of_isReset {f : Frame} (h : f.service.IsReset) : f.encode = .ok [f.service.code] := by
  rw [encode, Service.hasHeader_eq_false_iff.mpr h]
  rfl

theorem decode_of_isReset {s : Service} (h : s.IsReset) : decode [s.code] = .ok (bare s) := by
  rcases h with rfl | rfl <;> rfl

theorem exists_encode_iff (f : Frame) :
    (∃ octets, f.encode = .ok octets) ↔ f.service.IsReset ∨ f.elements ≤ maxElements ∧ f.start ≤ maxStart := by
  by_cases hr : f.service.IsReset
  · exact ⟨fun _ => .inl hr, fun _ => ⟨_, encode_of_isReset hr⟩⟩
  · have hh := Service.hasHeader_of_not_isReset hr
    constructor
    · rintro ⟨octets, h⟩
      obtain ⟨he, hs, -⟩ := (encode_eq_ok_iff hh).mp h
      exact .inr ⟨he, hs⟩
    · rintro (h | ⟨he, hs⟩)
      · exact absurd h hr
      · exact ⟨f.layout, encode_of_le hh he hs⟩

/-- Of two values that do not fit, the element count is the one that is told. -/
theorem eq_of_encode_eq_error {f : Frame} {e : Fault} (h : f.encode = .error e) :
    e = if 15 < f.elements then .tooManyElements f.elements else .startOutOfRange f.start := by
  rw [encode] at h
  split_ifs at h with hh he hs
  · have hfits : ¬15 < f.elements := UInt8.not_lt.mpr he
    rw [if_neg hfits]
    exact (Except.error.inj h).symm
  · have hmany : 15 < f.elements := UInt8.not_le.mp he
    rw [if_pos hmany]
    exact (Except.error.inj h).symm

theorem bare_eq_iff (f : Frame) :
    bare f.service = f ↔ f.objectType = 0 ∧ f.objectInstance = 0 ∧ f.pid = 0 ∧ f.start = 0 ∧
      f.elements = 0 ∧ f.data = [] := by
  obtain ⟨service, objectType, objectInstance, pid, start, elements, data⟩ := f
  simp only [bare, Frame.mk.injEq, true_and]
  constructor
  · rintro ⟨rfl, rfl, rfl, rfl, rfl, rfl⟩
    simp
  · rintro ⟨rfl, rfl, rfl, rfl, rfl, rfl⟩
    simp

/-- Encoding loses nothing of a frame that fits, and everything but the code of a reset service. -/
theorem encode_lossless (f : Frame) :
    ((∃ octets, f.encode = .ok octets) ↔ f.service.IsReset ∨ f.elements ≤ 15 ∧ f.start ≤ 0xfff) ∧
    (∀ e, f.encode = .error e → e.kind = .invalidData ∧
      e = if 15 < f.elements then .tooManyElements f.elements else .startOutOfRange f.start) ∧
    (¬f.service.IsReset → ∀ octets, f.encode = .ok octets →
      octets.length = 7 + f.data.length ∧ f.Spelled octets ∧ decode octets = .ok f) ∧
    (f.service.IsReset → f.encode = .ok [f.service.code] ∧ decode [f.service.code] = .ok (bare f.service) ∧
      (bare f.service = f ↔ f.objectType = 0 ∧ f.objectInstance = 0 ∧ f.pid = 0 ∧ f.start = 0 ∧
        f.elements = 0 ∧ f.data = [])) := by
  refine ⟨exists_encode_iff f, fun e h => ?_, fun hr octets h => ?_, fun hr => ?_⟩
  · have he := eq_of_encode_eq_error h
    refine ⟨?_, he⟩
    rw [he]
    split_ifs <;> rfl
  · have hh := Service.hasHeader_of_not_isReset hr
    obtain ⟨he, hs, rfl⟩ := (encode_eq_ok_iff hh).mp h
    have hspelled := spelled_layout he hs
    exact ⟨hspelled.length_eq, hspelled, decode_layout hh he hs⟩
  · exact ⟨encode_of_isReset hr, decode_of_isReset hr, bare_eq_iff f⟩

/-- The longest range that fits, and its count above its start in the last word of the header. -/
example : encode ⟨.writeRequest, 8, 1, 52, 4095, 15, [7]⟩ = .ok [0xf6, 0, 8, 1, 52, 0xff, 0xff, 7] := rfl

end Frame

end BusManagement
