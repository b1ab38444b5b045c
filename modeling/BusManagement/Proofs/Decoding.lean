import BusManagement.Proofs.Encoding

/-! Which octets hold a frame, and what is kept of them. The decoder takes exactly the octets of the format, and
encoding what it made of them gives the same octets back, all of them for a property frame and the code alone for
a reset service. So a frame has one written form, up to what follows the code of a reset service, and the decoder
makes no frame that the encoder would refuse. -/

namespace BusManagement

/-- The message codes that are supported. -/
def Octets.supportedCodes : List UInt8 := [0xfc, 0xfb, 0xf6, 0xf5, 0xf7, 0xf1, 0xf0]

/-- The codes among them behind which nothing is looked at. -/
def Octets.resetCodes : List UInt8 := [0xf1, 0xf0]

open Octets (supportedCodes resetCodes)

/-- The format of a frame: a supported code, and a whole header of seven octets unless the code stands alone. -/
def Octets.IsFrame (octets : Octets) : Prop :=
  ∃ code rest, octets = code :: rest ∧ code ∈ supportedCodes ∧ (code ∈ resetCodes ∨ 7 ≤ octets.length)

/-- Both octets start with the same reset code, and may differ behind it. -/
def Octets.SameReset (octets others : Octets) : Prop :=
  ∃ code rest rest', code ∈ resetCodes ∧ octets = code :: rest ∧ others = code :: rest'

namespace Service

theorem code_mem_supportedCodes (s : Service) : s.code ∈ supportedCodes := by
  cases s <;> decide

theorem code_mem_resetCodes_iff {s : Service} : s.code ∈ resetCodes ↔ s.IsReset := by
  cases s <;> simp [code, resetCodes, IsReset]

theorem exists_code_eq {c : UInt8} (h : c ∈ supportedCodes) : ∃ s : Service, s.code = c := by
  simp only [supportedCodes, List.mem_cons, List.not_mem_nil, or_false] at h
  rcases h with rfl | rfl | rfl | rfl | rfl | rfl | rfl
  · exact ⟨readRequest, rfl⟩
  · exact ⟨readConfirmation, rfl⟩
  · exact ⟨writeRequest, rfl⟩
  · exact ⟨writeConfirmation, rfl⟩
  · exact ⟨infoIndication, rfl⟩
  · exact ⟨resetRequest, rfl⟩
  · exact ⟨resetIndication, rfl⟩

end Service

namespace Frame

/-- What the decoder makes of octets that start with the code of a service. -/
theorem decode_code_cons (s : Service) (rest : Octets) :
    decode (s.code :: rest) =
      if s.hasHeader then
        match rest with
        | typeHigh :: typeLow :: objectInstance :: pid :: spanHigh :: spanLow :: data =>
          .ok ⟨s, Octets.word typeHigh typeLow, objectInstance, pid, spanStart (Octets.word spanHigh spanLow),
            spanElements (Octets.word spanHigh spanLow), data⟩
        | _ => .error (.frameTooShort s (rest.length + 1))
      else .ok (bare s) := by
  rw [decode, Service.ofCode?_code]
  rfl

/-- Behind the code of a reset service nothing is looked at. -/
theorem decode_code_cons_of_isReset {s : Service} (h : s.IsReset) (rest : Octets) :
    decode (s.code :: rest) = .ok (bare s) := by
  rw [decode_code_cons, Service.hasHeader_eq_false_iff.mpr h]
  rfl

theorem exists_code_of_decode {octets : Octets} {f : Frame} (h : decode octets = .ok f) :
    ∃ rest, octets = f.service.code :: rest := by
  cases octets with
  | nil => cases h
  | cons code rest =>
      refine ⟨rest, ?_⟩
      cases hs : Service.ofCode? code with
      | none =>
          rw [decode, hs] at h
          cases h
      | some s =>
          obtain rfl : s.code = code := Service.code_of_ofCode? hs
          have hservice : f.service = s := by
            rw [decode_code_cons] at h
            split_ifs at h
            · split at h
              · rw [← Except.ok.inj h]
              · cases h
            · rw [← Except.ok.inj h]
              rfl
          rw [hservice]

/-- A property frame that was decoded fits, and was laid out just as it came. -/
theorem layout_of_decode {octets : Octets} {f : Frame} (hh : f.service.hasHeader = true)
    (h : decode octets = .ok f) : f.elements ≤ maxElements ∧ f.start ≤ maxStart ∧ f.layout = octets := by
  obtain ⟨rest, rfl⟩ := exists_code_of_decode h
  rw [decode_code_cons, if_pos hh] at h
  split at h
  · next typeHigh typeLow objectInstance pid spanHigh spanLow data =>
      obtain ⟨service, objectType, objectInstance', pid', start, elements, data'⟩ := f
      obtain ⟨-, rfl, rfl, rfl, rfl, rfl, rfl⟩ := Frame.mk.inj (Except.ok.inj h)
      exact ⟨spanElements_le _, spanStart_le _, by simp [layout, Octets.ofWord]⟩
  · cases h

theorem eq_bare_of_decode {octets : Octets} {f : Frame} (hr : f.service.IsReset)
    (h : decode octets = .ok f) : f = bare f.service := by
  obtain ⟨rest, rfl⟩ := exists_code_of_decode h
  rw [decode_code_cons_of_isReset hr] at h
  exact (Except.ok.inj h).symm

/-- The octets of a decoded frame are those it came from, without what follows the code of a reset service. -/
theorem encode_of_decode {code : UInt8} {rest : Octets} {f : Frame} (h : decode (code :: rest) = .ok f) :
    f.encode = .ok (if code ∈ resetCodes then [code] else code :: rest) := by
  obtain ⟨rest', hcode⟩ := exists_code_of_decode h
  obtain ⟨rfl, rfl⟩ := List.cons.inj hcode
  by_cases hr : f.service.IsReset
  · rw [if_pos (Service.code_mem_resetCodes_iff.mpr hr)]
    exact encode_of_isReset hr
  · have hh := Service.hasHeader_of_not_isReset hr
    obtain ⟨he, hs, hlayout⟩ := layout_of_decode hh h
    rw [if_neg fun hmem => hr (Service.code_mem_resetCodes_iff.mp hmem), ← hlayout]
    exact encode_of_le hh he hs

/-- What is kept of the octets of a frame holds the same frame. -/
theorem decode_kept {code : UInt8} {rest : Octets} {f : Frame} (h : decode (code :: rest) = .ok f) :
    decode (if code ∈ resetCodes then [code] else code :: rest) = .ok f := by
  obtain ⟨rest', hcode⟩ := exists_code_of_decode h
  obtain ⟨rfl, rfl⟩ := List.cons.inj hcode
  split_ifs with hmem
  · have hr := Service.code_mem_resetCodes_iff.mp hmem
    rw [eq_bare_of_decode hr h]
    exact decode_of_isReset hr
  · exact h

theorem isFrame_of_decode {octets : Octets} {f : Frame} (h : decode octets = .ok f) : octets.IsFrame := by
  obtain ⟨rest, hoctets⟩ := exists_code_of_decode h
  refine ⟨f.service.code, rest, hoctets, f.service.code_mem_supportedCodes, ?_⟩
  by_cases hr : f.service.IsReset
  · exact .inl (Service.code_mem_resetCodes_iff.mpr hr)
  · obtain ⟨he, hs, hlayout⟩ := layout_of_decode (Service.hasHeader_of_not_isReset hr) h
    right
    rw [← hlayout, (spelled_layout he hs).length_eq]
    exact Nat.le_add_right 7 _

theorem exists_decode_of_isFrame {octets : Octets} (h : octets.IsFrame) : ∃ f, decode octets = .ok f := by
  obtain ⟨code, rest, rfl, hmem, hlong⟩ := h
  obtain ⟨s, rfl⟩ := Service.exists_code_eq hmem
  by_cases hr : s.IsReset
  · exact ⟨bare s, decode_code_cons_of_isReset hr rest⟩
  · rw [decode_code_cons, if_pos (Service.hasHeader_of_not_isReset hr)]
    have hseven : 7 ≤ (s.code :: rest).length :=
      hlong.resolve_left fun hreset => hr (Service.code_mem_resetCodes_iff.mp hreset)
    match rest, hseven with
    | _ :: _ :: _ :: _ :: _ :: _ :: _, _ => exact ⟨_, rfl⟩

/-- The same frame comes of the same octets, or of a reset code with anything behind it. -/
theorem decode_eq_decode_iff {octets others : Octets} {f g : Frame} (hf : decode octets = .ok f)
    (hg : decode others = .ok g) : f = g ↔ octets = others ∨ octets.SameReset others := by
  obtain ⟨rest, hoctets⟩ := exists_code_of_decode hf
  obtain ⟨rest', hothers⟩ := exists_code_of_decode hg
  constructor
  · rintro rfl
    by_cases hr : f.service.IsReset
    · exact .inr ⟨_, rest, rest', Service.code_mem_resetCodes_iff.mpr hr, hoctets, hothers⟩
    · have hh := Service.hasHeader_of_not_isReset hr
      left
      exact (layout_of_decode hh hf).2.2.symm.trans (layout_of_decode hh hg).2.2
  · rintro (heq | ⟨code, tail, tail', hmem, rfl, rfl⟩)
    · rw [heq, hg] at hf
      exact (Except.ok.inj hf).symm
    · obtain ⟨rfl, -⟩ := List.cons.inj hoctets
      have hsame : f.service = g.service := Service.code_injective (List.cons.inj hothers).1
      have hr := Service.code_mem_resetCodes_iff.mp hmem
      rw [eq_bare_of_decode hr hf, eq_bare_of_decode (hsame ▸ hr) hg, hsame]

/-- The decoder takes the format and nothing else, and what it makes of octets has octets again: the same ones,
or the code alone of a reset service. -/
theorem decode_canonical (octets : Octets) :
    ((∃ f, decode octets = .ok f) ↔ octets.IsFrame) ∧
    (∀ f, decode octets = .ok f → ∃ code rest kept, octets = code :: rest ∧
      kept = (if code ∈ resetCodes then [code] else octets) ∧
      f.encode = .ok kept ∧ decode kept = decode octets) ∧
    ∀ f others g, decode octets = .ok f → decode others = .ok g →
      (f = g ↔ octets = others ∨ octets.SameReset others) := by
  refine ⟨⟨fun ⟨f, h⟩ => isFrame_of_decode h, exists_decode_of_isFrame⟩, fun f h => ?_,
    fun f others g hf hg => decode_eq_decode_iff hf hg⟩
  obtain ⟨rest, rfl⟩ := exists_code_of_decode h
  exact ⟨_, rest, _, rfl, rfl, encode_of_decode h, (decode_kept h).trans h.symm⟩

/-- One octet of the header is missing. -/
example : decode [0xfc, 0, 0, 1, 71, 0x10] = .error (.frameTooShort .readRequest 6) := rfl

end Frame

end BusManagement
