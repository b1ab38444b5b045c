import BusManagement.Frame.Basic

/-! The octets of a frame. A reset service is its message code alone. Every other frame has a header
of seven octets, namely the code, the object type, the instance, the property id and one word that
holds the element count above the start index, and its data behind the header. -/

namespace BusManagement.Frame

/-- The element count and the start index in one word: four bits above twelve. -/
def span (elements : UInt8) (start : UInt16) : UInt16 :=
  UInt16.ofNat (elements.toNat * 4096 + start.toNat)

def spanElements (w : UInt16) : UInt8 := UInt8.ofNat (w.toNat / 4096)

def spanStart (w : UInt16) : UInt16 := UInt16.ofNat (w.toNat % 4096)

theorem toNat_spanElements (w : UInt16) : (spanElements w).toNat = w.toNat / 4096 := by
  have := w.toNat_lt
  simp only [spanElements, UInt8.toNat_ofNat']
  omega

theorem toNat_spanStart (w : UInt16) : (spanStart w).toNat = w.toNat % 4096 := by
  simp only [spanStart, UInt16.toNat_ofNat']
  omega

@[simp] theorem span_elements_start (w : UInt16) : span (spanElements w) (spanStart w) = w := by
  have := w.toNat_lt
  apply UInt16.toNat_inj.mp
  simp only [span, UInt16.toNat_ofNat', toNat_spanElements, toNat_spanStart]
  omega

theorem spanElements_le (w : UInt16) : spanElements w ≤ maxElements := by
  have := w.toNat_lt
  rw [UInt8.le_iff_toNat_le, toNat_spanElements]
  show w.toNat / 4096 ≤ 15
  omega

theorem spanStart_le (w : UInt16) : spanStart w ≤ maxStart := by
  rw [UInt16.le_iff_toNat_le, toNat_spanStart]
  show w.toNat % 4096 ≤ 4095
  omega

/-- The element count comes back from its word, provided both values fit into their bits. -/
theorem spanElements_span {elements : UInt8} {start : UInt16} (he : elements ≤ maxElements)
    (hs : start ≤ maxStart) : spanElements (span elements start) = elements := by
  have he : elements.toNat ≤ 15 := UInt8.le_iff_toNat_le.mp he
  have hs : start.toNat ≤ 4095 := UInt16.le_iff_toNat_le.mp hs
  apply UInt8.toNat_inj.mp
  simp only [toNat_spanElements, span, UInt16.toNat_ofNat']
  omega

theorem spanStart_span {elements : UInt8} {start : UInt16} (he : elements ≤ maxElements)
    (hs : start ≤ maxStart) : spanStart (span elements start) = start := by
  have he : elements.toNat ≤ 15 := UInt8.le_iff_toNat_le.mp he
  have hs : start.toNat ≤ 4095 := UInt16.le_iff_toNat_le.mp hs
  apply UInt16.toNat_inj.mp
  simp only [toNat_spanStart, span, UInt16.toNat_ofNat']
  omega

def layout (f : Frame) : Octets :=
  f.service.code :: Octets.ofWord f.objectType ++ [f.objectInstance, f.pid]
    ++ Octets.ofWord (span f.elements f.start) ++ f.data

/-- The octets of a frame. A frame that does not fit has none, and its element count is looked at
first. -/
def encode (f : Frame) : Except Fault Octets :=
  if f.service.hasHeader then
    if f.elements ≤ maxElements then
      if f.start ≤ maxStart then .ok f.layout else .error (.startOutOfRange f.start)
    else .error (.tooManyElements f.elements)
  else .ok [f.service.code]

/-- The frame that a run of octets holds. What follows the code of a reset service is not looked at. -/
def decode : Octets → Except Fault Frame
  | [] => .error .emptyFrame
  | code :: rest =>
    match Service.ofCode? code with
    | none => .error (.unsupportedService code)
    | some service =>
      if service.hasHeader then
        match rest with
        | typeHigh :: typeLow :: objectInstance :: pid :: spanHigh :: spanLow :: data =>
          let w := Octets.word spanHigh spanLow
          .ok ⟨service, Octets.word typeHigh typeLow, objectInstance, pid, spanStart w, spanElements w, data⟩
        | _ => .error (.frameTooShort service (rest.length + 1))
      else .ok (bare service)

end BusManagement.Frame
