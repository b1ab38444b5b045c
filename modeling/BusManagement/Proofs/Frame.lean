import BusManagement.Frame.Codec
import Mathlib.Tactic.SplitIfs

/-! Frames on their way over a link. A frame that has octets comes back from them as it was, so whoever
decodes a request knows it whole; and a confirmation belongs to its request by everything that both
carry. -/

namespace BusManagement

namespace Service

/-- The service that confirms a request. -/
def confirmation? : Service → Option Service
  | readRequest => some readConfirmation
  | writeRequest => some writeConfirmation
  | _ => none

theorem hasHeader_of_confirmation? {s t : Service} (h : s.confirmation? = some t) : s.hasHeader = true := by
  cases s <;> first | rfl | cases h

theorem isConfirmation_of_confirmation? {s t : Service} (h : s.confirmation? = some t) :
    t.isConfirmation = true := by
  cases s <;> cases h <;> rfl

theorem eq_readRequest_of_confirmation? {s : Service} (h : s.confirmation? = some readConfirmation) :
    s = readRequest := by
  cases s <;> first | rfl | cases h

theorem hasHeader_of_isConfirmation {s : Service} (h : s.isConfirmation = true) : s.hasHeader = true := by
  cases s <;> first | rfl | cases h

theorem ne_resetIndication_of_confirmation? {s t : Service} (h : s.confirmation? = some t) :
    t ≠ .resetIndication := by
  cases s <;> cases h <;> decide

end Service

namespace Frame

/-- A confirmation answers a request: its kind fits, and it repeats the property and the start. -/
structure Confirms (f request : Frame) : Prop where
  service : request.service.confirmation? = some f.service
  objectType : f.objectType = request.objectType
  objectInstance : f.objectInstance = request.objectInstance
  pid : f.pid = request.pid
  start : f.start = request.start

instance (f request : Frame) : Decidable (f.Confirms request) :=
  decidable_of_iff (request.service.confirmation? = some f.service ∧ f.objectType = request.objectType ∧
    f.objectInstance = request.objectInstance ∧ f.pid = request.pid ∧ f.start = request.start)
    ⟨fun ⟨h₁, h₂, h₃, h₄, h₅⟩ => ⟨h₁, h₂, h₃, h₄, h₅⟩, fun ⟨h₁, h₂, h₃, h₄, h₅⟩ => ⟨h₁, h₂, h₃, h₄, h₅⟩⟩

theorem Confirms.isConfirmation {f request : Frame} (h : f.Confirms request) :
    f.service.isConfirmation = true := Service.isConfirmation_of_confirmation? h.service

theorem decode_layout {f : Frame} (hh : f.service.hasHeader = true) (he : f.elements ≤ maxElements)
    (hs : f.start ≤ maxStart) : decode f.layout = .ok f := by
  simp [layout, Octets.ofWord, decode, hh, spanElements_span he hs, spanStart_span he hs]

theorem encode_eq_ok_iff {f : Frame} (hh : f.service.hasHeader = true) {octets : Octets} :
    f.encode = .ok octets ↔ f.elements ≤ maxElements ∧ f.start ≤ maxStart ∧ octets = f.layout := by
  rw [encode, if_pos hh]
  split_ifs with he hs
  · simp [he, hs, eq_comm]
  · simp [hs]
  · simp [he]

theorem encode_of_le {f : Frame} (hh : f.service.hasHeader = true) (he : f.elements ≤ maxElements)
    (hs : f.start ≤ maxStart) : f.encode = .ok f.layout :=
  (encode_eq_ok_iff hh).mpr ⟨he, hs, rfl⟩

/-- What the octets of a property frame are decoded to. -/
theorem decode_of_encode {f : Frame} (hh : f.service.hasHeader = true) {octets : Octets}
    (h : f.encode = .ok octets) : decode octets = .ok f := by
  obtain ⟨he, hs, rfl⟩ := (encode_eq_ok_iff hh).mp h
  exact decode_layout hh he hs

/-- A frame with octets belongs to the family that the client listens to. -/
theorem inFamily_of_decode {code : UInt8} {rest : Octets} {f : Frame} (h : decode (code :: rest) = .ok f) :
    Service.inFamily code = true := by
  rw [decode] at h
  split at h
  · cases h
  · next service hs =>
      rw [← Service.code_of_ofCode? hs]
      exact Service.inFamily_code service

end Frame

end BusManagement
