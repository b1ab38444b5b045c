import BusManagement.Property.Description.Basic
import Mathlib.Data.FinEnum
import Mathlib.Tactic.SplitIfs

/-! What survives between descriptions and their octets. The octets have bits that belong to no field, and
descriptions have fields that are wider than their bits; reading drops the former and writing the latter. So both ways
round are projections: octets that are read and written again come back with the stray bits cleared, a description
that is written and read again comes back with every field cut to its width, and nothing is lost exactly if there was
nothing to drop. -/

namespace BusManagement

namespace Octets

/-- A mask leaves an octet as it is if the octet has no bit besides. -/
theorem and_eq_right_iff (mask o : UInt8) : mask &&& o = o ↔ o &&& ~~~mask = 0 := by
  rw [← UInt8.toBitVec_inj, ← UInt8.toBitVec_inj]
  simp only [UInt8.toBitVec_and, UInt8.toBitVec_not, UInt8.toBitVec_ofNat]
  constructor
  · intro h
    rw [← h]
    ext i hi
    simp only [BitVec.getElem_and, BitVec.getElem_not, BitVec.getElem_zero]
    cases mask.toBitVec[i] <;> simp
  · intro h
    ext i hi
    have hbit := congrArg (fun b : BitVec 8 => b[i]) h
    simp only [BitVec.getElem_and, BitVec.getElem_not, BitVec.getElem_zero] at hbit
    rw [BitVec.getElem_and]
    cases hm : mask.toBitVec[i] with
    | true => rw [Bool.true_and]
    | false =>
        rw [hm] at hbit
        simpa using hbit.symm

theorem whole_and (o : UInt8) : 0xff &&& o = o := UInt8.neg_one_and

theorem half_and (o : UInt8) : 0x0f &&& o = o % 16 := by
  apply UInt8.toNat_inj.mp
  rw [UInt8.and_comm, UInt8.toNat_and, UInt8.toNat_mod]
  exact Nat.and_two_pow_sub_one_eq_mod o.toNat 4

theorem high_mod (w : UInt16) : high (w % 4096) = high w % 16 := by
  apply UInt8.toNat_inj.mp
  simp only [toNat_high, UInt8.toNat_mod, UInt16.toNat_mod, UInt8.toNat_ofNat, UInt16.toNat_ofNat,
    Nat.reducePow, Nat.reduceMod]
  omega

theorem low_mod (w : UInt16) : low (w % 4096) = low w := by
  apply UInt8.toNat_inj.mp
  simp only [toNat_low, UInt16.toNat_mod, UInt16.toNat_ofNat, Nat.reducePow, Nat.reduceMod]
  omega

end Octets

namespace Description

/-- The bits of the seven octets that belong to a field. Bit 6 of octet 3 does not, nor does the upper half of
octet 4, both octets counted from 0. -/
def fieldBits : Octets := [0xff, 0xff, 0xff, 0xbf, 0x0f, 0xff, 0xff]

/-- The first seven octets, without the bits that belong to no field. -/
def kept (octets : Octets) : Octets := List.zipWith (· &&& ·) fieldBits octets

/-- The description with each field cut to its width. -/
def narrowed (d : Description) : Description :=
  { d with
    dataType := d.dataType % 64
    maxElements := d.maxElements % 4096
    readLevel := d.readLevel % 16
    writeLevel := d.writeLevel % 16 }

/-! ### Octets with two fields -/

/-- The flag and the data type are all of their octet but the bit between them. -/
theorem kind_and : ∀ o : UInt8, 0xbf &&& o = (if writeFlag ≤ o then writeFlag else 0) + o % 64 := by
  -- The gap in the mask is no matter of division, so the values are gone through one by one.
  decide +kernel

theorem toNat_kind (enabled : Bool) (t : UInt8) :
    ((if enabled then writeFlag else 0) + t % 64).toNat = (if enabled then 128 else 0) + t.toNat % 64 := by
  cases enabled <;>
    simp only [writeFlag, UInt8.toNat_add, UInt8.toNat_mod, UInt8.toNat_ofNat, if_true, if_false, Nat.reducePow,
      Nat.reduceMod, Bool.false_eq_true] <;>
    omega

theorem writeFlag_le_kind (enabled : Bool) (t : UInt8) :
    decide (writeFlag ≤ (if enabled then writeFlag else 0) + t % 64) = enabled := by
  have hle : writeFlag ≤ (if enabled then writeFlag else 0) + t % 64 ↔
      128 ≤ (if enabled then 128 else 0) + t.toNat % 64 := by
    rw [UInt8.le_iff_toNat_le, toNat_kind]
    rfl
  cases enabled with
  | false => exact decide_eq_false (mt hle.mp (by simp; omega))
  | true => exact decide_eq_true (hle.mpr (by simp))

theorem kind_mod (enabled : Bool) (t : UInt8) : ((if enabled then writeFlag else 0) + t % 64) % 64 = t % 64 := by
  apply UInt8.toNat_inj.mp
  rw [UInt8.toNat_mod, toNat_kind, UInt8.toNat_mod]
  cases enabled <;> simp [Nat.add_mod]

theorem levels_eq (o : UInt8) : o / 16 * 16 + o % 16 = o := by
  have := o.toNat_lt
  apply UInt8.toNat_inj.mp
  simp only [UInt8.toNat_add, UInt8.toNat_mul, UInt8.toNat_mod, UInt8.toNat_div, UInt8.toNat_ofNat, Nat.reducePow,
    Nat.reduceMod]
  omega

theorem toNat_levels (r w : UInt8) : (r % 16 * 16 + w % 16).toNat = r.toNat % 16 * 16 + w.toNat % 16 := by
  simp only [UInt8.toNat_add, UInt8.toNat_mul, UInt8.toNat_mod, UInt8.toNat_ofNat, Nat.reducePow, Nat.reduceMod]
  omega

theorem levels_div (r w : UInt8) : (r % 16 * 16 + w % 16) / 16 = r % 16 := by
  apply UInt8.toNat_inj.mp
  rw [UInt8.toNat_div, toNat_levels, UInt8.toNat_mod]
  show (r.toNat % 16 * 16 + w.toNat % 16) / 16 = r.toNat % 16
  omega

theorem levels_mod (r w : UInt8) : (r % 16 * 16 + w % 16) % 16 = w % 16 := by
  apply UInt8.toNat_inj.mp
  rw [UInt8.toNat_mod, toNat_levels, UInt8.toNat_mod]
  show (r.toNat % 16 * 16 + w.toNat % 16) % 16 = w.toNat % 16
  omega

/-! ### Fields and their widths -/

theorem narrowed_eq_iff (d : Description) :
    d.narrowed = d ↔ d.dataType ≤ 63 ∧ d.maxElements ≤ 4095 ∧ d.readLevel ≤ 15 ∧ d.writeLevel ≤ 15 := by
  obtain ⟨objectIndex, pid, propertyIndex, writeEnabled, dataType, maxElements, readLevel, writeLevel⟩ := d
  simp only [narrowed, mk.injEq, true_and, ← UInt8.toNat_inj, ← UInt16.toNat_inj, UInt8.toNat_mod, UInt16.toNat_mod,
    UInt8.le_iff_toNat_le, UInt16.le_iff_toNat_le, UInt8.toNat_ofNat, UInt16.toNat_ofNat, Nat.reducePow, Nat.reduceMod]
  omega

/-- What is written of a description is read back, cut to the widths of the fields. -/
theorem ofOctets_octets (d : Description) : ofOctets d.octets = .ok d.narrowed := by
  have hmod : d.maxElements % 4096 % 4096 = d.maxElements % 4096 := by
    apply UInt16.toNat_inj.mp
    simp only [UInt16.toNat_mod, Nat.mod_mod]
  simp [octets, ofOctets, Octets.ofWord, narrowed, writeFlag_le_kind, kind_mod, hmod, levels_div, levels_mod]

/-- Fields within their widths are written as they are. -/
theorem octets_of_narrowed {d : Description} (h : d.narrowed = d) :
    d.octets = [d.objectIndex, d.pid, d.propertyIndex, (if d.writeEnabled then writeFlag else 0) + d.dataType,
      Octets.high d.maxElements, Octets.low d.maxElements, d.readLevel * 16 + d.writeLevel] := by
  have ht : d.dataType % 64 = d.dataType := congrArg dataType h
  have hm : d.maxElements % 4096 = d.maxElements := congrArg maxElements h
  have hr : d.readLevel % 16 = d.readLevel := congrArg readLevel h
  have hw : d.writeLevel % 16 = d.writeLevel := congrArg writeLevel h
  rw [octets, ht, hm, hr, hw]
  rfl

/-! ### Octets that are read and written again -/

section Octets

variable {os : Octets} {d : Description}

theorem exists_cons_of_le (h : 7 ≤ os.length) :
    ∃ o₀ o₁ o₂ o₃ o₄ o₅ o₆ rest, os = o₀ :: o₁ :: o₂ :: o₃ :: o₄ :: o₅ :: o₆ :: rest :=
  match os, h with
  | _ :: _ :: _ :: _ :: _ :: _ :: _ :: _, _ => ⟨_, _, _, _, _, _, _, _, rfl⟩

theorem ofOctets_of_lt (h : os.length < 7) : ofOctets os = .error (.descriptionTooShort os.length) := by
  unfold ofOctets
  split
  · simp only [List.length_cons] at h
    omega
  · rfl

theorem exists_ofOctets_iff (os : Octets) : (∃ d, ofOctets os = .ok d) ↔ 7 ≤ os.length := by
  constructor
  · rintro ⟨d, h⟩
    by_contra hshort
    rw [ofOctets_of_lt (Nat.not_le.mp hshort)] at h
    cases h
  · intro h
    obtain ⟨o₀, o₁, o₂, o₃, o₄, o₅, o₆, rest, rfl⟩ := exists_cons_of_le h
    exact ⟨_, rfl⟩

theorem ofOctets_take (os : Octets) : ofOctets (os.take 7) = ofOctets os := by
  rcases Nat.lt_or_ge os.length 7 with h | h
  · rw [List.take_of_length_le (Nat.le_of_lt h)]
  · obtain ⟨o₀, o₁, o₂, o₃, o₄, o₅, o₆, rest, rfl⟩ := exists_cons_of_le h
    rfl

/-- What a description was read from. -/
theorem exists_cons_of_ofOctets (h : ofOctets os = .ok d) :
    ∃ objectIndex pid propertyIndex kind countHigh countLow levels rest,
      os = objectIndex :: pid :: propertyIndex :: kind :: countHigh :: countLow :: levels :: rest ∧
      d = ⟨objectIndex, pid, propertyIndex, writeFlag ≤ kind, kind % 64, Octets.word countHigh countLow % 4096,
        levels / 16, levels % 16⟩ := by
  obtain ⟨o₀, o₁, o₂, o₃, o₄, o₅, o₆, rest, rfl⟩ := exists_cons_of_le ((exists_ofOctets_iff os).mp ⟨d, h⟩)
  exact ⟨o₀, o₁, o₂, o₃, o₄, o₅, o₆, rest, rfl, (Except.ok.inj h).symm⟩

/-- A description that was read has no field beyond its width. -/
theorem narrowed_of_ofOctets (h : ofOctets os = .ok d) : d.narrowed = d := by
  obtain ⟨-, -, -, kind, countHigh, countLow, levels, -, -, rfl⟩ := exists_cons_of_ofOctets h
  have := levels.toNat_lt
  simp only [narrowed_eq_iff, UInt8.le_iff_toNat_le, UInt16.le_iff_toNat_le, UInt8.toNat_mod, UInt8.toNat_div,
    UInt16.toNat_mod, UInt8.toNat_ofNat, UInt16.toNat_ofNat, Nat.reducePow, Nat.reduceMod]
  omega

/-- What was read is written without the stray bits. -/
theorem octets_of_ofOctets (h : ofOctets os = .ok d) : d.octets = kept os := by
  rw [octets_of_narrowed (narrowed_of_ofOctets h)]
  obtain ⟨_, _, _, kind, countHigh, countLow, levels, _, rfl, rfl⟩ := exists_cons_of_ofOctets h
  simp [kept, fieldBits, Octets.whole_and, kind_and, Octets.half_and, Octets.high_mod, Octets.low_mod, levels_eq]

theorem kept_eq_take_iff (h : 7 ≤ os.length) :
    kept os = os.take 7 ↔ os.getD 3 0 &&& 0x40 = 0 ∧ os.getD 4 0 &&& 0xf0 = 0 := by
  obtain ⟨o₀, o₁, o₂, o₃, o₄, o₅, o₆, rest, rfl⟩ := exists_cons_of_le h
  have hkind : 0xbf &&& o₃ = o₃ ↔ o₃ &&& 0x40 = 0 := Octets.and_eq_right_iff 0xbf o₃
  have hhalf : 0x0f &&& o₄ = o₄ ↔ o₄ &&& 0xf0 = 0 := Octets.and_eq_right_iff 0x0f o₄
  simp [kept, fieldBits, Octets.whole_and, hkind, hhalf]

theorem map_octets_ofOctets (os : Octets) :
    (ofOctets os).map octets = if 7 ≤ os.length then .ok (kept os) else .error (.descriptionTooShort os.length) := by
  split_ifs with h
  · obtain ⟨d, hd⟩ := (exists_ofOctets_iff os).mpr h
    rw [hd, ← octets_of_ofOctets hd]
    rfl
  · rw [ofOctets_of_lt (Nat.not_le.mp h)]
    rfl

/-- Reading takes no notice of the stray bits. -/
theorem ofOctets_kept (os : Octets) : ofOctets (kept os) = ofOctets os := by
  rcases Nat.lt_or_ge os.length 7 with h | h
  · have hlength : (kept os).length = os.length := by
      rw [kept, List.length_zipWith]
      exact Nat.min_eq_right (Nat.le_of_lt h)
    rw [ofOctets_of_lt h, ofOctets_of_lt (hlength ▸ h), hlength]
  · obtain ⟨d, hd⟩ := (exists_ofOctets_iff os).mpr h
    rw [← octets_of_ofOctets hd, ofOctets_octets, narrowed_of_ofOctets hd, hd]

/-- Writing takes no notice of what exceeds the widths. -/
theorem octets_narrowed (d : Description) : d.narrowed.octets = d.octets := by
  rw [octets_of_narrowed (narrowed_of_ofOctets (ofOctets_octets d))]
  rfl

end Octets

/-- Octets can be read exactly if they are at least seven, of which no more than seven are looked at. Written again,
they come back as their first seven with bit 6 of octet 3 and the upper half of octet 4 cleared, hence unchanged
exactly if these bits are 0. A description of any fields can be written; read again, it comes back with its data type,
greatest element count and levels cut to their widths, hence unchanged exactly if these fit, and a field that does
not fit is no matter for any other. -/
theorem codec_projects :
    (∀ os : Octets,
      ((∃ d, ofOctets os = .ok d) ↔ 7 ≤ os.length) ∧
      ofOctets os = ofOctets (os.take 7) ∧
      (ofOctets os).map octets =
        (if 7 ≤ os.length then .ok (kept os) else .error (.descriptionTooShort os.length)) ∧
      ((ofOctets os).map octets = .ok (os.take 7) ↔
        7 ≤ os.length ∧ os.getD 3 0 &&& 0x40 = 0 ∧ os.getD 4 0 &&& 0xf0 = 0) ∧
      ofOctets (kept os) = ofOctets os) ∧
    (∀ d : Description,
      ofOctets d.octets = .ok d.narrowed ∧
      (ofOctets d.octets = .ok d ↔
        d.dataType ≤ 63 ∧ d.maxElements ≤ 4095 ∧ d.readLevel ≤ 15 ∧ d.writeLevel ≤ 15) ∧
      d.narrowed.octets = d.octets ∧
      (∀ t, ofOctets { d with dataType := t }.octets = .ok { d.narrowed with dataType := t % 64 }) ∧
      (∀ n, ofOctets { d with maxElements := n }.octets = .ok { d.narrowed with maxElements := n % 4096 }) ∧
      (∀ l, ofOctets { d with readLevel := l }.octets = .ok { d.narrowed with readLevel := l % 16 }) ∧
      ∀ l, ofOctets { d with writeLevel := l }.octets = .ok { d.narrowed with writeLevel := l % 16 }) ∧
    ∀ length, (Fault.descriptionTooShort length).kind = .invalidData := by
  refine ⟨fun os => ⟨exists_ofOctets_iff os, (ofOctets_take os).symm, map_octets_ofOctets os, ?same,
      ofOctets_kept os⟩,
    fun d => ⟨ofOctets_octets d, ?whole, octets_narrowed d, fun t => ofOctets_octets _, fun n => ofOctets_octets _,
      fun l => ofOctets_octets _, fun l => ofOctets_octets _⟩, fun length => rfl⟩
  case same =>
    rw [map_octets_ofOctets]
    split_ifs with h
    · rw [Except.ok.injEq, kept_eq_take_iff h]
      exact (and_iff_right h).symm
    · simp [h]
  case whole => rw [ofOctets_octets, Except.ok.injEq, narrowed_eq_iff]

/-- Every bit is set, and an eighth octet follows. -/
example : (ofOctets [255, 255, 255, 255, 255, 255, 255, 9]).map octets = .ok [255, 255, 255, 0xbf, 0x0f, 255, 255] :=
  rfl

end Description

end BusManagement
