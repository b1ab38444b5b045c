import BusManagement.Object.Listing
import Mathlib.Data.List.Basic
import Mathlib.Tactic.SplitIfs

/-! How objects are addressed. The instance in an address counts the objects of one type from the front of the list, so
the objects of a type get the numbers 1, 2, 3 and so on in the order of their indices, however they are mixed with
others. No two objects share an address therefore, and none of the numbers that fit into an octet is left out; an object
behind the 255th of its type has no address. -/

namespace BusManagement.ObjectList

variable {d : ObjectList} {t : UInt16} {i j bound : Nat} {index : UInt16} {a : ObjectAddress}

/-- The indices below a bound at which there are objects of a type, in increasing order. -/
def places (d : ObjectList) (t : UInt16) (bound : Nat) : List Nat :=
  (List.range bound).filter fun i => d.types[i]? = some t

theorem mem_places : i ∈ d.places t bound ↔ i < bound ∧ d.types[i]? = some t := by
  simp [places]

theorem places_succ (d : ObjectList) (t : UInt16) (bound : Nat) :
    d.places t (bound + 1) = d.places t bound ++ if d.types[bound]? = some t then [bound] else [] := by
  rw [places, List.range_succ, List.filter_append, List.filter_singleton, places]
  simp

theorem pairwise_places (d : ObjectList) (t : UInt16) (bound : Nat) : (d.places t bound).Pairwise (· < ·) :=
  List.pairwise_lt_range.filter _

theorem length_places (d : ObjectList) (t : UInt16) (bound : Nat) :
    (d.places t bound).length = (d.types.take bound).count t := by
  induction bound with
  | zero => rfl
  | succ bound ih =>
      rw [places_succ, List.length_append, ih, List.take_add_one, List.count_append]
      cases d.types[bound]? with
      | none => rfl
      | some s => by_cases hs : s = t <;> simp [hs]

theorem instances_eq (d : ObjectList) (i : Nat) (t : UInt16) : d.instances i t = (d.places t (i + 1)).length :=
  (length_places d t (i + 1)).symm

/-- A further object of a type has a greater number. -/
theorem instances_lt (hij : i < j) (hj : d.types[j]? = some t) : d.instances i t < d.instances j t := by
  have hfront : (d.places t (i + 1)).length ≤ (d.places t j).length := by
    rw [length_places, length_places]
    exact (List.take_sublist_take_left hij).count_le t
  rw [instances_eq, instances_eq, places_succ d t j, if_pos hj, List.length_append, List.length_singleton]
  omega

/-- The objects of a type are numbered from 1 on. -/
theorem map_instances_places (d : ObjectList) (t : UInt16) (bound : Nat) :
    (d.places t bound).map (fun i => d.instances i t) = List.range' 1 (d.places t bound).length := by
  induction bound with
  | zero => rfl
  | succ bound ih =>
      rw [places_succ]
      split_ifs with h
      · have hlast : d.instances bound t = 1 + (d.places t bound).length := by
          rw [instances_eq, places_succ, if_pos h, List.length_append, List.length_singleton, Nat.add_comm]
        rw [List.map_append, List.map_singleton, ih, hlast, List.length_append, List.length_singleton,
          List.range'_1_concat]
      · rwa [List.append_nil]

/-! ### Addresses -/

/-- What an index is resolved to. -/
inductive Addressed (d : ObjectList) (index : UInt16) : Except Fault ObjectAddress → Prop
  | unlisted (h : d.types[index.toNat]? = none) : Addressed d index (.error (.objectNotListed index))
  | beyond {t : UInt16} (ht : d.types[index.toNat]? = some t) (hn : 255 < d.instances index.toNat t) :
      Addressed d index (.error (.instanceOutOfRange (d.instances index.toNat t)))
  | named {t : UInt16} {n : UInt8} (ht : d.types[index.toNat]? = some t) (hn : n.toNat = d.instances index.toNat t) :
      Addressed d index (.ok ⟨t, n⟩)

theorem addressed (d : ObjectList) (index : UInt16) : d.Addressed index (d.address index) := by
  rw [address]
  split
  · next h => exact .unlisted h
  · next t ht =>
      dsimp only
      split_ifs with hn
      · exact .named ht (by rw [UInt8.toNat_ofNat', Nat.mod_eq_of_lt hn])
      · exact .beyond ht (Nat.not_lt.mp hn)

theorem Addressed.address_eq {r : Except Fault ObjectAddress} (h : d.Addressed index r) : d.address index = r := by
  rw [address]
  cases h with
  | unlisted h => rw [h]
  | beyond ht hn =>
      rw [ht]
      exact if_neg (Nat.not_lt.mpr hn)
  | @named t n ht hn =>
      rw [ht]
      dsimp only
      rw [← hn, if_pos n.toNat_lt, UInt8.ofNat_toNat]

theorem address_eq_ok_iff : d.address index = .ok a ↔
    d.types[index.toNat]? = some a.objectType ∧ a.objectInstance.toNat = d.instances index.toNat a.objectType := by
  constructor
  · intro h
    have haddressed := d.addressed index
    rw [h] at haddressed
    cases haddressed with
    | named ht hn => exact ⟨ht, hn⟩
  · rintro ⟨ht, hn⟩
    exact (Addressed.named ht hn).address_eq

theorem address_remote_iff :
    (∃ e, d.address index = .error e ∧ e.kind = .remote) ↔ d.types.length ≤ index.toNat := by
  rw [← List.getElem?_eq_none_iff]
  constructor
  · rintro ⟨e, he, hkind⟩
    have haddressed := d.addressed index
    rw [he] at haddressed
    cases haddressed with
    | unlisted h => exact h
    | beyond ht hn => cases hkind
  · intro h
    exact ⟨_, (Addressed.unlisted h).address_eq, rfl⟩

theorem address_invalidData_iff : (∃ e, d.address index = .error e ∧ e.kind = .invalidData) ↔
    ∃ t, d.types[index.toNat]? = some t ∧ 255 < d.instances index.toNat t := by
  constructor
  · rintro ⟨e, he, hkind⟩
    have haddressed := d.addressed index
    rw [he] at haddressed
    cases haddressed with
    | unlisted h => cases hkind
    | beyond ht hn => exact ⟨_, ht, hn⟩
  · rintro ⟨t, ht, hn⟩
    exact ⟨_, (Addressed.beyond ht hn).address_eq, rfl⟩

/-- An instance counts the object itself. -/
theorem one_le_objectInstance (h : d.address index = .ok a) : 1 ≤ a.objectInstance := by
  obtain ⟨ht, hn⟩ := address_eq_ok_iff.mp h
  have hmem : index.toNat ∈ d.places a.objectType (index.toNat + 1) := mem_places.mpr ⟨Nat.lt_succ_self _, ht⟩
  rw [UInt8.le_iff_toNat_le, hn, instances_eq]
  exact List.length_pos_of_mem hmem

theorem address_injective {other : UInt16} (h : d.address index = .ok a) (h' : d.address other = .ok a) :
    index = other := by
  obtain ⟨ht, hn⟩ := address_eq_ok_iff.mp h
  obtain ⟨ht', hn'⟩ := address_eq_ok_iff.mp h'
  rcases Nat.lt_trichotomy index.toNat other.toNat with hlt | heq | hlt
  · have hless := instances_lt hlt ht'
    omega
  · exact UInt16.toNat_inj.mp heq
  · have hless := instances_lt hlt ht
    omega

/-- The first 255 objects of a type, and where they stand. -/
theorem map_address_places (d : ObjectList) (t : UInt16) :
    (((d.places t 65536).take 255).map UInt16.ofNat).map d.address =
      (List.range' 1 (min (d.places t 65536).length 255)).map fun n => .ok ⟨t, UInt8.ofNat n⟩ := by
  have hnumbers : ((d.places t 65536).take 255).map (fun i => d.instances i t) =
      List.range' 1 (min (d.places t 65536).length 255) := by
    rw [List.map_take, map_instances_places]
    rcases Nat.le_total (d.places t 65536).length 255 with hle | hle
    · rw [List.take_range'_of_length_le hle, Nat.min_eq_left hle]
    · rw [List.take_range'_of_length_ge hle, Nat.min_eq_right hle]
  rw [← hnumbers, List.map_map, List.map_map]
  apply List.map_congr_left
  intro i hi
  obtain ⟨hlt, ht⟩ := mem_places.mp (List.mem_of_mem_take hi)
  have hindex : (UInt16.ofNat i).toNat = i := by rw [UInt16.toNat_ofNat', Nat.mod_eq_of_lt hlt]
  have hn : d.instances i t ≤ 255 := by
    have hmem := hnumbers ▸ List.mem_map_of_mem hi
    rw [List.mem_range'_1] at hmem
    omega
  apply Addressed.address_eq
  refine .named (hindex.symm ▸ ht) ?_
  rw [hindex, UInt8.toNat_ofNat', Nat.mod_eq_of_lt (Nat.lt_succ_of_le hn)]

theorem pairwise_indices (d : ObjectList) (t : UInt16) :
    (((d.places t 65536).take 255).map UInt16.ofNat).Pairwise (· < ·) := by
  rw [List.pairwise_map]
  refine ((d.pairwise_places t 65536).sublist (List.take_sublist 255 _)).imp_of_mem fun {i j} hi hj hij => ?_
  obtain ⟨hilt, -⟩ := mem_places.mp (List.mem_of_mem_take hi)
  obtain ⟨hjlt, -⟩ := mem_places.mp (List.mem_of_mem_take hj)
  rw [UInt16.lt_iff_toNat_lt, UInt16.toNat_ofNat', UInt16.toNat_ofNat', Nat.mod_eq_of_lt hilt, Nat.mod_eq_of_lt hjlt]
  exact hij

/-- Every index is not listed, or stands behind 255 objects of its type, or has an address, which is the type of the
object and its number among the objects of that type. Different indices have different addresses; and in the order of
their indices the objects of a type have its instances from 1 on, without a gap. -/
theorem addresses_faithful (d : ObjectList) :
    (∀ index : UInt16,
      ((∃ e, d.address index = .error e ∧ e.kind = .remote) ↔ d.types.length ≤ index.toNat) ∧
      ((∃ e, d.address index = .error e ∧ e.kind = .invalidData) ↔
        ∃ t, d.types[index.toNat]? = some t ∧ 255 < (d.places t (index.toNat + 1)).length) ∧
      ∀ t, d.types[index.toNat]? = some t → (d.places t (index.toNat + 1)).length ≤ 255 →
        ∃ n, d.address index = .ok ⟨t, n⟩ ∧ n.toNat = (d.places t (index.toNat + 1)).length ∧
          1 ≤ n.toNat ∧ n.toNat ≤ 255) ∧
    (∀ index other a, d.address index = .ok a → d.address other = .ok a → index = other) ∧
    ∀ t, ∃ indices : List UInt16, indices.Pairwise (· < ·) ∧
      indices.map d.address =
        (List.range' 1 (min (d.places t 65536).length 255)).map fun n => .ok ⟨t, UInt8.ofNat n⟩ := by
  refine ⟨fun index => ⟨?_, ?_, fun t ht hn => ?_⟩, fun index other a => address_injective, fun t => ?_⟩
  · exact address_remote_iff
  · simp only [← instances_eq]
    exact address_invalidData_iff
  · rw [← instances_eq] at hn ⊢
    have hoctet : (UInt8.ofNat (d.instances index.toNat t)).toNat = d.instances index.toNat t := by
      rw [UInt8.toNat_ofNat', Nat.mod_eq_of_lt (Nat.lt_succ_of_le hn)]
    have haddress := (Addressed.named ht hoctet).address_eq
    exact ⟨_, haddress, hoctet, UInt8.le_iff_toNat_le.mp (one_le_objectInstance haddress), by omega⟩
  · exact ⟨_, d.pairwise_indices t, d.map_address_places t⟩

/-- Objects of different types that stand mixed are numbered apart. -/
example : [0, 1, 2, 3, 4, 5, 7].map (⟨[0, 1, 3, 1, 3, 3, 9]⟩ : ObjectList).address =
    [.ok ⟨0, 1⟩, .ok ⟨1, 1⟩, .ok ⟨3, 1⟩, .ok ⟨1, 2⟩, .ok ⟨3, 2⟩, .ok ⟨3, 3⟩, .error (.objectNotListed 7)] := rfl

end BusManagement.ObjectList
