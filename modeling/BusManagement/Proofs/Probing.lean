import BusManagement.Proofs.Transmissions

/-! The search for a property by its position as a loop. The loop keeps the property id that it has read last and
the index of the property that it has found last, and counts both up. They are natural numbers here, so that it can
be said that they stay small. Since every property that is found has an id of its own, the index stays behind the
id, and so it does in a bookmark; and since the loop stops at the index that is looked for, it never counts past
it. -/

namespace BusManagement

variable {σ : Type}

/-- The index is smaller than the property id, because each of the properties up to there has an id of its own. -/
def Bookmark.Fits : Bookmark → Prop
  | .start => True
  | .found _ i p => i.toNat < p.toNat

/-- A search for this index may go on from here. -/
def Bookmark.Serves (b : Bookmark) (index : UInt16) : Prop := ∀ i, b.index? = some i → i ≤ index

theorem Bookmark.Fits.forQuery {b : Bookmark} (h : b.Fits) (object : UInt16) (pid : UInt8) (index : UInt16) :
    (b.forQuery object pid index).Fits := by
  rw [Bookmark.forQuery]
  split_ifs
  · exact h
  · trivial

theorem Bookmark.serves_forQuery (b : Bookmark) (object : UInt16) (pid : UInt8) (index : UInt16) :
    (b.forQuery object pid index).Serves index := by
  intro i hi
  rw [Bookmark.forQuery] at hi
  split_ifs at hi with hc
  · cases b with
    | start => cases hi
    | found o j p =>
        obtain rfl : j = i := Option.some.inj hi
        simp only [continues, decide_eq_true_eq] at hc
        exact hc.2.2
  · cases hi

/-- How far a search has come: the index of the property found last, if there is one, the property id read last, and
the value that was read when a property was found. -/
structure Probe where
  index : Option Nat
  pid : Nat
  value : Option Octets

namespace Probe

/-- A search starts where the bookmark is. -/
def ofBookmark (b : Bookmark) : Probe := ⟨b.index?.map UInt16.toNat, b.pid.toNat, none⟩

/-- How many properties have been found. -/
def count (s : Probe) : Nat :=
  match s.index with
  | none => 0
  | some i => i + 1

/-- There is a property with the next id. -/
def hit (s : Probe) (value : Octets) : Probe := ⟨some s.count, s.pid + 1, some value⟩

/-- There is no property with the next id. -/
def miss (s : Probe) : Probe := { s with pid := s.pid + 1 }

/-- What holds wherever a search for an index has come to. -/
structure Sound (index : UInt16) (s : Probe) : Prop where
  pid_le : s.pid ≤ 255
  index_le : ∀ i, s.index = some i → i ≤ index.toNat
  index_lt : ∀ i, s.index = some i → i < s.pid

variable {index : UInt16} {s : Probe}

theorem sound_ofBookmark {b : Bookmark} (hf : b.Fits) (hs : b.Serves index) : (ofBookmark b).Sound index := by
  refine ⟨Nat.le_of_lt_succ b.pid.toNat_lt, fun i hi => ?_, fun i hi => ?_⟩ <;>
    cases b with
    | start => cases hi
    | found o j p => ?_
  · obtain rfl : j.toNat = i := Option.some.inj hi
    exact UInt16.le_iff_toNat_le.mp (hs j rfl)
  · obtain rfl : j.toNat = i := Option.some.inj hi
    exact hf

/-- As long as the index is another one, it is an earlier one. -/
theorem Sound.count_le (h : s.Sound index) (hne : s.index ≠ some index.toNat) : s.count ≤ index.toNat := by
  cases hi : s.index with
  | none => simp [count, hi]
  | some i =>
      have hle := h.index_le i hi
      have hother : i ≠ index.toNat := fun heq => hne (heq ▸ hi)
      simp only [count, hi]
      omega

theorem Sound.count_le_pid (h : s.Sound index) : s.count ≤ s.pid := by
  cases hi : s.index with
  | none => simp [count, hi]
  | some i =>
      have hlt : i + 1 ≤ s.pid := h.index_lt i hi
      simpa only [count, hi] using hlt

theorem Sound.hit (h : s.Sound index) (hne : s.index ≠ some index.toNat) (hlt : s.pid < 255) (value : Octets) :
    (s.hit value).Sound index := by
  refine ⟨hlt, fun i hi => ?_, fun i hi => ?_⟩
  · obtain rfl : s.count = i := Option.some.inj hi
    exact h.count_le hne
  · obtain rfl : s.count = i := Option.some.inj hi
    exact Nat.lt_succ_of_le h.count_le_pid

theorem Sound.miss (h : s.Sound index) (hlt : s.pid < 255) : s.miss.Sound index :=
  ⟨hlt, h.index_le, fun i hi => Nat.lt_succ_of_lt (h.index_lt i hi)⟩

end Probe

namespace Client

/-- Where a search has come to, and what has become of the client by then. Only a refusal of the remote side tells
that there is no property. -/
inductive Probes (c : Connection σ) (object index : UInt16) (k : Client σ) : Probe → Client σ → Prop
  | start : Probes c object index k (.ofBookmark k.bookmark) k
  | hit {s : Probe} {k₁ k₂ : Client σ} {value : Octets} (h : Probes c object index k s k₁)
      (hne : s.index ≠ some index.toNat) (hlt : s.pid < 255)
      (hget : k₁.getFirst c object (UInt8.ofNat (s.pid + 1)) = (.ok value, k₂)) :
      Probes c object index k (s.hit value) k₂
  | miss {s : Probe} {k₁ k₂ : Client σ} {e : Fault} (h : Probes c object index k s k₁)
      (hne : s.index ≠ some index.toNat) (hlt : s.pid < 255)
      (hget : k₁.getFirst c object (UInt8.ofNat (s.pid + 1)) = (.error e, k₂)) (he : e.kind = .remote) :
      Probes c object index k s.miss k₂

/-- How a search ends: at the index that is looked for, behind the last property id, or with the first read that
fails for another reason. -/
inductive Locates (c : Connection σ) (object index : UInt16) (k : Client σ) :
    Except Fault (UInt8 × Option Octets) → Client σ → Prop
  | found {s : Probe} {k₁ : Client σ} (h : Probes c object index k s k₁) (heq : s.index = some index.toNat) :
      Locates c object index k (.ok (UInt8.ofNat s.pid, s.value))
        { k₁ with bookmark := .found object index (UInt8.ofNat s.pid) }
  | exhausted {s : Probe} {k₁ : Client σ} (h : Probes c object index k s k₁) (hne : s.index ≠ some index.toNat)
      (hpid : s.pid = 255) :
      Locates c object index k (.error (.positionNotFound object index)) { k₁ with bookmark := .start }
  | failed {s : Probe} {k₁ k₂ : Client σ} {e : Fault} (h : Probes c object index k s k₁)
      (hne : s.index ≠ some index.toNat) (hlt : s.pid < 255)
      (hget : k₁.getFirst c object (UInt8.ofNat (s.pid + 1)) = (.error e, k₂)) (he : e.kind ≠ .remote) :
      Locates c object index k (.error e) k₂

variable {c : Connection σ} {object index : UInt16} {k k₁ : Client σ} {s : Probe}

theorem Probes.sound (hf : k.bookmark.Fits) (hs : k.bookmark.Serves index) (h : Probes c object index k s k₁) :
    s.Sound index := by
  induction h with
  | start => exact Probe.sound_ofBookmark hf hs
  | hit _ hne hlt _ ih => exact ih.hit hne hlt _
  | miss _ _ hlt _ _ ih => exact ih.miss hlt

/-! ### The search is this loop -/

/-- The property ids from one number on. -/
def pidsFrom (n : Nat) : List UInt8 := (List.range' (n + 1) (255 - n)).map UInt8.ofNat

theorem pidsFrom_of_lt {n : Nat} (h : n < 255) : pidsFrom n = UInt8.ofNat (n + 1) :: pidsFrom (n + 1) := by
  rw [pidsFrom, show 255 - n = 255 - (n + 1) + 1 by omega, List.range'_succ, List.map_cons, pidsFrom]

theorem count_ofBookmark (b : Bookmark) : (Probe.ofBookmark b).count = b.count := by
  cases b <;> rfl

/-- Wherever the loop has come to, what is left of the search is to find as many properties as are missing. At the
index that is looked for, the last property found is the one that was read last. -/
theorem Probes.search_eq (hf : k.bookmark.Fits) (hs : k.bookmark.Serves index) (h : Probes c object index k s k₁) :
    ∃ last, search c object k.bookmark.pid none (index.toNat + 1 - k.bookmark.count) (pidsAfter k.bookmark.pid) k =
        search c object last s.value (index.toNat + 1 - s.count) (pidsFrom s.pid) k₁ ∧
      (s.index = some index.toNat → last = UInt8.ofNat s.pid) := by
  induction h with
  | start =>
      refine ⟨k.bookmark.pid, ?_, fun _ => UInt8.ofNat_toNat.symm⟩
      rw [count_ofBookmark]
      rfl
  | @hit s k₁ k₂ value h hne hlt hget ih =>
      obtain ⟨last, hsearch, -⟩ := ih
      have hcount := (h.sound hf hs).count_le hne
      refine ⟨UInt8.ofNat (s.pid + 1), ?_, fun _ => rfl⟩
      rw [hsearch, pidsFrom_of_lt hlt, Nat.succ_sub hcount, search, hget]
      have hleft : index.toNat + 1 - (s.hit value).count = index.toNat - s.count := by
        rw [show (s.hit value).count = s.count + 1 from rfl, Nat.add_sub_add_right]
      rw [hleft]
      rfl
  | @miss s k₁ k₂ e h hne hlt hget he ih =>
      obtain ⟨last, hsearch, -⟩ := ih
      have hcount := (h.sound hf hs).count_le hne
      refine ⟨last, ?_, fun heq => absurd heq hne⟩
      rw [hsearch, pidsFrom_of_lt hlt, Nat.succ_sub hcount, search, hget]
      have hleft : index.toNat + 1 - s.miss.count = index.toNat - s.count + 1 := by
        rw [show s.miss.count = s.count from rfl, Nat.succ_sub hcount]
      simp only [he, if_true, hleft]
      rfl

/-- Every search ends, for each read brings it nearer to the last property id. -/
theorem Probes.exists_locates (hf : k.bookmark.Fits) (hs : k.bookmark.Serves index)
    (h : Probes c object index k s k₁) : ∃ o k₂, Locates c object index k o k₂ := by
  induction hm : 255 - s.pid generalizing s k₁ with
  | zero =>
      by_cases heq : s.index = some index.toNat
      · exact ⟨_, _, .found h heq⟩
      · have hle := (h.sound hf hs).pid_le
        exact ⟨_, _, .exhausted h heq (by omega)⟩
  | succ left ih =>
      by_cases heq : s.index = some index.toNat
      · exact ⟨_, _, .found h heq⟩
      · have hlt : s.pid < 255 := by omega
        rcases hget : k₁.getFirst c object (UInt8.ofNat (s.pid + 1)) with ⟨e | value, k₂⟩
        · by_cases he : e.kind = .remote
          · exact ih (h.miss heq hlt hget he) (by simp only [Probe.miss]; omega)
          · exact ⟨_, _, .failed h heq hlt hget he⟩
        · exact ih (h.hit heq hlt hget) (by simp only [Probe.hit]; omega)

theorem Locates.locate_eq (hf : k.bookmark.Fits) (hs : k.bookmark.Serves index)
    {o : Except Fault (UInt8 × Option Octets)} (h : Locates c object index k o k₁) :
    k.locate c object index = (o, k₁) := by
  cases h with
  | found h heq =>
      obtain ⟨last, hsearch, hlast⟩ := h.search_eq hf hs
      simp only [locate, hsearch, Probe.count, heq, Nat.sub_self, search, hlast heq]
  | exhausted h hne hpid =>
      obtain ⟨last, hsearch, -⟩ := h.search_eq hf hs
      have hcount := (h.sound hf hs).count_le hne
      have hnone : pidsFrom 255 = [] := rfl
      simp only [locate, hsearch, hpid, hnone, Nat.succ_sub hcount, search]
  | failed h hne hlt hget he =>
      obtain ⟨last, hsearch, -⟩ := h.search_eq hf hs
      have hcount := (h.sound hf hs).count_le hne
      simp only [locate, hsearch, pidsFrom_of_lt hlt, Nat.succ_sub hcount, search, hget, if_neg he]

theorem locates_iff (hf : k.bookmark.Fits) (hs : k.bookmark.Serves index)
    {o : Except Fault (UInt8 × Option Octets)} :
    Locates c object index k o k₁ ↔ k.locate c object index = (o, k₁) := by
  refine ⟨fun h => h.locate_eq hf hs, fun hlocate => ?_⟩
  have hstart : Probes c object index k (.ofBookmark k.bookmark) k := .start
  obtain ⟨o', k', h⟩ := hstart.exists_locates hf hs
  obtain ⟨rfl, rfl⟩ := Prod.mk.inj (hlocate.symm.trans (h.locate_eq hf hs))
  exact h

end Client

end BusManagement
