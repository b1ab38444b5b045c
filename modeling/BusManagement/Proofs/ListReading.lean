import BusManagement.Proofs.Discovery

/-! The reading of an object list as a loop. A loop that asks for the next piece keeps the number of the element
that the piece starts with, and adds to it what it has asked for. These numbers are natural numbers here, so that
it can be said that they stay small: a piece that is answered starts within the reach of a start index, and every
answer that is accepted adds as many types as were asked for. So whatever a device answers, the loop ends after few
pieces, and what it has at the end is what the answers start with. -/

namespace BusManagement

open Exchange (transmissions_note)
open Simulation (Scripted)

variable {σ : Type}

namespace Octets

theorem length_words (a : Octets) : a.words.length = a.length / 2 := by
  fun_induction words a with
  | case1 h l rest ih =>
      simp only [List.length_cons, ih]
      omega
  | case2 a ha =>
      match a with
      | [] => rfl
      | [_] => simp
      | h :: l :: rest => exact absurd rfl (ha h l rest)

/-- The words that so many octets make, whatever comes behind them. -/
theorem words_take (a : Octets) (n : Nat) : words (a.take (2 * n)) = a.words.take n := by
  fun_induction words a generalizing n with
  | case1 h l rest ih =>
      cases n with
      | zero => rfl
      | succ n => rw [Nat.mul_succ, List.take_succ_cons, List.take_succ_cons, words, ih, List.take_succ_cons]
  | case2 a ha =>
      rcases a with _ | ⟨h, _ | ⟨l, rest⟩⟩
      · simp [words]
      · cases n <;> simp [words, Nat.mul_succ]
      · exact absurd rfl (ha h l rest)

end Octets

namespace Discovery

/-! ### Single pieces -/

variable {c : Connection σ}

/-- A piece is handed over once, or its request fails without. In the first case it starts within reach. -/
theorem readPiece_cases (c : Connection σ) (x : Exchange σ) (p : Piece) :
    (p.start ≤ Frame.maxStart ∧
      (readPiece c x p).2.chronicle.transmissions = x.chronicle.transmissions ++ [p.transmission]) ∨
    ∃ e y, readPiece c x p = (.error e, y) ∧ y.chronicle.transmissions = x.chronicle.transmissions := by
  by_cases ho : x.isOpen = true
  · cases he : p.request.encode with
    | error e => exact .inr ⟨e, _, Exchange.request_of_encode_error ho he _, transmissions_note x rfl⟩
    | ok octets =>
        obtain ⟨-, hstart, rfl⟩ := (Frame.encode_eq_ok_iff rfl).mp he
        exact .inl ⟨hstart, Exchange.transmissions_request ho he (by decide)⟩
  · exact .inr ⟨_, x, if_neg ho, rfl⟩

/-- A piece that is answered starts within reach, and it was handed over. -/
theorem start_le_of_readPiece {x y : Exchange σ} {p : Piece} {answer : Octets}
    (h : readPiece c x p = (.ok answer, y)) :
    p.start ≤ Frame.maxStart ∧ y.chronicle.transmissions = x.chronicle.transmissions ++ [p.transmission] := by
  rcases readPiece_cases c x p with hhanded | ⟨e, z, hfailed, -⟩
  · rwa [h] at hhanded
  · rw [h] at hfailed
    cases hfailed

theorem typesIn_of_le {answer : Octets} {n : Nat} (h : 2 * n ≤ answer.length) :
    typesIn answer n = .ok (Octets.words (answer.take (2 * n))) := by
  rw [typesIn, if_neg (by omega), Octets.words_take]

theorem typesIn_of_lt {answer : Octets} {n : Nat} (h : answer.length < 2 * n) :
    typesIn answer n = .error (.objectListTooShort n answer.length) := by
  rw [typesIn, if_pos (by omega)]

/-! ### The loop -/

/-- An answer that was accepted, and the number of elements that it was asked for. -/
structure Chunk where
  elements : Nat
  answer : Octets

/-- The words that the answer starts with, as many as were asked for. -/
def Chunk.types (k : Chunk) : List UInt16 := Octets.words (k.answer.take (2 * k.elements))

/-- How far a list has been read: the element that the next piece starts with, and the types up to there with the
answers that they come from. -/
structure Reading where
  start : Nat
  types : List UInt16
  chunks : List Chunk

namespace Reading

def unread : Reading := ⟨1, [], []⟩

/-- How many elements the next piece asks for. -/
def wanted (r : Reading) (count : Nat) : Nat := min (count - r.types.length) 15

def piece (r : Reading) (count : Nat) : Piece := ⟨UInt16.ofNat r.start, UInt8.ofNat (r.wanted count)⟩

/-- The reading behind a piece. -/
def add (r : Reading) (k : Chunk) : Reading :=
  ⟨r.start + k.elements, r.types ++ k.types, r.chunks ++ [k]⟩

end Reading

/-- Where the loop asks for a piece or ends. -/
inductive Comes (c : Connection σ) (count : Nat) (x : Exchange σ) : Reading → Exchange σ → Prop
  | unread : Comes c count x .unread x
  | accepted {r : Reading} {y z : Exchange σ} {answer : Octets} (h : Comes c count x r y)
      (hlt : r.types.length < count) (hread : readPiece c y (r.piece count) = (.ok answer, z))
      (hlong : 2 * r.wanted count ≤ answer.length) : Comes c count x (r.add ⟨r.wanted count, answer⟩) z

/-- How the loop ends: with all the types that were announced, or with the first piece that fails or is answered by
too few octets. -/
inductive Ends (c : Connection σ) (count : Nat) (x : Exchange σ) : Except Fault (List UInt16) → Exchange σ → Prop
  | complete {r : Reading} {y : Exchange σ} (h : Comes c count x r y) (hdone : ¬r.types.length < count) :
      Ends c count x (.ok r.types) y
  | failed {r : Reading} {y z : Exchange σ} {e : Fault} (h : Comes c count x r y) (hlt : r.types.length < count)
      (hread : readPiece c y (r.piece count) = (.error e, z)) : Ends c count x (.error e) z
  | short {r : Reading} {y z : Exchange σ} {answer : Octets} (h : Comes c count x r y) (hlt : r.types.length < count)
      (hread : readPiece c y (r.piece count) = (.ok answer, z)) (hshort : answer.length < 2 * r.wanted count) :
      Ends c count x (.error (.objectListTooShort (r.wanted count) answer.length)) z

/-- What holds wherever the loop asks: nothing has wrapped around, and every answer has added what was asked for. -/
structure Reading.Sound (count : Nat) (r : Reading) : Prop where
  start : r.start = r.types.length + 1
  reach : r.start ≤ 4096
  length : r.types.length = min count (15 * r.chunks.length)
  last : 15 * r.chunks.length < count + 15
  types : r.types = r.chunks.flatMap Chunk.types
  elements : ∀ i k, r.chunks[i]? = some k → k.elements = min (count - 15 * i) 15
  long : ∀ k ∈ r.chunks, 2 * k.elements ≤ k.answer.length

theorem Chunk.length_types {k : Chunk} (h : 2 * k.elements ≤ k.answer.length) : k.types.length = k.elements := by
  rw [Chunk.types, Octets.words_take, List.length_take, Octets.length_words]
  omega

namespace Reading

variable {count : Nat} {r : Reading}

theorem sound_unread (count : Nat) : Sound count unread where
  start := rfl
  reach := by decide
  length := by simp [unread]
  last := by simp [unread]
  types := rfl
  elements i k hk := by simp [unread] at hk
  long k hk := by simp [unread] at hk

theorem toNat_elements_piece (count : Nat) (r : Reading) : (r.piece count).elements.toNat = r.wanted count := by
  simp only [piece, wanted, UInt8.toNat_ofNat']
  omega

/-- The next piece starts with the element that it is meant to start with. -/
theorem Sound.toNat_start_piece (h : r.Sound count) : (r.piece count).start.toNat = r.start := by
  have hreach := h.reach
  simp only [piece, UInt16.toNat_ofNat']
  omega

/-- While types are missing, fifteen have been added each time. -/
theorem Sound.length_of_lt (h : r.Sound count) (hlt : r.types.length < count) :
    r.types.length = 15 * r.chunks.length := by
  have hlength := h.length
  omega

/-- Behind 273 pieces a piece would start out of reach. -/
theorem Sound.length_chunks_le (h : r.Sound count) : r.chunks.length ≤ 273 := by
  have hstart := h.start
  have hreach := h.reach
  have hlength := h.length
  have hlast := h.last
  omega

theorem Sound.start_le (h : r.Sound count) (hreach : (r.piece count).start ≤ Frame.maxStart) : r.start ≤ 4095 := by
  rw [UInt16.le_iff_toNat_le, h.toNat_start_piece] at hreach
  exact hreach

theorem Sound.piece_eq (h : r.Sound count) (hlt : r.types.length < count) :
    r.piece count = pieceAt count r.chunks.length := by
  rw [piece, pieceAt, wanted, h.start, h.length_of_lt hlt, Nat.min_comm]

/-- The number of pieces that have been read is the number of the next one. -/
theorem Sound.lt_of_lt (h : r.Sound count) (hlt : r.types.length < count) :
    r.chunks.length < (count + 14) / 15 := by
  have hlength := h.length_of_lt hlt
  omega

theorem length_chunks_add (r : Reading) (k : Chunk) : (r.add k).chunks.length = r.chunks.length + 1 := by
  rw [add, List.length_append, List.length_singleton]

theorem length_types_add {answer : Octets} (hlong : 2 * r.wanted count ≤ answer.length) :
    (r.add ⟨r.wanted count, answer⟩).types.length = r.types.length + r.wanted count := by
  rw [add, List.length_append, Chunk.length_types hlong]

/-- A piece that is within reach keeps the reading sound if it is answered by enough octets. -/
theorem Sound.add (h : r.Sound count) (hlt : r.types.length < count) (hreach : (r.piece count).start ≤ Frame.maxStart)
    {answer : Octets} (hlong : 2 * r.wanted count ≤ answer.length) :
    (r.add ⟨r.wanted count, answer⟩).Sound count := by
  have hlength := h.length_of_lt hlt
  have hnew := length_types_add hlong
  have hchunks := r.length_chunks_add ⟨r.wanted count, answer⟩
  have hnext : (r.add ⟨r.wanted count, answer⟩).start = r.start + r.wanted count := rfl
  have hbehind := h.start
  have hstart := h.start_le hreach
  have hwanted : r.wanted count = min (count - 15 * r.chunks.length) 15 := by rw [wanted, hlength]
  -- Start indices go up by fifteen from 1 on, so one within reach is 4081 at the most.
  refine ⟨by omega, by omega, by omega, by omega, ?types, fun i k hk => ?elements, fun k hk => ?long⟩
  case types => rw [Reading.add, List.flatMap_append, List.flatMap_singleton, ← h.types]
  case elements =>
    rw [Reading.add] at hk
    rcases Nat.lt_trichotomy i r.chunks.length with hi | rfl | hi
    · rw [List.getElem?_append_left hi] at hk
      exact h.elements i k hk
    · rw [List.getElem?_concat_length] at hk
      obtain rfl := Option.some.inj hk
      exact hwanted
    · rw [List.getElem?_eq_none (by simpa using Nat.succ_le_of_lt hi)] at hk
      cases hk
  case long =>
    rcases List.mem_append.mp hk with hk | hk
    · exact h.long k hk
    · obtain rfl := List.mem_singleton.mp hk
      exact hlong

end Reading

variable {count : Nat} {x y : Exchange σ} {r : Reading} {o : Except Fault (List UInt16)}

theorem Comes.sound (h : Comes c count x r y) : r.Sound count := by
  induction h with
  | unread => exact Reading.sound_unread count
  | accepted _ hlt hread hlong ih => exact ih.add hlt (start_le_of_readPiece hread).1 hlong

/-- Every piece that has been read was handed over once. -/
theorem Comes.length_transmissions (h : Comes c count x r y) :
    y.chronicle.transmissions.length = x.chronicle.transmissions.length + r.chunks.length := by
  induction h with
  | unread => rfl
  | accepted _ _ hread _ ih =>
      rw [(start_le_of_readPiece hread).2, List.length_append, ih, Reading.length_chunks_add, Nat.add_assoc]
      rfl

/-- The piece that is asked for next is the first one of those that are left. -/
theorem Comes.drop_pieces (h : Comes c count x r y) (hlt : r.types.length < count) :
    (pieces count).drop r.chunks.length = r.piece count :: (pieces count).drop (r.chunks.length + 1) := by
  have hnext : r.chunks.length < (pieces count).length := by
    simpa [pieces_eq] using h.sound.lt_of_lt hlt
  rw [List.drop_eq_getElem_cons hnext, h.sound.piece_eq hlt]
  simp [pieces_eq]

/-- From where the loop has come to, the pieces that are left are read. -/
theorem Comes.readPieces_eq (h : Comes c count x r y) :
    readPieces c (pieces count) x =
      ((readPieces c ((pieces count).drop r.chunks.length) y).1.map (r.types ++ ·),
        (readPieces c ((pieces count).drop r.chunks.length) y).2) := by
  induction h with
  | unread =>
      rw [Reading.unread, List.length_nil, List.drop_zero]
      rcases readPieces c (pieces count) x with ⟨_ | _, _⟩ <;> rfl
  | @accepted r y z answer h hlt hread hlong ih =>
      have htypes : typesIn answer (r.piece count).elements.toNat = .ok (Chunk.types ⟨r.wanted count, answer⟩) := by
        rw [Reading.toNat_elements_piece]
        exact typesIn_of_le hlong
      rw [ih, h.drop_pieces hlt, readPieces_cons_of_ok hread htypes, r.length_chunks_add, Reading.add]
      rcases readPieces c ((pieces count).drop (r.chunks.length + 1)) z with ⟨_ | _, _⟩
      · rfl
      · simp [Except.map]

/-- Where the loop has come to, the next piece either fails or is answered, and then it is long enough or not. Every
answer that is long enough brings the loop nearer to its end. -/
theorem Comes.exists_end (h : Comes c count x r y) : ∃ o z, Ends c count x o z := by
  induction hm : count - r.types.length using Nat.strongRecOn generalizing r y with
  | _ missing ih =>
      by_cases hlt : r.types.length < count
      · rcases hread : readPiece c y (r.piece count) with ⟨e | answer, z⟩
        · exact ⟨_, _, .failed h hlt hread⟩
        · by_cases hlong : 2 * r.wanted count ≤ answer.length
          · refine ih _ ?_ (h.accepted hlt hread hlong) rfl
            have hwanted : 0 < r.wanted count := by
              rw [Reading.wanted]
              omega
            rw [Reading.length_types_add hlong]
            omega
          · exact ⟨_, _, .short h hlt hread (Nat.lt_of_not_le hlong)⟩
      · exact ⟨_, _, .complete h hlt⟩

/-- Reading the pieces one after the other comes to the end of the loop. -/
theorem Ends.readPieces_eq {z : Exchange σ} (h : Ends c count x o z) : readPieces c (pieces count) x = (o, z) := by
  cases h with
  | @complete r _ h hdone =>
      have hall : (pieces count).drop r.chunks.length = [] := by
        have hlength := h.sound.length
        rw [List.drop_eq_nil_iff]
        simp only [pieces_eq, List.length_map, List.length_range]
        omega
      rw [h.readPieces_eq, hall]
      simp [readPieces, Except.map]
  | failed h hlt hread =>
      rw [h.readPieces_eq, h.drop_pieces hlt, readPieces, hread]
      rfl
  | @short r y _ answer h hlt hread hshort =>
      have htypes : typesIn answer (r.piece count).elements.toNat =
          .error (.objectListTooShort (r.wanted count) answer.length) := by
        rw [Reading.toNat_elements_piece]
        exact typesIn_of_lt hshort
      rw [h.readPieces_eq, h.drop_pieces hlt, readPieces, hread]
      simp only [htypes]
      rfl

theorem ends_iff {z : Exchange σ} : Ends c count x o z ↔ readPieces c (pieces count) x = (o, z) := by
  refine ⟨Ends.readPieces_eq, fun hread => ?_⟩
  have hunread : Comes c count x .unread x := .unread
  obtain ⟨o', z', h⟩ := hunread.exists_end
  obtain ⟨rfl, rfl⟩ := Prod.mk.inj (hread.symm.trans h.readPieces_eq)
  exact h

/-- Whatever the next piece comes to, 273 pieces are handed over at the most, for only those start within reach. -/
theorem Comes.length_transmissions_next (h : Comes c count x r y) (hlt : r.types.length < count) :
    (readPiece c y (r.piece count)).2.chronicle.transmissions.length ≤ x.chronicle.transmissions.length + 273 := by
  have hlength := h.length_transmissions
  rcases readPiece_cases c y (r.piece count) with ⟨hreach, hone⟩ | ⟨e, z, hfailed, hnone⟩
  · have hstart := h.sound.start_le hreach
    have hbehind := h.sound.start
    have hall := h.sound.length_of_lt hlt
    rw [hone, List.length_append, List.length_singleton]
    omega
  · have hchunks := h.sound.length_chunks_le
    rw [hfailed, hnone]
    omega

theorem Ends.length_transmissions {z : Exchange σ} (h : Ends c count x o z) :
    z.chronicle.transmissions.length ≤ x.chronicle.transmissions.length + 273 := by
  cases h with
  | complete h hdone =>
      have hchunks := h.sound.length_chunks_le
      have hlength := h.length_transmissions
      omega
  | failed h hlt hread =>
      have hnext := h.length_transmissions_next hlt
      rwa [hread] at hnext
  | short h hlt hread hshort =>
      have hnext := h.length_transmissions_next hlt
      rwa [hread] at hnext

/-! ### The whole discovery -/

/-- How a discovery ends: first with what the number of the objects comes to, and then with their list. -/
inductive Discovers (c : Connection σ) (x : Exchange σ) : Except Fault ObjectList → Exchange σ → Prop
  | assumed {e : Fault} {y : Exchange σ} (hread : readPiece c x ⟨0, 1⟩ = (.error e, y)) (hr : e.isRemote = true) :
      Discovers c x (.ok .assumed) (y.note (.listUnavailable e))
  | failed {e : Fault} {y : Exchange σ} (hread : readPiece c x ⟨0, 1⟩ = (.error e, y)) (hr : e.isRemote = false) :
      Discovers c x (.error e) y
  | short {answer : Octets} {y : Exchange σ} (hread : readPiece c x ⟨0, 1⟩ = (.ok answer, y))
      (hshort : answer.length < 2) : Discovers c x (.error (.objectListTooShort 1 answer.length)) y
  | listed {h l : UInt8} {rest : Octets} {types : List UInt16} {y z : Exchange σ}
      (hread : readPiece c x ⟨0, 1⟩ = (.ok (h :: l :: rest), y))
      (hend : Ends c (Octets.word h l).toNat y (.ok types) z) :
      Discovers c x (.ok ⟨types⟩) (z.note (.discovered types.length))
  | unlisted {h l : UInt8} {rest : Octets} {e : Fault} {y z : Exchange σ}
      (hread : readPiece c x ⟨0, 1⟩ = (.ok (h :: l :: rest), y))
      (hend : Ends c (Octets.word h l).toNat y (.error e) z) : Discovers c x (.error e) z

theorem discovers_objects (c : Connection σ) (x : Exchange σ) :
    Discovers c x (objects c x).1 (objects c x).2 := by
  rw [objects]
  rcases hread : readPiece c x ⟨0, 1⟩ with ⟨e | answer, y⟩
  · cases hr : e.isRemote with
    | true =>
        simp only [hr, if_true]
        exact .assumed hread hr
    | false =>
        simp only [hr, Bool.false_eq_true, if_false]
        exact .failed hread hr
  · rcases answer with _ | ⟨h, _ | ⟨l, rest⟩⟩
    · exact .short hread (by decide)
    · exact .short hread (Nat.lt_succ_self 1)
    · rcases hpieces : readPieces c (pieces (Octets.word h l).toNat) y with ⟨e | types, z⟩
      · simp only [countIn, hpieces]
        exact .unlisted hread (ends_iff.mpr hpieces)
      · simp only [countIn, hpieces]
        exact .listed hread (ends_iff.mpr hpieces)

theorem Discovers.objects_eq {d : Except Fault ObjectList} (h : Discovers c x d y) : objects c x = (d, y) := by
  cases h with
  | assumed hread hr => simp [objects, hread, hr]
  | failed hread hr => simp [objects, hread, hr]
  | @short answer _ hread hshort =>
      rcases answer with _ | ⟨h, _ | ⟨l, rest⟩⟩
      · simp [objects, hread, countIn]
      · simp [objects, hread, countIn]
      · simp only [List.length_cons] at hshort
        omega
  | listed hread hend => simp [objects, hread, countIn, ends_iff.mp hend]
  | unlisted hread hend => simp [objects, hread, countIn, ends_iff.mp hend]

theorem length_transmissions_readPiece {p : Piece} {answer : Except Fault Octets}
    (h : readPiece c x p = (answer, y)) :
    y.chronicle.transmissions.length ≤ x.chronicle.transmissions.length + 1 := by
  rcases readPiece_cases c x p with ⟨-, hone⟩ | ⟨e, z, hfailed, hnone⟩
  · rw [h] at hone
    rw [hone, List.length_append]
    exact Nat.le_refl _
  · obtain ⟨-, rfl⟩ := Prod.mk.inj (h.symm.trans hfailed)
    rw [hnone]
    exact Nat.le_succ _

/-- One transmission asks for the number of the objects. -/
theorem Discovers.length_transmissions {d : Except Fault ObjectList} (h : Discovers c x d y) :
    y.chronicle.transmissions.length ≤ x.chronicle.transmissions.length + 274 := by
  cases h with
  | assumed hread hr =>
      have hcount := length_transmissions_readPiece hread
      rw [transmissions_note _ rfl]
      omega
  | failed hread hr =>
      have hcount := length_transmissions_readPiece hread
      omega
  | short hread hshort =>
      have hcount := length_transmissions_readPiece hread
      omega
  | listed hread hend =>
      have hcount := length_transmissions_readPiece hread
      have hlist := hend.length_transmissions
      rw [transmissions_note _ rfl]
      omega
  | unlisted hread hend =>
      have hcount := length_transmissions_readPiece hread
      have hlist := hend.length_transmissions
      omega

/-- A loop that ends well has read as many types as were announced, and no start index has been out of reach. -/
theorem Ends.of_ok {types : List UInt16} {z : Exchange σ} (h : Ends c count x (.ok types) z) :
    ∃ r, Comes c count x r z ∧ types = r.types ∧ types.length = count ∧ count ≤ 4095 := by
  cases h with
  | @complete r _ h hdone =>
      have hstart := h.sound.start
      have hreach := h.sound.reach
      have hlength := h.sound.length
      exact ⟨r, h, rfl, by omega, by omega⟩

end Discovery

namespace ObjectList

theorem map_index_entries {d : ObjectList} (h : d.size < 65536) :
    d.entries.map (fun entry => entry.index.toNat) = List.range d.size := by
  have hsnd : d.types.zipIdx.map Prod.snd = List.range d.size := by
    rw [List.zipIdx_map_snd, List.range_eq_range', size]
  calc d.entries.map (fun entry => entry.index.toNat)
      = (d.types.zipIdx.map Prod.snd).map (fun i => (UInt16.ofNat i).toNat) := by
        rw [entries, List.map_map, List.map_map]
        rfl
    _ = (List.range d.size).map (fun i => (UInt16.ofNat i).toNat) := by rw [hsnd]
    _ = List.range d.size := by
        refine (List.map_congr_left fun i hi => ?_).trans (List.map_id _)
        rw [UInt16.toNat_ofNat', Nat.mod_eq_of_lt (Nat.lt_trans (List.mem_range.mp hi) h), id]

theorem map_objectType_entries (d : ObjectList) : d.entries.map (·.objectType) = d.types := by
  rw [entries, List.map_map]
  exact List.zipIdx_map_fst 0 d.types

end ObjectList

namespace Client

open Discovery hiding objects

variable (c : Connection σ) (link : σ)

/-- An opening goes as the discovery goes; if that fails, the client is closed. -/
theorem start_cases :
    (∃ d y, Discovers c (.start link) (.ok d) y ∧ start c link = .opened ⟨y.note (.opened d.size), d, .start⟩) ∨
    (∃ e y, Discovers c (.start link) (.error e) y ∧
      start c link = .failed e ((y.note (.discoveryFailed e)).closeFor c .discovery)) := by
  have hdiscovers := discovers_objects c (.start link)
  rw [start]
  generalize Discovery.objects c (.start link) = o at hdiscovers ⊢
  obtain ⟨e | d, y⟩ := o
  · exact .inr ⟨e, y, hdiscovers, rfl⟩
  · exact .inl ⟨d, y, hdiscovers, rfl⟩

theorem length_transmissions_start : (start c link).exchange.chronicle.transmissions.length ≤ 274 := by
  rcases start_cases c link with ⟨d, y, hdiscovers, hstart⟩ | ⟨e, y, hdiscovers, hstart⟩
  · rw [hstart, Opening.exchange, transmissions_note _ rfl]
    exact hdiscovers.length_transmissions
  · have hclose := Exchange.inFlight_closeFor c (y.note (.discoveryFailed e)) (.inr rfl)
    rw [hstart, Opening.exchange, hclose.adds.transmissions_eq, transmissions_note _ rfl]
    exact hdiscovers.length_transmissions

/-- Whatever a device answers, an opening is done after 274 transmissions at the most. A device that tells a number is
read in a loop, which always ends; wherever it asks for a piece, the start index and the numbers in the request are
what they are meant to be. If a list comes of it, it has as many entries as were announced, which are no more than
4095, with indices from zero on, and their types are what the answers start with. -/
theorem discovery_bounded :
    (start c link).exchange.chronicle.transmissions.length ≤ 274 ∧
    (∀ h l rest x, readPiece c (.start link) ⟨0, 1⟩ = (.ok (h :: l :: rest), x) →
      (∀ o z, readPieces c (pieces (Octets.word h l).toNat) x = (o, z) ↔ Ends c (Octets.word h l).toNat x o z) ∧
      ∀ r y, Comes c (Octets.word h l).toNat x r y →
        r.start = r.types.length + 1 ∧ r.start ≤ 4096 ∧ r.types.length ≤ (Octets.word h l).toNat ∧
        (UInt16.ofNat r.start).toNat = r.start ∧
        (UInt16.ofNat (r.wanted (Octets.word h l).toNat)).toNat = r.wanted (Octets.word h l).toNat ∧
        (UInt8.ofNat (r.wanted (Octets.word h l).toNat)).toNat = r.wanted (Octets.word h l).toNat) ∧
    ∀ k, start c link = .opened k →
      (∃ e x, readPiece c (.start link) ⟨0, 1⟩ = (.error e, x) ∧ e.isRemote = true ∧ k.objects = .assumed) ∨
      ∃ h l rest x r y, readPiece c (.start link) ⟨0, 1⟩ = (.ok (h :: l :: rest), x) ∧
        Comes c (Octets.word h l).toNat x r y ∧ (Octets.word h l).toNat ≤ 4095 ∧
        k.objects.entries.map (fun entry => entry.index.toNat) = List.range (Octets.word h l).toNat ∧
        k.objects.entries.map (·.objectType) =
          r.chunks.flatMap (fun chunk => Octets.words (chunk.answer.take (2 * chunk.elements))) ∧
        ∀ i chunk, r.chunks[i]? = some chunk →
          chunk.elements = min ((Octets.word h l).toNat - 15 * i) 15 ∧ 2 * chunk.elements ≤ chunk.answer.length := by
  refine ⟨length_transmissions_start c link, fun h l rest x _ => ⟨fun o z => ends_iff.symm, fun r y hcomes => ?_⟩,
    fun k hk => ?_⟩
  · have hlength := hcomes.sound.length
    have hwanted : r.wanted (Octets.word h l).toNat ≤ 15 := Nat.min_le_right _ _
    refine ⟨hcomes.sound.start, hcomes.sound.reach, by omega, hcomes.sound.toNat_start_piece, ?_,
      Reading.toNat_elements_piece _ r⟩
    rw [UInt16.toNat_ofNat', Nat.mod_eq_of_lt (by omega)]
  · rcases start_cases c link with ⟨d, y, hdiscovers, hstart⟩ | ⟨e, y, -, hstart⟩
    · obtain rfl := Opening.opened.inj (hstart.symm.trans hk)
      cases hdiscovers with
      | @assumed e x hread hr => exact .inl ⟨e, x, hread, hr, rfl⟩
      | @listed h l rest types x z hread hend =>
          obtain ⟨r, hcomes, rfl, hcount, hle⟩ := hend.of_ok
          have hsize : (ObjectList.mk r.types).size = (Octets.word h l).toNat := hcount
          have hindex := ObjectList.map_index_entries (d := ⟨r.types⟩) (by omega)
          refine .inr ⟨h, l, rest, x, r, z, hread, hcomes, hle, ?_, ?_, fun i chunk hchunk => ?_⟩
          · rw [← hsize]
            exact hindex
          · exact (ObjectList.map_objectType_entries _).trans hcomes.sound.types
          · exact ⟨hcomes.sound.elements i chunk hchunk, hcomes.sound.long chunk (List.mem_of_getElem? hchunk)⟩
    · rw [hstart] at hk
      cases hk

/-- A device with 20 objects is read in two pieces. -/
theorem discovery_bounded_ofObjects :
    ∃ k x z, start (Scripted.connection .plain) (.ofObjects 20) = .opened k ∧
      readPiece (Scripted.connection .plain) (.start (.ofObjects 20)) ⟨0, 1⟩ = (.ok [0, 20], x) ∧
      Ends (Scripted.connection .plain) (Octets.word 0 20).toNat x (.ok (List.replicate 20 ObjectType.cemiServer)) z ∧
      k.objects.entries.map (fun entry => entry.index.toNat) = List.range 20 ∧
      k.exchange.chronicle.transmissions.length = 3 := by
  obtain ⟨k, x, z, hk, hread, hpieces, hlength⟩ : ∃ k x z,
      start (Scripted.connection .plain) (.ofObjects 20) = .opened k ∧
      readPiece (Scripted.connection .plain) (.start (.ofObjects 20)) ⟨0, 1⟩ = (.ok [0, 20], x) ∧
      readPieces (Scripted.connection .plain) (pieces (Octets.word 0 20).toNat) x =
        (.ok (List.replicate 20 ObjectType.cemiServer), z) ∧
      k.exchange.chronicle.transmissions.length = 3 := ⟨_, _, _, rfl, rfl, rfl, rfl⟩
  obtain ⟨-, hloop, hopened⟩ := discovery_bounded (Scripted.connection .plain) (.ofObjects 20)
  refine ⟨k, x, z, hk, hread, ((hloop 0 20 [] x hread).1 _ _).mp hpieces, ?_, hlength⟩
  rcases hopened k hk with ⟨e, y, hfailed, -⟩ | ⟨h, l, rest, y, r, w, htold, -, -, hindex, -⟩
  · rw [hread] at hfailed
    cases hfailed
  · rw [hread] at htold
    cases htold
    exact hindex

end Client

end BusManagement
