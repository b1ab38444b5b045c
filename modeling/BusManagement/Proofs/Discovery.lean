import BusManagement.Proofs.Course.Additions
import BusManagement.Proofs.PropertyMap
import BusManagement.Proofs.Release

/-! The discovery of an object list of any length. A device tells how many objects it has and hands their types
out in pieces. The pieces lie side by side in the list, so what they hold makes up the whole list, and nothing
of it is read twice. A piece has to start where the twelve bits of a start index reach: that is so for all pieces
of a list of up to 4095 objects, and in a longer list the piece at element 4096 has no octets. Discovery ends
there, and the link is released. -/

namespace BusManagement

open Exchange (Ready answerOf)
open Simulation (Store Scripted)

variable {σ : Type}

namespace Discovery

/-! ### The pieces of a list -/

namespace Piece

/-- The elements that a piece covers, counted from one. -/
def indices (p : Piece) : List Nat := List.range' p.start.toNat p.elements.toNat

/-- What a piece covers of a list. -/
def cut {α : Type} (p : Piece) (ts : List α) : List α := (ts.drop (p.start.toNat - 1)).take p.elements.toNat

/-- How a piece of the object list is asked for. -/
def request (p : Piece) : Frame := .reading ObjectType.device 1 PropertyId.objectList p.start p.elements

def transmission (p : Piece) : Transmission := ⟨p.request.layout, .confirmation⟩

/-- The piece lies in a list of this length, and its request has octets. -/
structure Within (length : Nat) (p : Piece) : Prop where
  pos : 1 ≤ p.start.toNat
  start_le : p.start ≤ Frame.maxStart
  one_le : 1 ≤ p.elements
  elements_le : p.elements ≤ Frame.maxElements
  bound : p.start.toNat - 1 + p.elements.toNat ≤ length

theorem Within.mono {length length' : Nat} {p : Piece} (h : p.Within length) (hle : length ≤ length') :
    p.Within length' :=
  ⟨h.pos, h.start_le, h.one_le, h.elements_le, Nat.le_trans h.bound hle⟩

theorem length_cut {α : Type} {ts : List α} {p : Piece} (h : p.Within ts.length) :
    (p.cut ts).length = p.elements.toNat := by
  have hpos := h.pos
  have hbound := h.bound
  simp only [cut, List.length_take, List.length_drop]
  omega

/-- The indices are what a piece covers of the list of all of them. -/
theorem indices_eq_cut {length : Nat} {p : Piece} (h : p.Within length) :
    p.indices = p.cut (List.range' 1 length) := by
  have hpos := h.pos
  apply List.ext_getElem
  · rw [length_cut (by rwa [List.length_range']), indices, List.length_range']
  · intro i hi hj
    simp only [indices, cut, List.getElem_range', List.getElem_take, List.getElem_drop]
    omega

end Piece

/-- The pieces lie side by side from the first element of a list to its last one. -/
structure Tile (length : Nat) (ps : List Piece) : Prop where
  count : ps.length = (length + 14) / 15
  start : ∀ i (h : i < ps.length), ps[i].start.toNat = 15 * i + 1
  elements : ∀ i (h : i < ps.length), ps[i].elements.toNat = min 15 (length - 15 * i)
  cover : ps.flatMap Piece.indices = List.range' 1 length

/-- The piece of this number, counted from zero. -/
def pieceAt (length i : Nat) : Piece := ⟨UInt16.ofNat (15 * i + 1), UInt8.ofNat (min 15 (length - 15 * i))⟩

theorem pieces_eq (length : Nat) : pieces length = (List.range ((length + 14) / 15)).map (pieceAt length) := rfl

theorem toNat_start_pieceAt (length : Nat) {i : Nat} (hi : 15 * i + 1 < 65536) :
    (pieceAt length i).start.toNat = 15 * i + 1 := by
  simp only [pieceAt, UInt16.toNat_ofNat']
  omega

theorem toNat_elements_pieceAt (length i : Nat) :
    (pieceAt length i).elements.toNat = min 15 (length - 15 * i) := by
  simp only [pieceAt, UInt8.toNat_ofNat']
  omega

theorem within_pieceAt {length i : Nat} (hi : 15 * i < length) (h : length ≤ 4095) :
    (pieceAt length i).Within length := by
  have hstart := toNat_start_pieceAt length (i := i) (by omega)
  have helements := toNat_elements_pieceAt length i
  refine ⟨by omega, ?_, ?_, ?_, by omega⟩
  · rw [UInt16.le_iff_toNat_le, hstart]
    show 15 * i + 1 ≤ 4095
    omega
  · rw [UInt8.le_iff_toNat_le, helements]
    show 1 ≤ min 15 (length - 15 * i)
    omega
  · rw [UInt8.le_iff_toNat_le, helements]
    show min 15 (length - 15 * i) ≤ 15
    omega

theorem within_of_mem_pieces {length : Nat} (h : length ≤ 4095) {p : Piece} (hp : p ∈ pieces length) :
    p.Within length := by
  rw [pieces_eq] at hp
  obtain ⟨i, hi, rfl⟩ := List.mem_map.mp hp
  have hlt : i < (length + 14) / 15 := List.mem_range.mp hi
  exact within_pieceAt (by omega) h

theorem cut_pieceAt {α : Type} (ts : List α) {i : Nat} (hi : 15 * i < 4096) :
    (pieceAt ts.length i).cut ts = (ts.drop (15 * i)).take 15 := by
  rw [Piece.cut, toNat_start_pieceAt _ (by omega), toNat_elements_pieceAt, Nat.add_sub_cancel, ← List.length_drop,
    ← List.take_take, List.take_length]

/-- The first pieces together hold as much of the list as fifteen elements each make. -/
theorem flatMap_cut_pieceAt {α : Type} (ts : List α) {m : Nat} (hm : m ≤ 273) :
    (List.range m).flatMap (fun i => (pieceAt ts.length i).cut ts) = ts.take (15 * m) := by
  induction m with
  | zero => rfl
  | succ m ih =>
      rw [List.range_succ, List.flatMap_append, ih (by omega), List.flatMap_singleton,
        cut_pieceAt ts (by omega), ← List.take_add]
      rfl

theorem flatMap_cut_pieces {α : Type} (ts : List α) (h : ts.length ≤ 4095) :
    (pieces ts.length).flatMap (Piece.cut · ts) = ts := by
  have hall : ts.length ≤ 15 * ((ts.length + 14) / 15) := by omega
  rw [pieces_eq, List.flatMap_map, flatMap_cut_pieceAt ts (by omega)]
  exact List.take_of_length_le hall

theorem tile_pieces {length : Nat} (h : length ≤ 4095) : Tile length (pieces length) := by
  have hcount : (pieces length).length = (length + 14) / 15 := by simp [pieces_eq]
  refine ⟨hcount, fun i hi => ?_, fun i hi => ?_, ?_⟩
  · simp only [pieces_eq, List.getElem_map, List.getElem_range]
    exact toNat_start_pieceAt length (by omega)
  · simp only [pieces_eq, List.getElem_map, List.getElem_range]
    exact toNat_elements_pieceAt length i
  · have hcut := flatMap_cut_pieces (List.range' 1 length) (by rwa [List.length_range'])
    rw [List.length_range'] at hcut
    calc (pieces length).flatMap Piece.indices
        = (pieces length).flatMap (Piece.cut · (List.range' 1 length)) :=
          List.flatMap_congr fun p hp => Piece.indices_eq_cut (within_of_mem_pieces h hp)
      _ = List.range' 1 length := hcut

/-- The second piece of a list of twenty is the rest of it. -/
example : pieces 20 = [⟨1, 15⟩, ⟨16, 5⟩] := by decide

/-- A longer list starts with the pieces of one of 4095 elements. The piece behind them starts out of reach. -/
theorem pieces_of_gt {length : Nat} (h : 4095 < length) :
    ∃ p rest, pieces length = pieces 4095 ++ p :: rest ∧ p.start = 4096 ∧ p.elements ≤ Frame.maxElements := by
  have hcount : (length + 14) / 15 = 274 + ((length + 14) / 15 - 274) := by omega
  have hsplit : List.range 274 = List.range 273 ++ [273] := List.range_succ
  have hfirst : (List.range 273).map (pieceAt length) = pieces 4095 := by
    rw [pieces_eq]
    refine List.map_congr_left fun i hi => ?_
    have hlt : i < 273 := List.mem_range.mp hi
    have helements : min 15 (length - 15 * i) = min 15 (4095 - 15 * i) := by omega
    rw [pieceAt, pieceAt, helements]
  have hle : (pieceAt length 273).elements ≤ Frame.maxElements := by
    rw [UInt8.le_iff_toNat_le, toNat_elements_pieceAt]
    exact Nat.min_le_left _ _
  refine ⟨pieceAt length 273,
    (List.range ((length + 14) / 15 - 274)).map fun i => pieceAt length (274 + i), ?_, rfl, hle⟩
  rw [pieces_eq, hcount, List.range_add, hsplit, List.map_append, List.map_append, hfirst, List.append_assoc,
    Nat.add_sub_cancel_left, List.map_map]
  rfl

end Discovery

/-! ### Devices with an object list -/

/-- What a device with these objects confirms when it is asked for its object list. Element 0 is their number,
whatever number of elements is asked for. -/
def ObjectList.answerRead (d : ObjectList) (request : Frame) : Frame :=
  if request.start = 0 then request.answered .readConfirmation (Octets.ofWord (UInt16.ofNat d.size))
  else if d.size < request.start.toNat - 1 + request.elements.toNat then request.refused Refusal.indexRange
  else
    let types := (d.types.drop (request.start.toNat - 1)).take request.elements.toNat
    request.answered .readConfirmation (types.flatMap Octets.ofWord)

/-- In its states of interest, a device answers every read of its object list from this list. -/
def Link.HoldsList (l : Link σ) (I : σ → Prop) (d : ObjectList) : Prop :=
  ∀ s p, I s → l.Confirms s (Discovery.Piece.request p) fun f s' =>
    I s' ∧ f = d.answerRead (Discovery.Piece.request p)

theorem Octets.length_flatMap_ofWord (ws : List UInt16) : (ws.flatMap ofWord).length = 2 * ws.length := by
  induction ws with
  | nil => rfl
  | cons w ws ih =>
      rw [List.flatMap_cons, List.length_append, ih, length_ofWord, List.length_cons]
      omega

namespace Discovery

theorem typesIn_flatMap_ofWord (ts : List UInt16) : typesIn (ts.flatMap Octets.ofWord) ts.length = .ok ts := by
  have hlong : ¬(ts.flatMap Octets.ofWord).length < ts.length * 2 := by
    rw [Octets.length_flatMap_ofWord]
    omega
  rw [typesIn, if_neg hlong, Octets.words_flatMap_ofWord, List.take_length]

theorem countIn_ofWord (w : UInt16) : countIn (Octets.ofWord w) = .ok w.toNat := by
  rw [Octets.ofWord, countIn, Octets.word_high_low]

end Discovery

namespace ObjectList

open Discovery (Piece)

variable {d : ObjectList}

theorem length_entries (d : ObjectList) : d.entries.length = d.size := by
  rw [entries, List.length_map, List.length_zipIdx, size]

/-- As long as the indices have room in 16 bits, each object has its own. -/
theorem getElem?_entries (d : ObjectList) (hd : d.size < 65536) {i : Nat} {t : UInt16} (ht : d.types[i]? = some t) :
    ∃ index : UInt16, index.toNat = i ∧ d.entries[i]? = some ⟨index, t⟩ := by
  obtain ⟨hi, -⟩ := List.getElem?_eq_some_iff.mp ht
  have hlt : i < 65536 := Nat.lt_trans hi hd
  refine ⟨UInt16.ofNat i, ?_, ?_⟩
  · rw [UInt16.toNat_ofNat', Nat.mod_eq_of_lt hlt]
  · simp [entries, List.getElem?_zipIdx, ht]

theorem service_answerRead (d : ObjectList) (p : Piece) :
    (d.answerRead p.request).service = .readConfirmation := by
  unfold answerRead
  split_ifs <;> rfl

theorem answerOf_answerRead_count (d : ObjectList) :
    answerOf (d.answerRead (Piece.request ⟨0, 1⟩)) = .ok (Octets.ofWord (UInt16.ofNat d.size)) := by
  have hone : 1 ≤ (Piece.request ⟨0, 1⟩).elements := by decide
  exact answerOf_answered hone _

theorem answerOf_answerRead_within {p : Piece} (h : p.Within d.size) :
    answerOf (d.answerRead p.request) = .ok ((p.cut d.types).flatMap Octets.ofWord) := by
  have hstart : p.request.start ≠ 0 := by
    intro hzero
    have hpos := h.pos
    rw [show p.start = 0 from hzero] at hpos
    exact absurd hpos (by decide)
  have hbound : ¬d.size < p.request.start.toNat - 1 + p.request.elements.toNat := Nat.not_lt.mpr h.bound
  rw [answerRead, if_neg hstart, if_neg hbound]
  exact answerOf_answered h.one_le _

end ObjectList

namespace Discovery

variable {c : Connection σ} {I : σ → Prop} {d : ObjectList}

/-- A piece that can be asked for is answered from the list, after exactly one transmission. -/
theorem readPiece_of_le (hl : c.link.HoldsList I d) {x : Exchange σ} (hx : Ready I x) {p : Piece}
    (he : p.elements ≤ Frame.maxElements) (hs : p.start ≤ Frame.maxStart) :
    ∃ y, readPiece c x p = (answerOf (d.answerRead p.request), y) ∧ Ready I y ∧
      y.chronicle.transmissions = x.chronicle.transmissions ++ [p.transmission] := by
  have hencode : p.request.encode = .ok p.request.layout := Frame.encode_of_le rfl he hs
  obtain ⟨g, y, hy, hready⟩ :=
    Exchange.request_of_confirms hx hencode (hl x.link p hx.link _ hencode) .readConfirmation rfl
  obtain ⟨hI, hg⟩ := hready.link
  have hawaited : Service.readConfirmation ≠ .resetIndication := by decide
  have htransmissions := Exchange.transmissions_request (c := c) hx.isOpen hencode hawaited
  rw [hy] at htransmissions
  rw [hg, if_pos (d.service_answerRead p)] at hy
  exact ⟨y, hy, ⟨hready.isOpen, hready.noise, hI⟩, htransmissions⟩

/-- A piece beyond the reach of a start index is not asked for. -/
theorem readPiece_of_gt {x : Exchange σ} (hx : Ready I x) {p : Piece} (he : p.elements ≤ Frame.maxElements)
    (hs : ¬p.start ≤ Frame.maxStart) :
    readPiece c x p = (.error (.startOutOfRange p.start), x.note (.sending p.request)) := by
  have hencode : p.request.encode = .error (.startOutOfRange p.start) := by
    have hheader : p.request.service.hasHeader = true := rfl
    have helements : p.request.elements ≤ Frame.maxElements := he
    have hstart : ¬p.request.start ≤ Frame.maxStart := hs
    rw [Frame.encode, if_pos hheader, if_pos helements, if_neg hstart]
    rfl
  exact Exchange.request_of_encode_error hx.isOpen hencode .readConfirmation

theorem readPieces_cons_of_ok {x y : Exchange σ} {p : Piece} {answer : Octets} {ts : List UInt16}
    (hp : readPiece c x p = (.ok answer, y)) (ht : typesIn answer p.elements.toNat = .ok ts) (rest : List Piece) :
    readPieces c (p :: rest) x = ((readPieces c rest y).1.map (ts ++ ·), (readPieces c rest y).2) := by
  rw [readPieces, hp]
  simp only [ht]
  rcases readPieces c rest y with ⟨_ | _, _⟩ <;> rfl

/-- Pieces in the list are read one after the other, and then whatever comes behind them. -/
theorem readPieces_append (hl : c.link.HoldsList I d) {ps : List Piece} (hps : ∀ p ∈ ps, p.Within d.size)
    (rest : List Piece) {x : Exchange σ} (hx : Ready I x) :
    ∃ y, readPieces c (ps ++ rest) x =
        ((readPieces c rest y).1.map (ps.flatMap (Piece.cut · d.types) ++ ·), (readPieces c rest y).2) ∧
      Ready I y ∧ y.chronicle.transmissions = x.chronicle.transmissions ++ ps.map Piece.transmission := by
  induction ps generalizing x with
  | nil =>
      refine ⟨x, ?_, hx, (List.append_nil _).symm⟩
      rw [List.nil_append]
      rcases readPieces c rest x with ⟨_ | _, _⟩ <;> rfl
  | cons p ps ih =>
      obtain ⟨hp, hps⟩ := List.forall_mem_cons.mp hps
      obtain ⟨y, hy, hready, htransmissions⟩ := readPiece_of_le hl hx hp.elements_le hp.start_le
      obtain ⟨z, hz, hready', htransmissions'⟩ := ih hps hready
      rw [ObjectList.answerOf_answerRead_within hp] at hy
      have htypes : typesIn ((p.cut d.types).flatMap Octets.ofWord) p.elements.toNat = .ok (p.cut d.types) := by
        rw [← Piece.length_cut hp]
        exact typesIn_flatMap_ofWord _
      refine ⟨z, ?_, hready', ?_⟩
      · rw [List.cons_append, readPieces_cons_of_ok hy htypes, hz]
        rcases readPieces c rest z with ⟨_ | _, _⟩
        · rfl
        · simp [Except.map]
      · rw [htransmissions', htransmissions, List.append_assoc]
        rfl

/-- The number of the objects comes first, and the pieces of a list of that length behind it. -/
theorem objects_of_count (hl : c.link.HoldsList I d) (hd : d.size < 65536) {x : Exchange σ} (hx : Ready I x) :
    ∃ y, Ready I y ∧ y.chronicle.transmissions = x.chronicle.transmissions ++ [Piece.transmission ⟨0, 1⟩] ∧
      (∀ types z, readPieces c (pieces d.size) y = (.ok types, z) →
        objects c x = (.ok ⟨types⟩, z.note (.discovered types.length))) ∧
      ∀ e z, readPieces c (pieces d.size) y = (.error e, z) → objects c x = (.error e, z) := by
  obtain ⟨y, hy, hready, htransmissions⟩ := readPiece_of_le hl hx (p := ⟨0, 1⟩) (by decide) (by decide)
  rw [d.answerOf_answerRead_count] at hy
  have hcount : countIn (Octets.ofWord (UInt16.ofNat d.size)) = .ok d.size := by
    rw [countIn_ofWord, UInt16.toNat_ofNat', Nat.mod_eq_of_lt hd]
  refine ⟨y, hready, htransmissions, fun types z hz => ?_, fun e z hz => ?_⟩
  · rw [objects, hy]
    simp only [hcount, hz]
  · rw [objects, hy]
    simp only [hcount, hz]

/-- A list of up to 4095 objects is discovered as it is. -/
theorem objects_of_le (hl : c.link.HoldsList I d) (hd : d.size ≤ 4095) {x : Exchange σ} (hx : Ready I x) :
    ∃ y, objects c x = (.ok d, y) ∧ y.chronicle.transmissions =
      x.chronicle.transmissions ++ (⟨0, 1⟩ :: pieces d.size).map Piece.transmission := by
  obtain ⟨y, hready, htransmissions, hok, -⟩ := objects_of_count hl (by omega) hx
  obtain ⟨z, hz, -, htransmissions'⟩ :=
    readPieces_append hl (fun p hp => within_of_mem_pieces hd hp) [] hready
  have hread : readPieces c (pieces d.size) y = (.ok d.types, z) := by
    have hcut : (pieces d.size).flatMap (Piece.cut · d.types) = d.types := flatMap_cut_pieces d.types hd
    rw [List.append_nil, hcut] at hz
    rw [hz]
    simp [readPieces, Except.map]
  refine ⟨_, hok _ _ hread, ?_⟩
  rw [Exchange.transmissions_note z rfl, htransmissions', htransmissions, List.append_assoc]
  rfl

/-- Of a longer list, 273 pieces are read. The next one would start at element 4096. -/
theorem objects_of_gt (hl : c.link.HoldsList I d) (hgt : 4095 < d.size) (hd : d.size < 65536)
    {x : Exchange σ} (hx : Ready I x) :
    ∃ y, objects c x = (.error (.startOutOfRange 4096), y) ∧ y.isOpen = true ∧ y.chronicle.transmissions =
      x.chronicle.transmissions ++ (⟨0, 1⟩ :: pieces 4095).map Piece.transmission := by
  obtain ⟨y, hready, htransmissions, -, herror⟩ := objects_of_count hl hd hx
  obtain ⟨p, rest, hpieces, hstart, helements⟩ := pieces_of_gt hgt
  have hwithin : ∀ q ∈ pieces 4095, q.Within d.size := by
    intro q hq
    exact (within_of_mem_pieces (Nat.le_refl 4095) hq).mono (by omega)
  obtain ⟨z, hz, hready', htransmissions'⟩ := readPieces_append hl hwithin (p :: rest) hready
  have hbeyond : ¬p.start ≤ Frame.maxStart := by
    rw [hstart]
    decide
  have hread : readPieces c (pieces d.size) y = (.error (.startOutOfRange 4096), z.note (.sending p.request)) := by
    rw [hpieces, hz, readPieces, readPiece_of_gt hready' helements hbeyond, hstart]
    rfl
  refine ⟨_, herror _ _ hread, hready'.isOpen, ?_⟩
  rw [Exchange.transmissions_note z rfl, htransmissions', htransmissions, List.append_assoc]
  rfl

end Discovery

/-! ### Clients of such devices -/

namespace Client

open Discovery (Piece Tile pieces)

variable {c : Connection σ} {I : σ → Prop} {d : ObjectList}

theorem start_of_le (hl : c.link.HoldsList I d) (hd : d.size ≤ 4095) {link : σ} (hI : I link) :
    ∃ k, start c link = .opened k ∧ k.objects = d ∧
      k.exchange.chronicle.transmissions = (⟨0, 1⟩ :: pieces d.size).map Piece.transmission := by
  obtain ⟨y, hy, htransmissions⟩ := Discovery.objects_of_le (c := c) hl hd (Exchange.ready_start hI)
  refine ⟨⟨y.note (.opened d.size), d, .start⟩, by rw [start, hy], rfl, ?_⟩
  exact (Exchange.transmissions_note y rfl).trans htransmissions

theorem start_of_gt (hl : c.link.HoldsList I d) (hgt : 4095 < d.size) (hd : d.size < 65536) {link : σ}
    (hI : I link) :
    ∃ x, start c link = .failed (.startOutOfRange 4096) x ∧ x.isOpen = false ∧ x.chronicle.releases = 1 ∧
      x.chronicle.transmissions = (⟨0, 1⟩ :: pieces 4095).map Piece.transmission := by
  obtain ⟨y, hy, hopen, htransmissions⟩ := Discovery.objects_of_gt (c := c) hl hgt hd (Exchange.ready_start hI)
  let told := y.note (.discoveryFailed (.startOutOfRange 4096))
  have hs : start c link = .failed (.startOutOfRange 4096) (told.closeFor c .discovery) := by rw [start, hy]
  have htold : told.isOpen = true := hopen
  have hcloses : Exchange.ClosesFor .discovery told (told.closeFor c .discovery) :=
    Exchange.closesFor_closeFor c htold rfl
  have haccounted := (Exchange.accounted_start link).course (course_start c link)
  rw [hs] at haccounted
  refine ⟨_, hs, hcloses.after, haccounted.releases_eq hcloses, ?_⟩
  rw [(Exchange.inFlight_closeFor c _ (.inr rfl)).adds.transmissions_eq, Exchange.transmissions_note y rfl,
    htransmissions]
  rfl

/-- The objects of a device are discovered as they are if there are no more than 4095 of them. The number is
asked for first, then the list in pieces that cover it once and in order. If there are more, discovery fails
behind the last piece that starts within reach, and the link is closed once. -/
theorem discovers_list (hl : c.link.HoldsList I d) (hd : d.size < 65536) {link : σ} (hI : I link) :
    ((∃ k, start c link = .opened k) ↔ d.size ≤ 4095) ∧
    (∀ k, start c link = .opened k → k.objects.entries.length = d.size ∧
      ∀ i t, d.types[i]? = some t → ∃ index : UInt16, index.toNat = i ∧
        k.objects.entries[i]? = some ⟨index, t⟩) ∧
    (∃ reads, Tile (min d.size 4095) reads ∧
      (start c link).exchange.chronicle.transmissions = (⟨0, 1⟩ :: reads).map Piece.transmission) ∧
    (4095 < d.size → ∃ e x, start c link = .failed e x ∧ e.kind = .invalidData ∧
      x.chronicle.transmissions.length = 1 + 273 ∧ x.isOpen = false ∧ x.chronicle.releases = 1) := by
  by_cases hle : d.size ≤ 4095
  · obtain ⟨k, hk, hobjects, htransmissions⟩ := start_of_le hl hle hI
    refine ⟨⟨fun _ => hle, fun _ => ⟨k, hk⟩⟩, fun k' hk' => ?_, ⟨pieces d.size, ?_, ?_⟩, fun hgt => ?_⟩
    · obtain rfl : k = k' := Opening.opened.inj (hk.symm.trans hk')
      rw [hobjects]
      exact ⟨d.length_entries, fun i t ht => d.getElem?_entries hd ht⟩
    · rw [Nat.min_eq_left hle]
      exact Discovery.tile_pieces hle
    · rw [hk]
      exact htransmissions
    · omega
  · have hgt : 4095 < d.size := Nat.lt_of_not_le hle
    obtain ⟨x, hx, hclosed, hreleases, htransmissions⟩ := start_of_gt hl hgt hd hI
    have htile := Discovery.tile_pieces (Nat.le_refl 4095)
    refine ⟨⟨fun ⟨k, hk⟩ => ?_, fun h => absurd h hle⟩, fun k hk => ?_, ⟨pieces 4095, ?_, ?_⟩,
      fun _ => ⟨_, x, hx, rfl, ?_, hclosed, hreleases⟩⟩
    · rw [hx] at hk
      cases hk
    · rw [hx] at hk
      cases hk
    · rw [Nat.min_eq_right (Nat.le_of_lt hgt)]
      exact htile
    · rw [hx]
      exact htransmissions
    · rw [htransmissions, List.length_map, List.length_cons, htile.count]

end Client

/-! ### The simulated device holds its list -/

namespace Simulation

theorem Store.answerObjectList_eq {s : Store} {d : ObjectList} (ht : s.objectTypes = some d.types)
    (hc : s.countAnswer = none) (request : Frame) : s.answerObjectList request = d.answerRead request := by
  by_cases hzero : request.start = 0
  · simp [answerObjectList, ht, hc, ObjectList.answerRead, ObjectList.size, hzero]
  · have hne : request.start.toNat ≠ 0 := fun h => hzero (UInt16.toNat_inj.mp h)
    simp only [answerObjectList, ht, if_neg hne, ObjectList.answerRead, if_neg hzero]
    rfl

/-- The device answers what it is asked, and these are its objects. -/
def Scripted.Lists (d : ObjectList) (s : Scripted) : Prop :=
  s.Idle ∧ s.store.objectTypes = some d.types ∧ s.store.countAnswer = none

theorem Scripted.holdsList (name : String) (d : ObjectList) : (link name).HoldsList (Lists d) d := by
  rintro s p ⟨hidle, htypes, hcount⟩ octets he
  refine (confirms_of_idle name hidle rfl octets he).mono fun f s' h => ?_
  obtain ⟨hidle', -, hanswer⟩ := h
  have hread : s.store.answer p.request = (some (s.store.answerObjectList p.request), s.store) := rfl
  obtain ⟨hf, hstore⟩ := Prod.mk.inj (hread.symm.trans hanswer)
  refine ⟨⟨hidle', hstore ▸ htypes, hstore ▸ hcount⟩, ?_⟩
  calc f = s.store.answerObjectList p.request := (Option.some.inj hf).symm
    _ = d.answerRead p.request := Store.answerObjectList_eq htypes hcount p.request

/-- A device that has nothing but this many objects of one type. -/
def Scripted.ofObjects (count : Nat) : Scripted :=
  .ofStore ⟨some (List.replicate count ObjectType.cemiServer), none, []⟩

theorem Scripted.lists_ofObjects (count : Nat) :
    (ofObjects count).Lists ⟨List.replicate count ObjectType.cemiServer⟩ :=
  ⟨idle_ofStore _, rfl, rfl⟩

end Simulation

/-- The longest list that can be discovered, and one object more. -/
theorem Client.discovers_list_of_4095 :
    (∃ k, start (Scripted.connection .plain) (.ofObjects 4095) = .opened k) ∧
    ∃ e x, start (Scripted.connection .plain) (.ofObjects 4096) = .failed e x ∧
      e.kind = .invalidData ∧ x.chronicle.transmissions.length = 1 + 273 ∧ x.isOpen = false ∧
      x.chronicle.releases = 1 := by
  have hsize (count : Nat) : (ObjectList.mk (List.replicate count ObjectType.cemiServer)).size = count :=
    List.length_replicate
  have hsmall (count : Nat) (h : count < 65536) :
      (ObjectList.mk (List.replicate count ObjectType.cemiServer)).size < 65536 := by
    rwa [hsize]
  have hopens := discovers_list (c := Scripted.connection .plain) (Scripted.holdsList "a" _)
    (hsmall 4095 (by decide)) (Scripted.lists_ofObjects 4095)
  have hfails := discovers_list (c := Scripted.connection .plain) (Scripted.holdsList "a" _)
    (hsmall 4096 (by decide)) (Scripted.lists_ofObjects 4096)
  have hlonger : 4095 < (ObjectList.mk (List.replicate 4096 ObjectType.cemiServer)).size := by
    rw [hsize]
    decide
  exact ⟨hopens.1.mpr (Nat.le_of_eq (hsize 4095)), hfails.2.2.2 hlonger⟩

end BusManagement
