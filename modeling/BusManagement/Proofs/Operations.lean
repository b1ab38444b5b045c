import BusManagement.Proofs.Course.Scan
import BusManagement.Proofs.Frame

/-! What holds across every request holds across every operation of a client. The operations are made of
requests and of remarks, and so is the discovery of the objects; a relation between exchanges that can be
chained and that covers both therefore covers the loops over pieces of the object list and over property
ids, and nothing about them has to be proved more than once. An operation on an object makes no other requests
than those about this object, and discovery none but those for a piece of the object list. -/

namespace BusManagement

variable {σ : Type}

/-- A relation that can be chained, and that remarks do not disturb. -/
structure Exchange.Spans (R : Exchange σ → Exchange σ → Prop) : Prop where
  refl : ∀ x, R x x
  trans : ∀ {x y z}, R x y → R y z → R x z
  remark : ∀ x h, h.isRemark = true → R x (x.note h)

open Exchange (Spans)

variable {c : Connection σ} {R : Exchange σ → Exchange σ → Prop}

namespace Discovery

theorem countIn_lt {answer : Octets} {count : Nat} (h : countIn answer = .ok count) : count < 65536 := by
  unfold countIn at h
  split at h
  · rw [← Except.ok.inj h]
    exact UInt16.toNat_lt _
  · cases h

/-- The pieces that discovery asks for: first the number of the objects, and then the pieces of a list of any
length that can be the answer. -/
inductive Asks : Piece → Prop
  | count : Asks ⟨0, 1⟩
  | piece {length : Nat} (hl : length < 65536) {p : Piece} (hp : p ∈ pieces length) : Asks p

theorem spans_readPieces (hR : Spans R) {ps : List Piece} (hread : ∀ p ∈ ps, ∀ x, R x (readPiece c x p).2)
    (x : Exchange σ) : R x (readPieces c ps x).2 := by
  induction ps generalizing x with
  | nil => exact hR.refl x
  | cons p rest ih =>
      obtain ⟨hfirst, hrest⟩ := List.forall_mem_cons.mp hread
      have hpiece := hfirst x
      rw [readPieces]
      split
      · next h => rwa [h] at hpiece
      · next y h =>
          rw [h] at hpiece
          split
          · exact hpiece
          · have hpieces := hR.trans hpiece (ih hrest y)
            split <;> next h' => rwa [h'] at hpieces

theorem spans_objects (hR : Spans R) (hread : ∀ p, Asks p → ∀ x, R x (readPiece c x p).2) (x : Exchange σ) :
    R x (objects c x).2 := by
  have hcount := hread _ .count x
  rw [objects]
  split
  · next y h =>
      rw [h] at hcount
      split_ifs
      · exact hR.trans hcount (hR.remark y _ rfl)
      · exact hcount
  · next y h =>
      rw [h] at hcount
      split
      · exact hcount
      · next count hlength =>
          have hlist := spans_readPieces hR (fun p hp => hread p (.piece (countIn_lt hlength) hp)) y
          have hpieces := hR.trans hcount hlist
          split <;> next h' =>
            rw [h'] at hpieces
            first
              | exact hpieces
              | exact hR.trans hpieces (hR.remark _ _ rfl)

end Discovery

/-- The requests about one of these objects, and the kinds of their confirmations. -/
inductive ObjectList.Asks (d : ObjectList) (object : UInt16) : Frame → Service → Prop
  | read {a : ObjectAddress} (ha : d.address object = .ok a) (pid : UInt8) (first : UInt16) (elements : UInt8) :
      Asks d object (.reading a.objectType a.objectInstance pid first elements) .readConfirmation
  | write {a : ObjectAddress} (ha : d.address object = .ok a) (pid : UInt8) (first : UInt16) (elements : UInt8)
      (data : Octets) :
      Asks d object (.writing a.objectType a.objectInstance pid first elements data) .writeConfirmation

theorem ObjectList.Asks.confirmation? {d : ObjectList} {object : UInt16} {f : Frame} {awaited : Service}
    (h : d.Asks object f awaited) : f.service.confirmation? = some awaited := by
  cases h <;> rfl

/-- The relation covers the requests about an object, too. -/
structure Covers (c : Connection σ) (d : ObjectList) (object : UInt16) (R : Exchange σ → Exchange σ → Prop) : Prop
    extends Spans R where
  request : ∀ x f awaited, d.Asks object f awaited → R x (x.request c f awaited).2

/-- A relation that covers any request covers those about an object. -/
theorem Exchange.Spans.covers (hR : Spans R)
    (hrequest : ∀ x (f : Frame) awaited, f.service.confirmation? = some awaited → R x (x.request c f awaited).2)
    (d : ObjectList) (object : UInt16) : Covers c d object R :=
  ⟨hR, fun x f awaited h => hrequest x f awaited h.confirmation?⟩

namespace Client

section Access

variable (c) {k : Client σ} {object : UInt16} (requestTo : ObjectAddress → Frame)
  (awaited : Service)

theorem access_of_address (ho : k.isOpen = true) {a : ObjectAddress} (ha : k.objects.address object = .ok a) :
    k.access c object requestTo awaited =
      ((k.exchange.request c (requestTo a) awaited).1,
        { k with exchange := (k.exchange.request c (requestTo a) awaited).2 }) := by
  rw [access, if_pos ho, ha]

theorem access_of_unlisted (ho : k.isOpen = true) {e : Fault} (he : k.objects.address object = .error e) :
    k.access c object requestTo awaited = (.error e, k) := by
  rw [access, if_pos ho, he]

theorem set_of_address (ho : k.isOpen = true) {a : ObjectAddress} (ha : k.objects.address object = .ok a)
    (pid : UInt8) (start : UInt16) (elements : UInt8) (data : Octets) :
    k.set c object pid start elements data =
      ((k.exchange.request c (.writing a.objectType a.objectInstance pid start elements data)
          .writeConfirmation).1.map fun _ => (),
        { k with
          exchange := (k.exchange.request c (.writing a.objectType a.objectInstance pid start elements data)
            .writeConfirmation).2 }) := by
  rw [set, access_of_address c _ _ ho ha]
  split <;> next h =>
    rw [(Prod.mk.inj h).1, (Prod.mk.inj h).2]
    rfl

end Access

/-- The objects stay, and the relation covers what became of the exchange. -/
structure Leads (R : Exchange σ → Exchange σ → Prop) (k k' : Client σ) : Prop where
  objects : k'.objects = k.objects
  exchange : R k.exchange k'.exchange

/-- The bookmark stays, too. -/
structure Keeps (R : Exchange σ → Exchange σ → Prop) (k k' : Client σ) : Prop extends Leads R k k' where
  bookmark : k'.bookmark = k.bookmark

theorem Leads.refl (hR : Spans R) (k : Client σ) : Leads R k k := ⟨rfl, hR.refl _⟩

theorem Leads.trans (hR : Spans R) {k k' k'' : Client σ} (h : Leads R k k') (h' : Leads R k' k'') :
    Leads R k k'' :=
  ⟨h'.objects.trans h.objects, hR.trans h.exchange h'.exchange⟩

theorem Leads.withBookmark {k k' : Client σ} (h : Leads R k k') (b : Bookmark) :
    Leads R k { k' with bookmark := b } := ⟨h.objects, h.exchange⟩

theorem Leads.covers {k k' : Client σ} (h : Leads R k k') {object : UInt16} (hR : Covers c k.objects object R) :
    Covers c k'.objects object R := by
  rw [h.objects]
  exact hR

theorem Keeps.refl (hR : Spans R) (k : Client σ) : Keeps R k k := ⟨.refl hR k, rfl⟩

theorem Keeps.trans (hR : Spans R) {k k' k'' : Client σ} (h : Keeps R k k') (h' : Keeps R k' k'') :
    Keeps R k k'' :=
  ⟨h.toLeads.trans hR h'.toLeads, h'.bookmark.trans h.bookmark⟩

section Properties

variable {k : Client σ} {object : UInt16} (hR : Covers c k.objects object R)

include hR

theorem keeps_access {requestTo : ObjectAddress → Frame} {awaited : Service}
    (hs : ∀ a, k.objects.address object = .ok a → k.objects.Asks object (requestTo a) awaited) :
    Keeps R k (k.access c object requestTo awaited).2 := by
  rw [access]
  split_ifs
  · split
    · exact .refl hR.toSpans k
    · next a ha => exact ⟨⟨rfl, hR.request k.exchange _ awaited (hs a ha)⟩, rfl⟩
  · exact .refl hR.toSpans k

theorem keeps_get (pid : UInt8) (first : UInt16) (elements : UInt8) :
    Keeps R k (k.get c object pid first elements).2 :=
  keeps_access hR fun _ ha => .read ha pid first elements

theorem keeps_set (pid : UInt8) (first : UInt16) (elements : UInt8) (data : Octets) :
    Keeps R k (k.set c object pid first elements data).2 := by
  have h : Keeps R k (k.access c object
      (fun o => .writing o.objectType o.objectInstance pid first elements data) .writeConfirmation).2 :=
    keeps_access hR fun _ ha => .write ha pid first elements data
  rw [set]
  split <;> next h' => rwa [h'] at h

theorem keeps_search (pids : List UInt8) (missing : Nat) (last : UInt8) (value : Option Octets) :
    Keeps R k (search c object last value missing pids k).2 := by
  induction pids generalizing missing last value k with
  | nil => cases missing <;> exact .refl hR.toSpans k
  | cons pid rest ih =>
      cases missing with
      | zero => exact .refl hR.toSpans k
      | succ missing =>
          have hget : Keeps R k (k.getFirst c object pid).2 := keeps_get hR pid 1 1
          rw [search]
          split
          · next h =>
              rw [h] at hget
              exact hget.trans hR.toSpans (ih (hget.covers hR) _ _ _)
          · next h =>
              rw [h] at hget
              split_ifs
              · exact hget.trans hR.toSpans (ih (hget.covers hR) _ _ _)
              · exact hget

theorem keeps_writeBack (pid : UInt8) (value : Octets) : Keeps R k (k.writeBack c object pid value).2 := by
  have h := keeps_set hR pid 1 1 value
  rw [writeBack]
  split
  · next h' => rwa [h'] at h
  · next h' =>
      rw [h'] at h
      split_ifs
      · exact ⟨⟨h.objects, hR.trans h.exchange (hR.remark _ _ rfl)⟩, h.bookmark⟩
      · exact h

theorem keeps_writable (pid : UInt8) (value : Option Octets) :
    Keeps R k (k.writable c object pid value).2 := by
  cases value with
  | some value => exact keeps_writeBack hR pid value
  | none =>
      have h : Keeps R k (k.getFirst c object pid).2 := keeps_get hR pid 1 1
      rw [writable]
      split
      · next h' =>
          rw [h'] at h
          exact h.trans hR.toSpans (keeps_writeBack (h.covers hR) pid _)
      · next h' => rwa [h'] at h

theorem leads_locate (index : UInt16) : Leads R k (k.locate c object index).2 := by
  have h := (keeps_search hR (pidsAfter k.bookmark.pid) (index.toNat + 1 - k.bookmark.count)
    k.bookmark.pid none).toLeads
  rw [locate]
  split <;> next h' =>
    rw [h'] at h
    first
      | exact h
      | exact h.withBookmark _

theorem leads_select (pid : UInt8) (index : UInt16) : Leads R k (k.select c object pid index).2 := by
  rw [select]
  split_ifs
  · exact leads_locate hR index
  · have h : Leads R k (k.getFirst c object pid).2 := (keeps_get hR pid 1 1).toLeads
    split <;> next h' => rwa [h'] at h

theorem leads_describe (pid : UInt8) (index : UInt16) : Leads R k (k.describe c object pid index).2 := by
  by_cases ho : k.isOpen
  · rw [describe, if_pos ho]
    have hselect := ((Leads.refl hR.toSpans k).withBookmark (k.bookmark.forQuery object pid index)).trans
      hR.toSpans (leads_select (k := { k with bookmark := k.bookmark.forQuery object pid index }) hR pid index)
    split
    · next h => rwa [h] at hselect
    · next pid value k' h =>
        rw [h] at hselect
        have hwritable := hselect.trans hR.toSpans (keeps_writable (hselect.covers hR) pid value).toLeads
        split_ifs
        · split <;> next h' => rwa [h'] at hwritable
        · exact hselect
  · rw [describe, if_neg ho]
    exact .refl hR.toSpans k

end Properties

end Client

end BusManagement
