import BusManagement.Proofs.Operations
import BusManagement.Proofs.Parallel

/-! What the outcome of an operation says about its requests. An operation goes on after a request that has
succeeded or was refused, and ends with any other fault of a request. So what holds of each request together
with its fault holds of the whole operation together with its fault, provided it can be carried across requests
that let the operation go on. Discovery is the exception: it takes two kinds of faults of its first
request for an answer. -/

namespace BusManagement

variable {σ α β : Type}

/-- The fault in a result, if there is one. -/
def faultOf : Except Fault α → Option Fault
  | .ok _ => none
  | .error e => some e

@[simp] theorem faultOf_map (f : α → β) (r : Except Fault α) : faultOf (r.map f) = faultOf r := by
  cases r <;> rfl

/-- A relation between what was before, the fault and what is afterwards, which holds where nothing is done and
can be carried across successes and refusals. -/
structure Exchange.Explains (Q : Exchange σ → Option Fault → Exchange σ → Prop) : Prop where
  idle : ∀ x f, Q x f x
  afterOk : ∀ {x y z f}, Q x none y → Q y f z → Q x f z
  afterRefusal : ∀ {x y z e f}, e.kind = .remote → Q x (some e) y → Q y f z → Q x f z
  finding : ∀ {x y f} (h : Happening), h.isFinding = true → Q x f y → Q x f (y.note h)

open Exchange (Explains)

variable {Q : Exchange σ → Option Fault → Exchange σ → Prop} {c : Connection σ}

/-- Each request of a client is explained. -/
def Exchange.ExplainsRequests (c : Connection σ) (Q : Exchange σ → Option Fault → Exchange σ → Prop) : Prop :=
  ∀ x (f : Frame) awaited, f.service.confirmation? = some awaited →
    Q x (faultOf (x.request c f awaited).1) (x.request c f awaited).2

open Exchange (ExplainsRequests)

namespace Discovery

theorem explains_readPiece (hrequest : ExplainsRequests c Q) (x : Exchange σ) (p : Piece) :
    Q x (faultOf (readPiece c x p).1) (readPiece c x p).2 := hrequest x _ .readConfirmation rfl

variable (hQ : Explains Q) (hrequest : ExplainsRequests c Q)

include hQ hrequest

theorem explains_readPieces (ps : List Piece) (x : Exchange σ) :
    Q x (faultOf (readPieces c ps x).1) (readPieces c ps x).2 := by
  induction ps generalizing x with
  | nil => exact hQ.idle x none
  | cons p rest ih =>
      have hpiece := explains_readPiece hrequest x p
      rw [readPieces]
      generalize readPiece c x p = o at hpiece ⊢
      obtain ⟨r, y⟩ := o
      cases r with
      | error e => exact hpiece
      | ok answer =>
          dsimp only
          cases typesIn answer p.elements.toNat with
          | error e => exact hQ.afterOk hpiece (hQ.idle y (some e))
          | ok types =>
              have hrest := hQ.afterOk hpiece (ih y)
              dsimp only
              generalize readPieces c rest y = o at hrest ⊢
              obtain ⟨r, z⟩ := o
              cases r <;> exact hrest

/-- Either the device does not tell the number of its objects, or the discovery is explained by its requests. -/
theorem explains_objects (x : Exchange σ) :
    (∃ e y, readPiece c x ⟨0, 1⟩ = (.error e, y) ∧ e.isRemote = true ∧
      objects c x = (.ok .assumed, y.note (.listUnavailable e))) ∨
    Q x (faultOf (objects c x).1) (objects c x).2 := by
  have hcount := explains_readPiece hrequest x ⟨0, 1⟩
  rw [objects]
  generalize readPiece c x ⟨0, 1⟩ = o at hcount ⊢
  obtain ⟨r, y⟩ := o
  cases r with
  | error e =>
      cases hr : e.isRemote with
      | true => exact .inl ⟨e, y, rfl, hr, by simp [hr]⟩
      | false =>
          right
          dsimp only
          rw [hr]
          exact hcount
  | ok answer =>
      right
      dsimp only
      cases countIn answer with
      | error e => exact hQ.afterOk hcount (hQ.idle y (some e))
      | ok count =>
          have hpieces := hQ.afterOk hcount (explains_readPieces hQ hrequest (pieces count) y)
          dsimp only
          generalize readPieces c (pieces count) y = o at hpieces ⊢
          obtain ⟨r, z⟩ := o
          cases r with
          | error e => exact hpieces
          | ok types => exact hQ.finding _ rfl hpieces

end Discovery

namespace Client

/-- The fault that a search has met, if it has ended with one. -/
def Search.fault? : Search → Option Fault
  | found _ _ | exhausted => none
  | failed e => some e

/-- What an operation of a client gives is explained by its fault. -/
def Explained (Q : Exchange σ → Option Fault → Exchange σ → Prop) (k : Client σ) (o : Outcome α σ) : Prop :=
  Q k.exchange (faultOf o.1) o.2.exchange

variable (hQ : Explains Q) (hrequest : ExplainsRequests c Q)

include hQ hrequest

section Properties

variable (k : Client σ) (object : UInt16)

theorem explained_access {requestTo : ObjectAddress → Frame} {awaited : Service}
    (hs : ∀ a, (requestTo a).service.confirmation? = some awaited) :
    Explained Q k (k.access c object requestTo awaited) := by
  rw [access]
  split_ifs
  · cases k.objects.address object with
    | error e => exact hQ.idle k.exchange (some e)
    | ok a => exact hrequest k.exchange (requestTo a) awaited (hs a)
  · exact hQ.idle k.exchange _

theorem explained_get (pid : UInt8) (first : UInt16) (elements : UInt8) :
    Explained Q k (k.get c object pid first elements) :=
  explained_access hQ hrequest k object fun _ => rfl

theorem explained_set (pid : UInt8) (first : UInt16) (elements : UInt8) (data : Octets) :
    Explained Q k (k.set c object pid first elements data) := by
  let request (o : ObjectAddress) : Frame := .writing o.objectType o.objectInstance pid first elements data
  have haccess : Explained Q k (k.access c object request .writeConfirmation) :=
    explained_access hQ hrequest k object fun _ => rfl
  rw [set]
  generalize k.access c object _ _ = o at haccess ⊢
  obtain ⟨r, k'⟩ := o
  cases r <;> exact haccess

theorem explained_writeBack (pid : UInt8) (value : Octets) :
    Explained Q k (k.writeBack c object pid value) := by
  have hset := explained_set hQ hrequest k object pid 1 1 value
  rw [writeBack]
  generalize k.set c object pid 1 1 value = o at hset ⊢
  obtain ⟨r, k'⟩ := o
  cases r with
  | ok _ => exact hset
  | error e =>
      dsimp only
      split_ifs with hr
      · exact hQ.afterRefusal hr hset (hQ.finding _ rfl (hQ.idle k'.exchange none))
      · exact hset

theorem explained_writable (pid : UInt8) (value : Option Octets) :
    Explained Q k (k.writable c object pid value) := by
  cases value with
  | some value => exact explained_writeBack hQ hrequest k object pid value
  | none =>
      have hget : Explained Q k (k.getFirst c object pid) := explained_get hQ hrequest k object pid 1 1
      rw [writable]
      generalize k.getFirst c object pid = o at hget ⊢
      obtain ⟨r, k'⟩ := o
      cases r with
      | ok value => exact hQ.afterOk hget (explained_writeBack hQ hrequest k' object pid value)
      | error e => exact hget

theorem explained_search (pids : List UInt8) (missing : Nat) (last : UInt8) (value : Option Octets) :
    Q k.exchange (search c object last value missing pids k).1.fault?
      (search c object last value missing pids k).2.exchange := by
  induction pids generalizing missing last value k with
  | nil => cases missing <;> exact hQ.idle k.exchange none
  | cons pid rest ih =>
      cases missing with
      | zero => exact hQ.idle k.exchange none
      | succ missing =>
          have hget : Explained Q k (k.getFirst c object pid) := explained_get hQ hrequest k object pid 1 1
          rw [search]
          generalize k.getFirst c object pid = o at hget ⊢
          obtain ⟨r, k'⟩ := o
          cases r with
          | ok data => exact hQ.afterOk hget (ih k' missing pid (some data))
          | error e =>
              dsimp only
              split_ifs with hr
              · exact hQ.afterRefusal hr hget (ih k' (missing + 1) last value)
              · exact hget

theorem explained_locate (index : UInt16) : Explained Q k (k.locate c object index) := by
  have hsearch := explained_search hQ hrequest k object (pidsAfter k.bookmark.pid)
    (index.toNat + 1 - k.bookmark.count) k.bookmark.pid none
  rw [locate]
  generalize search c object _ _ _ _ k = o at hsearch ⊢
  obtain ⟨last, k'⟩ := o
  cases last with
  | found pid value => exact hsearch
  | exhausted => exact hQ.afterOk hsearch (hQ.idle k'.exchange (some _))
  | failed e => exact hsearch

theorem explained_select (pid : UInt8) (index : UInt16) : Explained Q k (k.select c object pid index) := by
  rw [select]
  split_ifs
  · exact explained_locate hQ hrequest k object index
  · have hget : Explained Q k (k.getFirst c object pid) := explained_get hQ hrequest k object pid 1 1
    generalize k.getFirst c object pid = o at hget ⊢
    obtain ⟨r, k'⟩ := o
    cases r <;> exact hget

theorem explained_describe (pid : UInt8) (index : UInt16) :
    Explained Q k (k.describe c object pid index) := by
  have hselect := explained_select hQ hrequest { k with bookmark := k.bookmark.forQuery object pid index }
    object pid index
  rw [describe]
  split_ifs
  · generalize select c _ object pid index = o at hselect ⊢
    obtain ⟨r, k'⟩ := o
    cases r with
    | error e => exact hselect
    | ok found =>
        obtain ⟨pid, value⟩ := found
        have hwritable := hQ.afterOk hselect (explained_writable hQ hrequest k' object pid value)
        dsimp only
        generalize k'.writable c object pid value = o at hwritable ⊢
        obtain ⟨r, k''⟩ := o
        cases r <;> exact hwritable
  · generalize select c _ object pid index = o at hselect ⊢
    obtain ⟨r, k'⟩ := o
    cases r <;> exact hselect
  · exact hQ.idle k.exchange _

end Properties

end Client

end BusManagement
