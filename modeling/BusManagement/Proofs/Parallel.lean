import BusManagement.Client.Run
import BusManagement.Proofs.Abreast

/-! Two clients side by side. If whatever one client does with its exchange has its counterpart for the other,
then so has every operation, every opening and every run: the clients ask for the same objects, read the same
property ids and give the same results, up to faults that correspond to each other. So a difference between
two connections needs to be followed through single calls on the links only. -/

namespace BusManagement

variable {σ τ α : Type}

/-- What a client finds out about its device, and remarks on. -/
def Happening.isFinding : Happening → Bool
  | .listUnavailable _ | .discovered _ | .opened _ | .notWritable _ _ _ => true
  | _ => false

theorem Happening.mayDiffer_of_isFinding {h : Happening} (hf : h.isFinding = true) : h.mayDiffer = false := by
  cases h <;> first | rfl | cases hf

/-- Whatever is done with an exchange over one connection has its counterpart over the other, since that holds of
the calls on the link. -/
structure Parallel (c : Connection σ) (c' : Connection τ) (S : Exchange σ → Exchange τ → Prop)
    (E : Fault → Fault → Prop) : Prop extends Abreast c c' S where
  refl : ∀ e, E e e
  closedFault : E (Exchange.closedFault c) (Exchange.closedFault c')
  kind : ∀ {e e'}, E e e' → e'.kind = e.kind
  /-- What the remote partner causes is worded the same. -/
  remote : ∀ {e e'}, E e e' → e.isRemote = true → e' = e
  discoveryFailed : ∀ {x x' e e'}, E e e' → S x x' → S (x.note (.discoveryFailed e)) (x'.note (.discoveryFailed e'))
  release : ∀ {x x'}, S x x' → S (x.release c) (x'.release c')
  send : ∀ {x x'} (f : Frame) (awaited : Service), f.service.confirmation? = some awaited → S x x' →
    Paired Eq S (x.send c f true) (x'.send c' f true)
  sendReset : ∀ {x x'}, S x x' →
    Paired Eq S (x.send c (.bare .resetRequest) false) (x'.send c' (.bare .resetRequest) false)

/-- The clients have the same objects and the same bookmark, and their exchanges correspond. -/
structure Client.Alike (S : Exchange σ → Exchange τ → Prop) (k : Client σ) (k' : Client τ) : Prop where
  objects : k'.objects = k.objects
  bookmark : k'.bookmark = k.bookmark
  exchange : S k.exchange k'.exchange

/-- Both are opened, or both fail. -/
inductive Opening.Alike (S : Exchange σ → Exchange τ → Prop) (E : Fault → Fault → Prop) :
    Opening σ → Opening τ → Prop
  | opened {k : Client σ} {k' : Client τ} (h : k.Alike S k') : Alike S E (.opened k) (.opened k')
  | failed {e e' : Fault} (he : E e e') {x : Exchange σ} {x' : Exchange τ} (h : S x x') :
      Alike S E (.failed e x) (.failed e' x')

/-- Both searches come to the same end. -/
inductive Client.SearchPaired (S : Exchange σ → Exchange τ → Prop) (E : Fault → Fault → Prop) :
    Search × Client σ → Search × Client τ → Prop
  | found (pid : UInt8) (value : Option Octets) {k : Client σ} {k' : Client τ} (h : k.Alike S k') :
      SearchPaired S E (.found pid value, k) (.found pid value, k')
  | exhausted {k : Client σ} {k' : Client τ} (h : k.Alike S k') : SearchPaired S E (.exhausted, k) (.exhausted, k')
  | failed {e e' : Fault} (he : E e e') {k : Client σ} {k' : Client τ} (h : k.Alike S k') :
      SearchPaired S E (.failed e, k) (.failed e', k')

namespace Parallel

variable {c : Connection σ} {c' : Connection τ} {S : Exchange σ → Exchange τ → Prop} {E : Fault → Fault → Prop}
  (hP : Parallel c c' S E)

include hP

theorem isRemote {e e' : Fault} (he : E e e') : e'.isRemote = e.isRemote := by
  unfold Fault.isRemote
  rw [hP.kind he]

/-! ### Requests -/

section Requests

variable {x : Exchange σ} {x' : Exchange τ} (hx : S x x')

include hx

theorem finding {h : Happening} (hf : h.isFinding = true) : S (x.note h) (x'.note h) :=
  hP.note hx (Happening.mayDiffer_of_isFinding hf)

theorem request (f : Frame) (awaited : Service) (hs : f.service.confirmation? = some awaited) :
    Paired E S (x.request c f awaited) (x'.request c' f awaited) := by
  have hsend := hP.send f awaited hs (hP.note hx (h := .sending f) rfl)
  rw [Exchange.request, Exchange.request, hP.isOpen hx]
  split_ifs
  · generalize (x.note (.sending f)).send c f true = o at hsend ⊢
    generalize (x'.note (.sending f)).send c' f true = o' at hsend ⊢
    cases hsend with
    | ok _ hy => exact (hP.scan hy hP.release (Service.ne_resetIndication_of_confirmation? hs)).of_eq hP.refl
    | error he hy => exact .error (he ▸ hP.refl _) hy
  · exact .error hP.closedFault hx

theorem resetDevice : Paired E S (x.resetDevice c) (x'.resetDevice c') := by
  rw [Exchange.resetDevice, Exchange.resetDevice, hP.isOpen hx]
  split_ifs
  · exact (hP.sendReset hx).of_eq hP.refl
  · exact .error hP.closedFault hx

end Requests

/-! ### Discovery -/

theorem readPiece (p : Discovery.Piece) {x : Exchange σ} {x' : Exchange τ} (hx : S x x') :
    Paired E S (Discovery.readPiece c x p) (Discovery.readPiece c' x' p) :=
  hP.request hx _ .readConfirmation rfl

theorem readPieces (ps : List Discovery.Piece) {x : Exchange σ} {x' : Exchange τ} (hx : S x x') :
    Paired E S (Discovery.readPieces c ps x) (Discovery.readPieces c' ps x') := by
  induction ps generalizing x x' with
  | nil => exact .ok [] hx
  | cons p rest ih =>
      have hp := hP.readPiece p hx
      rw [Discovery.readPieces, Discovery.readPieces]
      generalize Discovery.readPiece c x p = o at hp ⊢
      generalize Discovery.readPiece c' x' p = o' at hp ⊢
      cases hp with
      | error he hy => exact .error he hy
      | @ok answer y y' hy =>
          have hrest := ih hy
          dsimp only
          cases Discovery.typesIn answer p.elements.toNat with
          | error e => exact .error (hP.refl e) hy
          | ok types =>
              dsimp only
              generalize Discovery.readPieces c rest y = o at hrest ⊢
              generalize Discovery.readPieces c' rest y' = o' at hrest ⊢
              cases hrest with
              | ok others hz => exact .ok (types ++ others) hz
              | error he hz => exact .error he hz

theorem objects {x : Exchange σ} {x' : Exchange τ} (hx : S x x') :
    Paired E S (Discovery.objects c x) (Discovery.objects c' x') := by
  have hcount := hP.readPiece ⟨0, 1⟩ hx
  rw [Discovery.objects, Discovery.objects]
  generalize Discovery.readPiece c x ⟨0, 1⟩ = o at hcount ⊢
  generalize Discovery.readPiece c' x' ⟨0, 1⟩ = o' at hcount ⊢
  cases hcount with
  | @error e e' he y y' hy =>
      dsimp only
      rw [hP.isRemote he]
      split_ifs with hr
      · rw [hP.remote he hr]
        exact .ok _ (hP.finding hy rfl)
      · exact .error he hy
  | @ok answer y y' hy =>
      dsimp only
      cases Discovery.countIn answer with
      | error e => exact .error (hP.refl e) hy
      | ok count =>
          have hpieces := hP.readPieces (Discovery.pieces count) hy
          dsimp only
          generalize Discovery.readPieces c (Discovery.pieces count) y = o at hpieces ⊢
          generalize Discovery.readPieces c' (Discovery.pieces count) y' = o' at hpieces ⊢
          cases hpieces with
          | error he hz => exact .error he hz
          | ok types hz => exact .ok _ (hP.finding hz rfl)

theorem start {link : σ} {link' : τ} (hs : S (.start link) (.start link')) :
    Opening.Alike S E (Client.start c link) (Client.start c' link') := by
  have hobjects := hP.objects hs
  rw [Client.start, Client.start]
  generalize Discovery.objects c (.start link) = o at hobjects ⊢
  generalize Discovery.objects c' (.start link') = o' at hobjects ⊢
  cases hobjects with
  | ok objects hy => exact .opened ⟨rfl, rfl, hP.finding hy rfl⟩
  | error he hy => exact .failed he (hP.closeFor (hP.discoveryFailed he hy) hP.release .discovery)

/-! ### Reads and writes -/

variable {k : Client σ} {k' : Client τ} (hk : k.Alike S k')

include hk

theorem access (object : UInt16) {requestTo : ObjectAddress → Frame} {awaited : Service}
    (hs : ∀ a, (requestTo a).service.confirmation? = some awaited) :
    Paired E (Client.Alike S) (k.access c object requestTo awaited) (k'.access c' object requestTo awaited) := by
  have hopen : k'.isOpen = k.isOpen := hP.isOpen hk.exchange
  rw [Client.access, Client.access, hopen, hk.objects]
  split_ifs
  · cases k.objects.address object with
    | error e => exact .error (hP.refl e) hk
    | ok a =>
        have hrequest := hP.request hk.exchange (requestTo a) awaited (hs a)
        dsimp only
        generalize k.exchange.request c (requestTo a) awaited = o at hrequest ⊢
        generalize k'.exchange.request c' (requestTo a) awaited = o' at hrequest ⊢
        cases hrequest with
        | ok data hy => exact .ok data ⟨rfl, hk.bookmark, hy⟩
        | error he hy => exact .error he ⟨rfl, hk.bookmark, hy⟩
  · exact .error hP.closedFault hk

theorem get (object : UInt16) (pid : UInt8) (first : UInt16) (elements : UInt8) :
    Paired E (Client.Alike S) (k.get c object pid first elements) (k'.get c' object pid first elements) :=
  hP.access hk object fun _ => rfl

theorem set (object : UInt16) (pid : UInt8) (first : UInt16) (elements : UInt8) (data : Octets) :
    Paired E (Client.Alike S) (k.set c object pid first elements data)
      (k'.set c' object pid first elements data) := by
  let request (o : ObjectAddress) : Frame := .writing o.objectType o.objectInstance pid first elements data
  have haccess : Paired E (Client.Alike S) (k.access c object request .writeConfirmation)
      (k'.access c' object request .writeConfirmation) := hP.access hk object fun _ => rfl
  rw [Client.set, Client.set]
  generalize k.access c object _ _ = o at haccess ⊢
  generalize k'.access c' object _ _ = o' at haccess ⊢
  cases haccess with
  | ok data hy => exact .ok () hy
  | error he hy => exact .error he hy

/-! ### Descriptions -/

theorem search (object : UInt16) (pids : List UInt8) (missing : Nat) (last : UInt8) (value : Option Octets) :
    Client.SearchPaired S E (Client.search c object last value missing pids k)
      (Client.search c' object last value missing pids k') := by
  induction pids generalizing missing last value k k' with
  | nil =>
      cases missing with
      | zero => exact .found last value hk
      | succ missing => exact .exhausted hk
  | cons pid rest ih =>
      cases missing with
      | zero => exact .found last value hk
      | succ missing =>
          have hget : Paired E (Client.Alike S) (k.getFirst c object pid) (k'.getFirst c' object pid) :=
            hP.get hk object pid 1 1
          rw [Client.search, Client.search]
          generalize k.getFirst c object pid = o at hget ⊢
          generalize k'.getFirst c' object pid = o' at hget ⊢
          cases hget with
          | ok data hy => exact ih hy missing pid (some data)
          | error he hy =>
              dsimp only
              rw [hP.kind he]
              split_ifs
              · exact ih hy (missing + 1) last value
              · exact .failed he hy

theorem locate (object index : UInt16) :
    Paired E (Client.Alike S) (k.locate c object index) (k'.locate c' object index) := by
  have hsearch := hP.search hk object (Client.pidsAfter k.bookmark.pid) (index.toNat + 1 - k.bookmark.count)
    k.bookmark.pid none
  rw [Client.locate, Client.locate, hk.bookmark]
  generalize Client.search c object _ _ _ _ k = o at hsearch ⊢
  generalize Client.search c' object _ _ _ _ k' = o' at hsearch ⊢
  cases hsearch with
  | found pid value hy => exact .ok (pid, value) ⟨hy.objects, rfl, hy.exchange⟩
  | exhausted hy => exact .error (hP.refl _) ⟨hy.objects, rfl, hy.exchange⟩
  | failed he hy => exact .error he hy

theorem select (object : UInt16) (pid : UInt8) (index : UInt16) :
    Paired E (Client.Alike S) (k.select c object pid index) (k'.select c' object pid index) := by
  rw [Client.select, Client.select]
  split_ifs
  · exact hP.locate hk object index
  · have hget : Paired E (Client.Alike S) (k.getFirst c object pid) (k'.getFirst c' object pid) :=
      hP.get hk object pid 1 1
    generalize k.getFirst c object pid = o at hget ⊢
    generalize k'.getFirst c' object pid = o' at hget ⊢
    cases hget with
    | ok data hy => exact .ok _ hy
    | error he hy => exact .error he hy

theorem writeBack (object : UInt16) (pid : UInt8) (value : Octets) :
    Paired E (Client.Alike S) (k.writeBack c object pid value) (k'.writeBack c' object pid value) := by
  have hset := hP.set hk object pid 1 1 value
  rw [Client.writeBack, Client.writeBack]
  generalize k.set c object pid 1 1 value = o at hset ⊢
  generalize k'.set c' object pid 1 1 value = o' at hset ⊢
  cases hset with
  | ok _ hy => exact .ok true hy
  | @error e e' he y y' hy =>
      dsimp only
      rw [hP.kind he]
      split_ifs with hr
      · have hremote : e.isRemote = true := by simp [Fault.isRemote, hr]
        rw [hP.remote he hremote]
        exact .ok false ⟨hy.objects, hy.bookmark, hP.finding hy.exchange rfl⟩
      · exact .error he hy

theorem writable (object : UInt16) (pid : UInt8) (value : Option Octets) :
    Paired E (Client.Alike S) (k.writable c object pid value) (k'.writable c' object pid value) := by
  cases value with
  | some value => exact hP.writeBack hk object pid value
  | none =>
      have hget : Paired E (Client.Alike S) (k.getFirst c object pid) (k'.getFirst c' object pid) :=
        hP.get hk object pid 1 1
      rw [Client.writable, Client.writable]
      generalize k.getFirst c object pid = o at hget ⊢
      generalize k'.getFirst c' object pid = o' at hget ⊢
      cases hget with
      | ok value hy => exact hP.writeBack hy object pid value
      | error he hy => exact .error he hy

theorem describe (object : UInt16) (pid : UInt8) (index : UInt16) :
    Paired E (Client.Alike S) (k.describe c object pid index) (k'.describe c' object pid index) := by
  have hopen : k'.isOpen = k.isOpen := hP.isOpen hk.exchange
  have hquery : Client.Alike S { k with bookmark := k.bookmark.forQuery object pid index }
      { k' with bookmark := k.bookmark.forQuery object pid index } := ⟨hk.objects, rfl, hk.exchange⟩
  have hselect := hP.select hquery object pid index
  rw [Client.describe, Client.describe, hopen, hk.bookmark, hP.config]
  split_ifs
  · generalize Client.select c _ object pid index = o at hselect ⊢
    generalize Client.select c' _ object pid index = o' at hselect ⊢
    cases hselect with
    | error he hy => exact .error he hy
    | @ok found y y' hy =>
        obtain ⟨pid, value⟩ := found
        have hwritable := hP.writable hy object pid value
        dsimp only
        generalize y.writable c object pid value = o at hwritable ⊢
        generalize y'.writable c' object pid value = o' at hwritable ⊢
        cases hwritable with
        | ok enabled hz => exact .ok _ hz
        | error he hz => exact .error he hz
  · generalize Client.select c _ object pid index = o at hselect ⊢
    generalize Client.select c' _ object pid index = o' at hselect ⊢
    cases hselect with
    | error he hy => exact .error he hy
    | ok found hy => exact .ok _ hy
  · exact .error hP.closedFault hk

/-! ### Runs -/

theorem perform (call : Call) :
    Paired E (Client.Alike S) (k.perform c call) (k'.perform c' call) := by
  cases call with
  | get object pid first elements => exact (hP.get hk object pid first elements).map Reply.data
  | set object pid first elements data =>
      exact (hP.set hk object pid first elements data).map fun _ => Reply.done
  | describe object pid index => exact (hP.describe hk object pid index).map Reply.data
  | reset =>
      have hreset := hP.resetDevice hk.exchange
      rw [Client.perform, Client.perform, Client.reset, Client.reset]
      generalize k.exchange.resetDevice c = o at hreset ⊢
      generalize k'.exchange.resetDevice c' = o' at hreset ⊢
      cases hreset with
      | ok _ hy => exact .ok _ ⟨hk.objects, hk.bookmark, hy⟩
      | error he hy => exact .error he ⟨hk.objects, hk.bookmark, hy⟩
  | close => exact .ok _ ⟨hk.objects, hk.bookmark, hP.close hk.exchange hP.release⟩
  | receive octets => exact .ok _ ⟨hk.objects, hk.bookmark, hP.receive hk.exchange octets⟩
  | linkClosed n => exact .ok _ ⟨hk.objects, hk.bookmark, hP.linkClosed hk.exchange n⟩

/-- The replies of a run agree one by one, and the clients at its end are alike. -/
theorem run (calls : List Call) :
    List.Forall₂ (Agree E) (k.run c calls).1 (k'.run c' calls).1 ∧
      Client.Alike S (k.run c calls).2 (k'.run c' calls).2 := by
  induction calls generalizing k k' with
  | nil => exact ⟨.nil, hk⟩
  | cons call rest ih =>
      have hcall := hP.perform hk call
      obtain ⟨hreplies, hz⟩ := ih hcall.rest
      exact ⟨.cons hcall.agree hreplies, hz⟩

end Parallel

/-! ### Images

A client can be the image of another one, which means that its exchange is. Then openings and runs give images again. -/

/-- The client with the image of its exchange. -/
def Client.map (g : Exchange σ → Exchange τ) (k : Client σ) : Client τ := ⟨g k.exchange, k.objects, k.bookmark⟩

def Opening.map (g : Exchange σ → Exchange τ) : Opening σ → Opening τ
  | opened k => opened (k.map g)
  | failed e x => failed e (g x)

section Image

variable {c : Connection σ} {c' : Connection τ} {g : Exchange σ → Exchange τ}

theorem Client.Alike.eq_map {k : Client σ} {k' : Client τ} (h : k.Alike (fun x x' => g x = x') k') : k' = k.map g := by
  obtain ⟨exchange', objects', bookmark'⟩ := k'
  obtain ⟨rfl, rfl, rfl⟩ := h
  rfl

theorem Opening.Alike.eq_map {o : Opening σ} {o' : Opening τ} (h : Opening.Alike (fun x x' => g x = x') Eq o o') :
    o' = o.map g := by
  cases h with
  | opened hk => rw [hk.eq_map, Opening.map]
  | failed he hx => rw [← he, ← hx, Opening.map]

/-- If each call on the link leads an image to the image of what it leads to, then so does everything else. -/
theorem Parallel.of_image (hA : Abreast c c' fun x x' => g x = x')
    (hname : Exchange.closedFault c = Exchange.closedFault c')
    (hfailed : ∀ x e, g (x.note (.discoveryFailed e)) = (g x).note (.discoveryFailed e))
    (hrelease : ∀ x, g (x.release c) = (g x).release c')
    (hsend : ∀ x f confirmed, (g x).send c' f confirmed = ((x.send c f confirmed).1, g (x.send c f confirmed).2)) :
    Parallel c c' (fun x x' => g x = x') Eq where
  toAbreast := hA
  refl _ := rfl
  closedFault := hname
  kind := by
    rintro e _ rfl
    rfl
  remote := by
    rintro e _ rfl _
    rfl
  discoveryFailed := by
    rintro x _ e _ rfl rfl
    exact hfailed x e
  release := by
    rintro x _ rfl
    exact hrelease x
  send := by
    rintro x _ f awaited - rfl
    rw [hsend x f true]
    exact paired_self _ rfl
  sendReset := by
    rintro x _ rfl
    rw [hsend x _ false]
    exact paired_self _ rfl

theorem Parallel.start_eq (hP : Parallel c c' (fun x x' => g x = x') Eq) {link : σ} {link' : τ}
    (hlink : g (.start link) = .start link') : Client.start c' link' = (Client.start c link).map g :=
  (hP.start hlink).eq_map

theorem Parallel.run_eq (hP : Parallel c c' (fun x x' => g x = x') Eq) (k : Client σ) (calls : List Call) :
    (k.map g).run c' calls = ((k.run c calls).1, (k.run c calls).2.map g) := by
  have halike : k.Alike (fun x x' => g x = x') (k.map g) := ⟨rfl, rfl, rfl⟩
  obtain ⟨hreplies, hend⟩ := hP.run halike calls
  have hsame : (k.run c calls).1 = ((k.map g).run c' calls).1 := by
    rw [← List.forall₂_eq_eq_eq]
    exact hreplies.imp fun _ _ h => h.eq
  exact Prod.ext hsame.symm hend.eq_map

end Image

end BusManagement
