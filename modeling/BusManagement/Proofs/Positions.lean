import BusManagement.Proofs.Simulated

/-! Finding properties by their position. Where a search starts depends on the whole history of queries, what
it finds does not: a bookmark always stands at a property whose position it tells, and what lies behind it in
the order of property ids is what lies behind it among the properties of its object. So going on from a
bookmark comes to the same property as starting over. -/

namespace BusManagement

open Exchange (Ready)
open Simulation (PropertyKey keyOf)

variable {σ : Type}

/-- Every request is confirmed, and a read of a first element alone tells whether there is the property, at
any time the same. -/
def Link.Presents (l : Link σ) (I : σ → Prop) (present : PropertyKey → Bool) : Prop :=
  ∀ s request awaited, I s → request.service.confirmation? = some awaited →
    l.Confirms s request fun f s' => I s' ∧ f.Confirms request ∧
      (request.service = .readRequest → request.start = 1 → request.elements = 1 →
        f.isRefusal = !present (keyOf request))

/-- The ids of the properties that an object has, in increasing order. -/
def ObjectAddress.pids (a : ObjectAddress) (present : PropertyKey → Bool) : List UInt8 :=
  ((List.range' 1 255).map UInt8.ofNat).filter fun pid => present (a.property pid)

/-! ### The order of property ids -/

theorem Client.pairwise_pidsAfter (p : UInt8) : (pidsAfter p).Pairwise (· < ·) := by
  have hp := p.toNat_lt
  rw [pidsAfter, List.pairwise_map]
  refine List.Pairwise.imp_of_mem (fun {i j} hi hj hij => ?_) List.pairwise_lt_range'
  rw [List.mem_range'_1] at hi hj
  rw [UInt8.lt_iff_toNat_lt, UInt8.toNat_ofNat', UInt8.toNat_ofNat']
  omega

/-- All ids lie behind 0, and every other id parts them in front of those that lie behind it. -/
theorem Client.pidsAfter_zero_eq {p : UInt8} (hp : p ≠ 0) :
    ∃ before, pidsAfter 0 = before ++ p :: pidsAfter p := by
  have hlt := p.toNat_lt
  have hpos : p.toNat ≠ 0 := fun h => hp (UInt8.toNat_inj.mp h)
  have hparts : List.range' 1 255 =
      List.range' 1 (p.toNat - 1) ++ p.toNat :: List.range' (p.toNat + 1) (255 - p.toNat) := by
    rw [← List.range'_succ, show 255 = (p.toNat - 1) + (255 - p.toNat + 1) by omega, ← List.range'_append_1]
    congr 2 <;> omega
  refine ⟨(List.range' 1 (p.toNat - 1)).map UInt8.ofNat, ?_⟩
  change (List.range' 1 255).map UInt8.ofNat = _
  rw [hparts, List.map_append, List.map_cons, UInt8.ofNat_toNat]
  rfl

/-- Behind an element of a filtered list comes what the filter leaves of the rest. -/
theorem drop_filter_of_getElem? {α : Type} {l before after : List α} {q : α → Bool} {p : α} {i : Nat}
    (hl : l = before ++ p :: after) (hn : l.Nodup) (hi : (l.filter q)[i]? = some p) :
    (l.filter q).drop (i + 1) = after.filter q := by
  have hq : q p = true := (List.mem_filter.mp (List.mem_of_getElem? hi)).2
  have hfilter : l.filter q = before.filter q ++ p :: after.filter q := by
    rw [hl, List.filter_append, List.filter_cons_of_pos hq]
  have hat : (l.filter q)[(before.filter q).length]? = some p := by
    rw [hfilter, List.getElem?_append_right (Nat.le_refl _)]
    simp
  have hlt : i < (l.filter q).length := (List.getElem?_eq_some_iff.mp hi).1
  have heq : i = (before.filter q).length := (List.getElem?_inj hlt (hn.filter q)).mp (hi.trans hat.symm)
  rw [heq, hfilter]
  simp

theorem ObjectAddress.drop_pids {a : ObjectAddress} {present : PropertyKey → Bool} {p : UInt8} {i : Nat}
    (hi : (a.pids present)[i]? = some p) :
    (a.pids present).drop (i + 1) = (Client.pidsAfter p).filter fun pid => present (a.property pid) := by
  have hmem : p ∈ Client.pidsAfter 0 := (List.mem_filter.mp (List.mem_of_getElem? hi)).1
  have hp : p ≠ 0 := by
    rintro rfl
    simp only [Client.pidsAfter, List.mem_map, List.mem_range'_1] at hmem
    obtain ⟨n, hn, h⟩ := hmem
    have := congrArg UInt8.toNat h
    rw [UInt8.toNat_ofNat'] at this
    simp at this hn
    omega
  obtain ⟨before, hbefore⟩ := Client.pidsAfter_zero_eq hp
  have hn : (Client.pidsAfter 0).Nodup :=
    (Client.pairwise_pidsAfter 0).imp fun {a b} hab heq => absurd (heq ▸ hab) (UInt8.lt_irrefl _)
  exact drop_filter_of_getElem? hbefore hn hi

/-! ### Bookmarks -/

/-- A bookmark at an object that is listed tells the position of a property of that object. -/
def Bookmark.Sound (present : PropertyKey → Bool) (objects : ObjectList) : Bookmark → Prop
  | .start => True
  | .found object index pid =>
    ∀ a, objects.address object = .ok a → (a.pids present)[index.toNat]? = some pid

/-- The search for an index may start from here: what it counts from here on is what it would count from the
beginning. -/
def Bookmark.Leads (present : PropertyKey → Bool) (a : ObjectAddress) (b : Bookmark) (index : UInt16) : Prop :=
  (b.pid :: (Client.pidsAfter b.pid).filter fun pid => present (a.property pid))[index.toNat + 1 - b.count]?
    = (a.pids present)[index.toNat]?

theorem Bookmark.leads_start (present : PropertyKey → Bool) (a : ObjectAddress) (index : UInt16) :
    start.Leads present a index := by
  change (0 :: a.pids present)[index.toNat + 1]? = (a.pids present)[index.toNat]?
  rw [List.getElem?_cons_succ]

theorem Bookmark.leads_found {present : PropertyKey → Bool} {a : ObjectAddress} {object i index : UInt16}
    {p : UInt8} (hi : (a.pids present)[i.toNat]? = some p) (hle : i ≤ index) :
    (found object i p).Leads present a index := by
  have hle : i.toNat ≤ index.toNat := UInt16.le_iff_toNat_le.mp hle
  obtain ⟨hlt, hget⟩ := List.getElem?_eq_some_iff.mp hi
  have hrest : p :: (Client.pidsAfter p).filter (fun pid => present (a.property pid)) =
      (a.pids present).drop i.toNat := by
    rw [← ObjectAddress.drop_pids hi, List.drop_eq_getElem_cons hlt, hget]
  change (p :: (Client.pidsAfter p).filter fun pid => present (a.property pid))[
    index.toNat + 1 - (i.toNat + 1)]? = _
  rw [hrest, List.getElem?_drop]
  congr 1
  omega

theorem Bookmark.Sound.forQuery {present : PropertyKey → Bool} {objects : ObjectList} {b : Bookmark}
    (h : b.Sound present objects) (object : UInt16) (pid : UInt8) (index : UInt16) :
    (b.forQuery object pid index).Sound present objects := by
  rw [Bookmark.forQuery]
  split_ifs
  · exact h
  · trivial

/-- Where a query by position starts from, it may start from. -/
theorem Bookmark.Sound.leads {present : PropertyKey → Bool} {objects : ObjectList} {b : Bookmark}
    (h : b.Sound present objects) {object : UInt16} {a : ObjectAddress}
    (ha : objects.address object = .ok a) (index : UInt16) :
    (b.forQuery object 0 index).Leads present a index := by
  rw [Bookmark.forQuery]
  split_ifs with hc
  · cases b with
    | start => exact leads_start present a index
    | found o i p =>
        simp only [continues, true_and, decide_eq_true_eq] at hc
        obtain ⟨rfl, hle⟩ := hc
        exact leads_found (h a ha) hle
  · exact leads_start present a index

/-! ### Reads and writes of such a device -/

namespace Client

variable {c : Connection σ} {I : σ → Prop} {present : PropertyKey → Bool}

theorem ready_request_of_presents (hl : c.link.Presents I present) (x : Exchange σ) (f : Frame)
    (awaited : Service) (hs : f.service.confirmation? = some awaited) (hx : Ready I x) :
    Ready I (x.request c f awaited).2 :=
  Exchange.ready_request hx (fun octets he => (hl _ _ _ hx.link hs octets he).mono fun _ _ h => h.1)
    (Service.isConfirmation_of_confirmation? hs)

/-- Every operation on the objects of such a device stays ready. -/
theorem covers_ready (hl : c.link.Presents I present) (d : ObjectList) (object : UInt16) :
    Covers c d object fun x y => Ready I x → Ready I y :=
  (Exchange.spans_ready I).covers (ready_request_of_presents hl) d object

variable {k : Client σ} {object : UInt16} {a : ObjectAddress}

/-- What comes of a request that fits into a frame is what its confirmation tells. -/
theorem access_eq (hl : c.link.Presents I present) (hk : Ready I k.exchange)
    (ha : k.objects.address object = .ok a) (requestTo : ObjectAddress → Frame) (awaited : Service)
    (hs : (requestTo a).service.confirmation? = some awaited) {octets : Octets}
    (he : (requestTo a).encode = .ok octets) :
    ∃ g : Frame, (k.access c object requestTo awaited).1 = Exchange.answerOf g ∧
      ((requestTo a).service = .readRequest → (requestTo a).start = 1 → (requestTo a).elements = 1 →
        g.isRefusal = !present (keyOf (requestTo a))) := by
  obtain ⟨g, y, hy, hready⟩ := Exchange.request_of_confirms hk he (hl _ _ _ hk.link hs octets he) awaited
    (Service.isConfirmation_of_confirmation? hs)
  obtain ⟨-, hconfirms, hrefusal⟩ := hready.link
  have hservice : g.service = awaited := Option.some.inj (hconfirms.service.symm.trans hs)
  refine ⟨g, ?_, hrefusal⟩
  rw [access_of_address c _ _ hk.isOpen ha, hy, if_pos hservice]

/-- A read of a first element tells whether there is the property. -/
theorem getFirst_eq (hl : c.link.Presents I present) (hk : Ready I k.exchange)
    (ha : k.objects.address object = .ok a) (pid : UInt8) :
    if present (a.property pid) then ∃ data, (k.getFirst c object pid).1 = .ok data
    else ∃ e, (k.getFirst c object pid).1 = .error e ∧ e.kind = .remote := by
  obtain ⟨g, hg, hrefusal⟩ := access_eq hl hk ha
    (fun o => .reading o.objectType o.objectInstance pid 1 1) .readConfirmation rfl rfl
  have hpresent := hrefusal rfl rfl rfl
  change (k.getFirst c object pid).1 = _ at hg
  change g.isRefusal = !present (a.property pid) at hpresent
  rw [Exchange.answerOf_eq, hpresent] at hg
  cases hp : present (a.property pid) with
  | true =>
      rw [hp] at hg
      exact ⟨_, hg⟩
  | false =>
      rw [hp] at hg
      exact ⟨_, hg, rfl⟩

/-- Writing a value back tells whether the property may be written. -/
theorem writeBack_eq (hl : c.link.Presents I present) (hk : Ready I k.exchange)
    (ha : k.objects.address object = .ok a) (pid : UInt8) (value : Octets) :
    ∃ b, (k.writeBack c object pid value).1 = .ok b := by
  obtain ⟨g, hg, -⟩ := access_eq hl hk ha
    (fun o => .writing o.objectType o.objectInstance pid 1 1 value) .writeConfirmation rfl rfl
  rw [Exchange.answerOf_eq] at hg
  rw [writeBack, set]
  rcases hr : k.access c object (fun o => .writing o.objectType o.objectInstance pid 1 1 value)
    .writeConfirmation with ⟨r, k'⟩
  rw [hr] at hg
  cases r with
  | ok data => exact ⟨true, rfl⟩
  | error e =>
      split_ifs at hg
      · obtain rfl := Except.error.inj hg
        exact ⟨false, rfl⟩

theorem keeps_getFirst (hl : c.link.Presents I present) (k : Client σ) (object : UInt16) (pid : UInt8) :
    Keeps (fun x y => Ready I x → Ready I y) k (k.getFirst c object pid).2 :=
  keeps_get (covers_ready hl k.objects object) pid 1 1

/-- A property that is there can be probed for writing. -/
theorem writable_eq (hl : c.link.Presents I present) (hk : Ready I k.exchange)
    (ha : k.objects.address object = .ok a) {pid : UInt8} (hp : present (a.property pid) = true)
    (value : Option Octets) : ∃ b, (k.writable c object pid value).1 = .ok b := by
  cases value with
  | some value => exact writeBack_eq hl hk ha pid value
  | none =>
      have hget := getFirst_eq hl hk ha pid
      have hkeep := keeps_getFirst hl k object pid
      rw [if_pos hp] at hget
      obtain ⟨data, hdata⟩ := hget
      rw [writable]
      rcases hr : k.getFirst c object pid with ⟨r, k'⟩
      rw [hr] at hdata hkeep
      obtain rfl : r = .ok data := hdata
      exact writeBack_eq hl (hkeep.exchange hk) (hkeep.objects ▸ ha) pid data

/-- A search has ended at a property, or behind the last one. -/
def Search.EndsAt : Search → Option UInt8 → Prop
  | .found pid _, p => p = some pid
  | .exhausted, p => p = none
  | .failed _, _ => False

/-- A search counts the properties that are there. -/
theorem search_endsAt (hl : c.link.Presents I present) (pids : List UInt8) (missing : Nat) (last : UInt8)
    (value : Option Octets) (hk : Ready I k.exchange) (ha : k.objects.address object = .ok a) :
    (search c object last value missing pids k).1.EndsAt
      (last :: pids.filter fun pid => present (a.property pid))[missing]? := by
  induction pids generalizing missing last value k with
  | nil =>
      cases missing with
      | zero => exact rfl
      | succ missing => exact rfl
  | cons pid rest ih =>
      cases missing with
      | zero => exact rfl
      | succ missing =>
          have hget := getFirst_eq hl hk ha pid
          have hkeep := keeps_getFirst hl k object pid
          rw [search, List.getElem?_cons_succ]
          rcases hr : k.getFirst c object pid with ⟨r, k'⟩
          rw [hr] at hget hkeep
          have hready := hkeep.exchange hk
          have haddress : k'.objects.address object = .ok a := hkeep.objects ▸ ha
          cases hp : present (a.property pid) with
          | true =>
              obtain ⟨data, rfl⟩ : ∃ data, r = .ok data := by rwa [if_pos hp] at hget
              rw [List.filter_cons, if_pos hp]
              exact ih missing pid (some data) hready haddress
          | false =>
              rw [hp] at hget
              obtain ⟨e, rfl, he⟩ := hget
              rw [List.filter_cons, if_neg (by simp [hp])]
              dsimp only
              rw [if_pos he]
              have hrest := ih (missing + 1) last value hready haddress
              rwa [List.getElem?_cons_succ] at hrest

/-- What a query by position has to find. -/
def Finds (object index : UInt16) (pid? : Option UInt8) (r : Except Fault Octets) : Prop :=
  match pid? with
  | some pid => ∃ octets, r = .ok octets ∧ octets[1]? = some pid
  | none => r = .error (.positionNotFound object index)

/-- From a bookmark that leads to an index, the property there is found, or it is found out that there is
none. -/
theorem locate_eq (hl : c.link.Presents I present) (hk : Ready I k.exchange)
    (ha : k.objects.address object = .ok a) {index : UInt16} (hb : k.bookmark.Leads present a index) :
    match (a.pids present)[index.toNat]? with
    | some pid => ∃ value, (k.locate c object index).1 = .ok (pid, value)
    | none => (k.locate c object index).1 = .error (.positionNotFound object index) := by
  have hends := search_endsAt hl (pidsAfter k.bookmark.pid) (index.toNat + 1 - k.bookmark.count)
    k.bookmark.pid none hk ha
  rw [hb] at hends
  rw [locate]
  rcases hs : search c object k.bookmark.pid none (index.toNat + 1 - k.bookmark.count)
    (pidsAfter k.bookmark.pid) k with ⟨r, k'⟩
  rw [hs] at hends
  cases r with
  | found pid value =>
      rw [show (a.pids present)[index.toNat]? = some pid from hends]
      exact ⟨value, rfl⟩
  | exhausted =>
      rw [show (a.pids present)[index.toNat]? = none from hends]
  | failed e => exact hends.elim

/-- A query by position leaves a sound bookmark. -/
theorem sound_locate (hl : c.link.Presents I present) (hk : Ready I k.exchange)
    (hs : k.bookmark.Sound present k.objects) {object index : UInt16}
    (hb : ∀ a, k.objects.address object = .ok a → k.bookmark.Leads present a index) :
    (k.locate c object index).2.bookmark.Sound present k.objects := by
  have hkeep := keeps_search (covers_ready hl k.objects object) (pidsAfter k.bookmark.pid)
    (index.toNat + 1 - k.bookmark.count) k.bookmark.pid none
  rw [locate]
  rcases hr : search c object k.bookmark.pid none (index.toNat + 1 - k.bookmark.count)
    (pidsAfter k.bookmark.pid) k with ⟨r, k'⟩
  rw [hr] at hkeep
  cases r with
  | found pid value =>
      intro a ha
      have hends := search_endsAt hl (pidsAfter k.bookmark.pid) (index.toNat + 1 - k.bookmark.count)
        k.bookmark.pid none hk ha
      rw [hr, hb a ha] at hends
      exact hends
  | exhausted => trivial
  | failed e =>
      rw [← hkeep.bookmark] at hs
      exact hs

/-! ### Runs -/

/-- Between calls, all that can matter for a query is that the client is ready and its bookmark sound. -/
structure Bookmarked (I : σ → Prop) (present : PropertyKey → Bool) (k : Client σ) : Prop where
  ready : Ready I k.exchange
  sound : k.bookmark.Sound present k.objects

theorem describe_finds (hl : c.link.Presents I present) (hk : Bookmarked I present k)
    (ha : k.objects.address object = .ok a) (index : UInt16) :
    Finds object index (a.pids present)[index.toNat]? (k.describe c object 0 index).1 := by
  have hlocate := locate_eq (k := { k with bookmark := k.bookmark.forQuery object 0 index }) hl hk.ready ha
    (hk.sound.leads ha index)
  have hlead := leads_locate (k := { k with bookmark := k.bookmark.forQuery object 0 index })
    (covers_ready hl k.objects object) index
  have hopen : k.isOpen = true := hk.ready.isOpen
  rw [describe, if_pos hopen, select, if_pos rfl]
  rcases hr : locate c { k with bookmark := k.bookmark.forQuery object 0 index } object index with ⟨r, k'⟩
  rw [hr] at hlocate hlead
  cases hp : (a.pids present)[index.toNat]? with
  | none =>
      rw [hp] at hlocate
      obtain rfl : r = .error (.positionNotFound object index) := hlocate
      exact rfl
  | some pid =>
      rw [hp] at hlocate
      obtain ⟨value, rfl⟩ : ∃ value, r = .ok (pid, value) := hlocate
      have hpresent : present (a.property pid) = true :=
        (List.mem_filter.mp (List.mem_of_getElem? hp)).2
      obtain ⟨enabled, henabled⟩ :=
        writable_eq hl (hlead.exchange hk.ready) (hlead.objects ▸ ha) hpresent value
      dsimp only at henabled ⊢
      split_ifs
      · rcases hw : k'.writable c object pid value with ⟨w, k''⟩
        rw [hw] at henabled
        obtain rfl : w = .ok enabled := henabled
        exact ⟨_, rfl, rfl⟩
      · exact ⟨_, rfl, rfl⟩

theorem sound_select (hl : c.link.Presents I present) (hk : Bookmarked I present k) (object : UInt16)
    (pid : UInt8) (index : UInt16) :
    (select c { k with bookmark := k.bookmark.forQuery object pid index } object pid index).2.bookmark.Sound
      present k.objects := by
  have hsound := hk.sound.forQuery object pid index
  rw [select]
  split_ifs with hpid
  · refine sound_locate (k := { k with bookmark := k.bookmark.forQuery object pid index }) hl hk.ready hsound
      fun a ha => ?_
    rw [hpid]
    exact hk.sound.leads ha index
  · have hkeep := keeps_getFirst hl { k with bookmark := k.bookmark.forQuery object pid index } object pid
    split <;> next h =>
      rw [h] at hkeep
      have hbookmark : _ = k.bookmark.forQuery object pid index := hkeep.bookmark
      rw [← hbookmark] at hsound
      exact hsound

theorem sound_describe (hl : c.link.Presents I present) (hk : Bookmarked I present k) (object : UInt16)
    (pid : UInt8) (index : UInt16) :
    (k.describe c object pid index).2.bookmark.Sound present k.objects := by
  have hsound := sound_select hl hk object pid index
  have hopen : k.isOpen = true := hk.ready.isOpen
  rw [describe, if_pos hopen]
  split
  · next h => rwa [h] at hsound
  · next pid value k' h =>
      rw [h] at hsound
      have hkeep := keeps_writable (covers_ready hl k'.objects object) pid value
      rw [← hkeep.bookmark] at hsound
      split_ifs
      · split <;> next hw => rwa [hw] at hsound
      · exact hkeep.bookmark ▸ hsound

end Client

/-- The call is an operation on properties, or it is the link that delivers something of no interest. -/
def Call.IsAccess : Call → Prop
  | .get _ _ _ _ | .set _ _ _ _ _ | .describe _ _ _ => True
  | .receive octets => octets.IsNoise
  | .reset | .close | .linkClosed _ => False

instance : (call : Call) → Decidable call.IsAccess
  | .get _ _ _ _ | .set _ _ _ _ _ | .describe _ _ _ => instDecidableTrue
  | .receive octets => inferInstanceAs (Decidable octets.IsNoise)
  | .reset | .close | .linkClosed _ => instDecidableFalse

namespace Client

variable {c : Connection σ} {I : σ → Prop} {present : PropertyKey → Bool} {k : Client σ}

theorem bookmarked_of_keeps {k' : Client σ} (h : Keeps (fun x y => Ready I x → Ready I y) k k')
    (hk : Bookmarked I present k) : Bookmarked I present k' := by
  refine ⟨h.exchange hk.ready, ?_⟩
  rw [h.bookmark, h.objects]
  exact hk.sound

theorem bookmarked_perform (hl : c.link.Presents I present) (hk : Bookmarked I present k) {call : Call}
    (hc : call.IsAccess) : Bookmarked I present (k.perform c call).2 := by
  have hcovers := covers_ready hl k.objects
  cases call with
  | get object pid first elements =>
      exact bookmarked_of_keeps (keeps_get (hcovers object) pid first elements) hk
  | set object pid first elements data =>
      exact bookmarked_of_keeps (keeps_set (hcovers object) pid first elements data) hk
  | describe object pid index =>
      have hlead := leads_describe (hcovers object) pid index
      have hsound := sound_describe hl hk object pid index
      rw [← hlead.objects] at hsound
      exact ⟨hlead.exchange hk.ready, hsound⟩
  | receive octets => exact ⟨Exchange.ready_receive hk.ready hc, hk.sound⟩
  | reset => exact hc.elim
  | close => exact hc.elim
  | linkClosed n => exact hc.elim

theorem bookmarked_run (hl : c.link.Presents I present) {calls : List Call} (hk : Bookmarked I present k)
    (hc : ∀ call ∈ calls, call.IsAccess) : Bookmarked I present (k.run c calls).2 := by
  induction calls generalizing k with
  | nil => exact hk
  | cons call rest ih =>
      obtain ⟨hcall, hrest⟩ := List.forall_mem_cons.mp hc
      exact ih (bookmarked_perform hl hk hcall) hrest

theorem bookmarked_of_start (hl : c.link.Presents I present) {link : σ} (hI : I link)
    (ho : start c link = .opened k) : Bookmarked I present k := by
  have hlists : c.link.Lists I := fun s first elements hs octets he =>
    (hl s _ .readConfirmation hs rfl octets he).mono fun _ _ h => h.1
  obtain ⟨hready, hbookmark⟩ := ready_of_start hlists hI ho
  refine ⟨hready, ?_⟩
  rw [hbookmark]
  trivial

/-- Whatever has been asked before, a query by position finds the property at that position of its object, or
that the object has too few of them, and so it does from the beginning. -/
theorem describe_finds_of_run (hl : c.link.Presents I present) {link : σ} (hI : I link)
    (ho : start c link = .opened k) {calls : List Call} (hc : ∀ call ∈ calls, call.IsAccess)
    {object : UInt16} {a : ObjectAddress} (ha : k.objects.address object = .ok a) (index : UInt16) :
    Finds object index (a.pids present)[index.toNat]? ((k.run c calls).2.describe c object 0 index).1 ∧
      Finds object index (a.pids present)[index.toNat]?
        (describe c { (k.run c calls).2 with bookmark := .start } object 0 index).1 ∧
      (Fault.positionNotFound object index).kind = .remote := by
  have hk := bookmarked_run hl (bookmarked_of_start hl hI ho) hc
  have hobjects := (leads_run c k calls).objects
  have hstart : Bookmarked I present { (k.run c calls).2 with bookmark := .start } := ⟨hk.ready, trivial⟩
  rw [← hobjects] at ha
  exact ⟨describe_finds hl hk ha index, describe_finds hl hstart ha index, rfl⟩

end Client

/-! ### The simulated device presents its properties -/

namespace Simulation

/-- Whether the device has a property, or an object list with something in it. -/
def Store.has (s : Store) (key : PropertyKey) : Bool :=
  if key = objectListKey then s.objectTypes.any fun types => !types.isEmpty else (s.get? key).isSome

theorem isRefusal_answered {request : Frame} (he : request.elements = 1) (service : Service) (data : Octets) :
    (request.answered service data).isRefusal = false := by
  simp [Frame.isRefusal, Frame.answered, he]

theorem Store.isRefusal_answerRead (s : Store) {request : Frame} (hs : request.start = 1)
    (he : request.elements = 1) : (s.answerRead request).isRefusal = !s.has (keyOf request) := by
  rw [answerRead, has]
  split_ifs
  · rw [answerObjectList, hs, he]
    cases s.objectTypes with
    | none => simp
    | some types =>
        cases types with
        | nil => simp
        | cons t rest => simp [isRefusal_answered he]
  · cases s.get? (keyOf request) with
    | none => simp
    | some p => simp [isRefusal_answered he]

theorem Store.has_answerWrite (s : Store) (request : Frame) : (s.answerWrite request).2.has = s.has := by
  unfold answerWrite
  cases h : s.get? (keyOf request) with
  | none => rfl
  | some p =>
      dsimp only
      split_ifs
      · funext key
        change (if key = objectListKey then _ else _) = if key = objectListKey then _ else _
        rw [get?_insert]
        by_cases hk : key = keyOf request
        · simp [hk, h, insert]
        · simp [hk, insert]
      · rfl

theorem Scripted.presents (name : String) (s : Store) :
    (link name).Presents (fun d => d.Idle ∧ d.store.has = s.has) s.has := by
  intro d request service hd hs octets he
  refine (confirms_of_idle name hd.1 hs octets he).mono fun f d' h => ?_
  obtain ⟨hidle, hconfirms, hanswer⟩ := h
  cases hr : request.service <;> rw [hr] at hs <;> simp only [Service.confirmation?, reduceCtorEq] at hs
  · simp only [Store.answer, hr, Prod.mk.injEq, Option.some.injEq] at hanswer
    obtain ⟨rfl, hstore⟩ := hanswer
    refine ⟨⟨hidle, hstore ▸ hd.2⟩, hconfirms, fun _ hstart helements => ?_⟩
    rw [d.store.isRefusal_answerRead hstart helements, hd.2]
  · simp only [Store.answer, hr, Prod.mk.injEq, Option.some.injEq] at hanswer
    refine ⟨⟨hidle, ?_⟩, hconfirms, fun h => Service.noConfusion h⟩
    rw [← hanswer.2, Store.has_answerWrite, hd.2]

/-- Queries of both objects, between a read, a write and an indication. -/
def queries : List Call :=
  [.describe 1 0 1, .get 1 PropertyId.commMode 1 1, .describe 0 0 0, .set 1 PropertyId.mediumType 1 1 [9],
    .describe 1 0 0, .receive [0xf7, 0, 8, 1, 51, 0x10, 1], .describe 1 PropertyId.commMode 7]

end Simulation

open Simulation (Scripted queries)

theorem Client.describe_finds_of_queries :
    ∃ k, start (Scripted.connection ⟨true, false⟩) .modeAndMedium = .opened k ∧
      Finds 1 1 (some PropertyId.commMode)
        ((k.run (Scripted.connection ⟨true, false⟩) queries).2.describe (Scripted.connection ⟨true, false⟩) 1 0 1).1 := by
  obtain ⟨k, hk, hobjects⟩ : ∃ k, start (Scripted.connection ⟨true, false⟩) .modeAndMedium = .opened k ∧
      k.objects = ⟨[ObjectType.device, ObjectType.cemiServer]⟩ := ⟨_, rfl, rfl⟩
  have ha : k.objects.address 1 = .ok ⟨ObjectType.cemiServer, 1⟩ := by rw [hobjects]; rfl
  have hfinds := describe_finds_of_run (Scripted.presents "a" Scripted.modeAndMedium.store)
    ⟨Scripted.idle_ofStore _, rfl⟩ hk (by decide : ∀ call ∈ queries, call.IsAccess) ha 1
  exact ⟨k, hk, hfinds.1⟩

end BusManagement
