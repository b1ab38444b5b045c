import BusManagement.Proofs.Passage
import BusManagement.Proofs.Simulated

/-! Which confirmation a read takes. A search looks at the kind of a confirmation only, and a request whose
sending fails leaves the arrivals as they are; so if its confirmation comes nevertheless, it waits there, and
the next read takes it for its own. Over a link that confirms every request at most once, and before it
reports success, this is the only thing that can go wrong: a read takes its own confirmation exactly if no
other confirmation of a read waits in front of it. -/

namespace BusManagement

open Simulation (Scripted)

variable {σ : Type}

namespace Client

variable {c : Connection σ} {k : Client σ} {calls : List Call}

/-- The request that a call is about to send. -/
def requestOf (k : Client σ) : Call → Option Frame
  | .get object pid first elements =>
    (k.objects.address object).toOption.map fun o =>
      .reading o.objectType o.objectInstance pid first elements
  | .set object pid first elements data =>
    (k.objects.address object).toOption.map fun o =>
      .writing o.objectType o.objectInstance pid first elements data
  | _ => none

/-- Sends a request, and does not search for its confirmation yet. -/
def transmit (c : Connection σ) (k : Client σ) (request : Frame) : Exchange.Outcome Unit σ :=
  (k.exchange.note (.sending request)).send c request true

/-- All frames that have been received at the end of a run. -/
def heard (c : Connection σ) (k : Client σ) (calls : List Call) : List Frame :=
  (k.run c calls).2.exchange.chronicle.received

/-- Over a run of calls the link waits for confirmations: each confirmation that arrives in the run belongs
to one call, its owner, and to each call belongs at most one. If the sending of a request succeeds, its
confirmation has arrived before; if it fails, the confirmation may have come, too, or it may come later as
long as the client is open. Confirmations are known by their places among all frames received. -/
structure Honours (c : Connection σ) (k : Client σ) (calls : List Call) (owner : Nat → Option Nat) : Prop where
  owned : ∀ m f, (k.heard c calls)[m]? = some f → k.exchange.arrived ≤ m →
    f.service.isConfirmation = true → ∃ i, owner m = some i
  fits : ∀ m i, owner m = some i → ∃ f call request, (k.heard c calls)[m]? = some f ∧
    calls[i]? = some call ∧ k.requestOf call = some request ∧ f.Confirms request
  once : ∀ m m' i, owner m = some i → owner m' = some i → m = m'
  after : ∀ m i, owner m = some i → (k.before c calls i).exchange.arrived ≤ m
  prompt : ∀ i call request y, calls[i]? = some call → k.requestOf call = some request →
    (k.before c calls i).isOpen = true → (k.before c calls i).transmit c request = (.ok (), y) →
    ∃ m, owner m = some i ∧ m < y.arrived
  timely : ∀ m i, owner m = some i → (k.before c calls (i + 1)).exchange.arrived ≤ m →
    m < (k.run c calls).2.exchange.chronicle.whileOpen.received.length

/-! ### A single read -/

/-- A request is about an object that has an address. -/
theorem exists_address_of_request {object : UInt16} {requestTo : ObjectAddress → Frame} {request : Frame}
    (h : (k.objects.address object).toOption.map requestTo = some request) :
    ∃ a, k.objects.address object = .ok a ∧ requestTo a = request := by
  cases ha : k.objects.address object with
  | error e =>
      rw [ha] at h
      cases h
  | ok a =>
      rw [ha] at h
      exact ⟨a, rfl, Option.some.inj h⟩

theorem requestOf_eq_of_read {request : Frame} {call : Call} (h : k.requestOf call = some request)
    (hr : request.service = .readRequest) : ∃ object pid first elements a,
      call = .get object pid first elements ∧ k.objects.address object = .ok a ∧
        request = .reading a.objectType a.objectInstance pid first elements := by
  cases call with
  | get object pid first elements =>
      obtain ⟨a, ha, rfl⟩ := exists_address_of_request h
      exact ⟨object, pid, first, elements, a, rfl, ha, rfl⟩
  | set object pid first elements data =>
      obtain ⟨a, -, rfl⟩ := exists_address_of_request h
      cases hr
  | describe object pid index => cases h
  | reset => cases h
  | close => cases h
  | receive octets => cases h
  | linkClosed n => cases h

theorem get_of_perform {object : UInt16} {pid : UInt8} {first : UInt16} {elements : UInt8} {data : Octets}
    (h : (k.perform c (.get object pid first elements)).1 = .ok (.data data)) :
    (k.get c object pid first elements).1 = .ok data := by
  rw [perform] at h
  rcases hg : k.get c object pid first elements with ⟨r, k'⟩
  rw [hg] at h
  cases r with
  | error e => cases h
  | ok data' =>
      cases h
      rfl

/-- A read that gives data has sent its request, and its search has found the data behind other frames. -/
theorem get_eq_ok {object : UInt16} {pid : UInt8} {first : UInt16} {elements : UInt8} {data : Octets}
    (h : (k.get c object pid first elements).1 = .ok data) :
    k.isOpen = true ∧ ∃ request y passed f left,
      k.requestOf (.get object pid first elements) = some request ∧ request.service = .readRequest ∧
        k.transmit c request = (.ok (), y) ∧ y.arrivals.frames = passed ++ f :: left ∧
        (∀ g ∈ passed, Exchange.Passes .readConfirmation g) ∧ f.service = .readConfirmation ∧ f.data = data ∧
        (k.get c object pid first elements).2.exchange = y.searched passed left := by
  rw [get, access] at h ⊢
  split_ifs at h ⊢ with hopen
  · refine ⟨hopen, ?_⟩
    cases ha : k.objects.address object with
    | error e =>
        rw [ha] at h
        cases h
    | ok a =>
        rw [ha] at h
        have hx : k.exchange.isOpen = true := hopen
        simp only [Exchange.request, if_pos hx] at h ⊢
        rcases ht : k.transmit c (.reading a.objectType a.objectInstance pid first elements) with ⟨r, y⟩
        have hsend := ht
        rw [transmit] at hsend
        rw [hsend] at h ⊢
        cases r with
        | error e => cases h
        | ok u =>
            obtain ⟨passed, f, left, hf, hp, hs, hd, hy⟩ := Exchange.scan_eq_ok c (by decide)
              (Prod.ext h rfl : y.scan c .readConfirmation = (.ok data, _))
            refine ⟨_, y, passed, f, left, ?_, rfl, ht, hf, hp, hs, hd, hy⟩
            simp [requestOf, ha, Except.toOption]

theorem get_of_transmit {object : UInt16} {pid : UInt8} {first : UInt16} {elements : UInt8} {request : Frame}
    {y : Exchange σ} (ho : k.isOpen = true) (hr : k.requestOf (.get object pid first elements) = some request)
    (ht : k.transmit c request = (.ok (), y)) :
    (k.get c object pid first elements).2.exchange = (y.scan c .readConfirmation).2 := by
  obtain ⟨a, ha, hreading⟩ := exists_address_of_request hr
  have hx : k.exchange.isOpen = true := ho
  rw [transmit] at ht
  rw [get, access_of_address c _ _ ho ha, hreading, Exchange.request, if_pos hx, ht]

/-- Once a request is handed over, only the link and the closing of the client act until the sending is over. -/
theorem inFlight_of_transmission (k : Client σ) {request : Frame} {t : Transmission}
    (ht : c.attachment.transmission request true = .ok t) :
    Exchange.InFlight c ((k.exchange.note (.sending request)).note (.handed t)) (k.transmit c request).2 := by
  rw [transmit, Exchange.send_of_transmission c ht]
  exact Exchange.inFlight_follow c (Exchange.inFlight_close c) _ _

theorem inFlight_transmit {request : Frame} {y : Exchange σ} (h : k.transmit c request = (.ok (), y)) :
    ∃ t, Exchange.InFlight c ((k.exchange.note (.sending request)).note (.handed t)) y := by
  cases ht : c.attachment.transmission request true with
  | error e =>
      rw [transmit, Exchange.send_of_error c ht] at h
      cases h
  | ok t =>
      have hflight := inFlight_of_transmission k ht
      rw [h] at hflight
      exact ⟨t, hflight⟩

theorem course_transmit (hopen : k.isOpen = true) {request : Frame} {y : Exchange σ}
    (h : k.transmit c request = (.ok (), y)) : Exchange.Course c k.exchange y := by
  have hsend := (Exchange.spans_course c).remark k.exchange (.sending request) rfl
  have hrest := Exchange.course_send c (x := k.exchange.note (.sending request)) hopen request true
  rw [transmit] at h
  rw [h] at hrest
  exact hsend.trans hrest

theorem taken_transmit {request : Frame} {y : Exchange σ} (h : k.transmit c request = (.ok (), y))
    (ho : y.isOpen = true) : y.taken = k.exchange.taken := by
  obtain ⟨t, hflight⟩ := inFlight_transmit h
  rw [hflight.taken_eq ho]
  simp [Exchange.taken, Exchange.arrived, Chronicle.received]

/-! ### Reads in a run -/

open Exchange (Tracked Later)

theorem requestOf_before (c : Connection σ) (k : Client σ) (calls : List Call) (i : Nat) (call : Call) :
    (k.before c calls i).requestOf call = k.requestOf call := by
  have hobjects : (k.before c calls i).objects = k.objects := (leads_before c k calls (Nat.zero_le i)).objects
  cases call <;> simp [requestOf, hobjects]

theorem heard_eq {y : Exchange σ} (h : Later y (k.run c calls).2.exchange) {m : Nat} (hm : m < y.arrived) :
    (k.heard c calls)[m]? = y.chronicle.received[m]? := h.getElem? hm

section Run

variable (hk : Tracked k.exchange)

include hk

theorem tracked_before (calls : List Call) (i : Nat) : Tracked (k.before c calls i).exchange :=
  (hk.course (leads_before c k calls (Nat.zero_le i)).exchange).1

theorem later_before (calls : List Call) {i j : Nat} (hij : i ≤ j) :
    Later (k.before c calls i).exchange (k.before c calls j).exchange :=
  ((tracked_before hk calls i).course (leads_before c k calls hij).exchange).2

theorem later_run (calls : List Call) (i : Nat) :
    Later (k.before c calls i).exchange (k.run c calls).2.exchange :=
  ((tracked_before hk calls i).course (leads_run_before c k calls i).exchange).2

variable {owner : Nat → Option Nat} (hh : Honours c k calls owner)

include hh

/-- Whatever else has arrived of confirmations by the end of a call belongs to earlier ones. -/
theorem Honours.earlier {i n t : Nat} (hn : owner n = some i) {f : Frame}
    (hf : (k.heard c calls)[t]? = some f) (hs : f.service.isConfirmation = true) (hne : t ≠ n)
    (hstart : k.exchange.arrived ≤ t) (hend : t < (k.before c calls (i + 1)).exchange.arrived) :
    ∃ j, j < i ∧ owner t = some j := by
  obtain ⟨j, hj⟩ := hh.owned t f hf hstart hs
  rcases Nat.lt_trichotomy j i with hlt | rfl | hlt
  · exact ⟨j, hlt, hj⟩
  · exact absurd (hh.once t n j hj hn) hne
  · have hafter := hh.after t j hj
    have hmono := (later_before (c := c) hk calls (show i + 1 ≤ j from hlt)).arrived
    omega

/-- If the client closes while a request is in flight, only the own confirmation can be found. -/
theorem Honours.eq_of_closed {i n t : Nat} {y : Exchange σ} {f : Frame} (hn : owner n = some i)
    (ho : (k.before c calls i).isOpen = true) (hxy : Later (k.before c calls i).exchange y) (hy : Tracked y)
    (hyz : Later y (k.before c calls (i + 1)).exchange) (hclosed : y.isOpen = false) (ht : y.taken ≤ t)
    (hf : y.chronicle.received[t]? = some f) (hs : f.service.isConfirmation = true) : t = n := by
  have hx := tracked_before (c := c) hk calls i
  have hxw := hxy.arrived_le_whileOpen hx ho
  have hyw := hy.passed hclosed
  have hlt : t < y.arrived := (List.getElem?_eq_some_iff.mp hf).1
  have hend : Later y (k.run c calls).2.exchange := hyz.trans (later_run hk calls (i + 1))
  have hstart : k.exchange.arrived ≤ (k.before c calls i).exchange.arrived :=
    (later_before (c := c) hk calls (Nat.zero_le i)).arrived
  -- What an earlier call left behind has come before the closing, and by then has been taken or dropped.
  by_cases hne : t = n
  · exact hne
  · obtain ⟨j, hji, hj⟩ := Honours.earlier hk hh hn ((heard_eq hend hlt).trans hf) hs hne
      (by omega) (Nat.lt_of_lt_of_le hlt hyz.arrived)
    have hmono := (later_before (c := c) hk calls (show j + 1 ≤ i from hji)).arrived
    have htimely := hh.timely t j hj (by omega)
    rw [hend.whileOpen_eq hy hclosed] at htimely
    omega

omit hk in
/-- The own confirmation of a read whose sending has succeeded. -/
theorem Honours.own {i : Nat} {call : Call} {request : Frame} {y : Exchange σ} (hc : calls[i]? = some call)
    (hr : k.requestOf call = some request) (hs : request.service = .readRequest)
    (ho : (k.before c calls i).isOpen = true) (ht : (k.before c calls i).transmit c request = (.ok (), y)) :
    ∃ n g, owner n = some i ∧ (k.before c calls i).exchange.arrived ≤ n ∧ n < y.arrived ∧
      (k.heard c calls)[n]? = some g ∧ g.service = .readConfirmation := by
  obtain ⟨n, hn, hlt⟩ := hh.prompt i call request y hc hr ho ht
  obtain ⟨g, call', request', hg, hc', hr', hconfirms⟩ := hh.fits n i hn
  obtain rfl : call = call' := Option.some.inj (hc.symm.trans hc')
  obtain rfl : request = request' := Option.some.inj (hr.symm.trans hr')
  have hservice := hconfirms.service
  rw [hs] at hservice
  exact ⟨n, g, hn, hh.after n i hn, hlt, hg, (Option.some.inj hservice).symm⟩

end Run

/-- The data of a read are those of the frame that was received at a place. -/
structure Took (c : Connection σ) (k : Client σ) (calls : List Call) (i t : Nat) (data : Octets) : Prop where
  taken : (k.before c calls (i + 1)).exchange.taken = t + 1
  frame : ∃ f, (k.heard c calls)[t]? = some f ∧ f.service = .readConfirmation ∧ f.data = data

/-- No confirmation of a read waits in front of a place when a call begins, or comes to wait there. -/
def Clear (c : Connection σ) (k : Client σ) (calls : List Call) (i n : Nat) : Prop :=
  ∀ m f, (k.before c calls i).exchange.taken ≤ m → m < n → (k.heard c calls)[m]? = some f →
    f.service ≠ .readConfirmation

theorem clear_iff {i n : Nat} {y : Exchange σ} (hend : Later y (k.run c calls).2.exchange)
    (hn : n < y.arrived) (ht : y.taken = (k.before c calls i).exchange.taken) :
    Clear c k calls i n ↔ ∀ m f, y.taken ≤ m → m < n → y.chronicle.received[m]? = some f →
      f.service ≠ .readConfirmation := by
  rw [Clear, ht]
  refine forall_congr' fun m => forall_congr' fun f => forall_congr' fun _ => forall_congr' fun hm => ?_
  rw [heard_eq hend (Nat.lt_trans hm hn)]

/-- Which confirmation a read takes. -/
theorem took_of_get (hk : Tracked k.exchange) {owner : Nat → Option Nat} (hh : Honours c k calls owner) {i : Nat}
    {object : UInt16} {pid : UInt8} {first : UInt16} {elements : UInt8} {data : Octets}
    (hc : calls[i]? = some (.get object pid first elements))
    (hr : (k.run c calls).1[i]? = some (.ok (.data data))) :
    ∃ t n, Took c k calls i t data ∧ owner n = some i ∧ n < (k.before c calls (i + 1)).exchange.arrived ∧
      (t = n ↔ ((k.before c calls (i + 1)).isOpen = true → Clear c k calls i n)) ∧
      (t ≠ n → t < k.exchange.arrived ∨ ∃ j, j < i ∧ owner t = some j) := by
  rw [getElem?_run hc, Option.some.injEq] at hr
  obtain ⟨ho, request, y, passed, f, left, hreq, hs, ht, hf, hp, hservice, hdata, hz⟩ :=
    get_eq_ok (get_of_perform hr)
  rw [requestOf_before] at hreq
  have hz' : (k.before c calls (i + 1)).exchange = y.searched passed left := by
    rw [before_succ hc]
    exact hz
  obtain ⟨hy, hxy⟩ := (tracked_before hk calls i).course (course_transmit ho ht)
  have hleft : left <:+ y.arrivals.frames := ⟨passed ++ [f], by simp [hf]⟩
  have hyz : Later y (k.before c calls (i + 1)).exchange := hz' ▸ (hy.searched passed hleft).2
  have hend : Later y (k.run c calls).2.exchange := hyz.trans (later_run hk calls (i + 1))
  have hft := hy.getElem?_found hf
  have hlt : y.taken + passed.length < y.arrived := (List.getElem?_eq_some_iff.mp hft).1
  have hconfirmation : f.service.isConfirmation = true := by rw [hservice]; rfl
  obtain ⟨n, g, hn, hxn, hny, hg, hgs⟩ := Honours.own hh hc hreq hs ho ht
  refine ⟨y.taken + passed.length, n, ⟨?_, f, (heard_eq hend hlt).trans hft, hservice, hdata⟩, hn,
    Nat.lt_of_lt_of_le hny hyz.arrived, ?_, fun hne => ?_⟩
  · rw [hz']
    exact hy.taken_searched hf
  -- A client that has closed while the request was in flight has dropped all that was waiting.
  · cases hyo : y.isOpen with
    | false =>
        have heq := Honours.eq_of_closed hk hh hn ho hxy hy hyz hyo (Nat.le_add_right _ _) hft hconfirmation
        refine ⟨fun _ hopen => ?_, fun _ => heq⟩
        have hyopen := hyz.opened hopen
        rw [hyo] at hyopen
        cases hyopen
    | true =>
        have htaken := taken_transmit ht hyo
        have hyn : y.taken ≤ n := by
          rw [htaken]
          exact Nat.le_trans (Nat.sub_le _ _) hxn
        rw [heard_eq hend hny] at hg
        have hzo : (k.before c calls (i + 1)).isOpen = true := by
          rw [Client.isOpen, hz']
          exact hyo
        rw [hy.found_eq_iff hf hp hservice hyn hg hgs, clear_iff hend hny htaken]
        exact ⟨fun h _ => h, fun h => h hzo⟩
  · rcases Nat.lt_or_ge (y.taken + passed.length) k.exchange.arrived with hstart | hstart
    · exact .inl hstart
    · refine .inr (Honours.earlier hk hh hn ((heard_eq hend hlt).trans hft) hconfirmation hne hstart ?_)
      exact Nat.lt_of_lt_of_le hlt hyz.arrived

/-! ### Links whose failures leave nothing behind -/

section Sent

variable (hk : Tracked k.exchange) {owner : Nat → Option Nat} (hh : Honours c k calls owner)
  (hstart : ∀ f ∈ k.exchange.arrivals.frames, f.service ≠ .readConfirmation)

/-- The confirmation of a read that belongs to a call is taken by the end of that call. -/
def Settled (c : Connection σ) (k : Client σ) (calls : List Call) (owner : Nat → Option Nat) (i : Nat) : Prop :=
  ∀ n f, owner n = some i → (k.heard c calls)[n]? = some f → f.service = .readConfirmation →
    (k.before c calls (i + 1)).isOpen = true → n < (k.before c calls (i + 1)).exchange.taken

include hk hh hstart

theorem clear_of_settled {i n : Nat} (hs : ∀ j, j < i → Settled c k calls owner j)
    (ho : (k.before c calls i).isOpen = true) (hn : owner n = some i)
    (hlt : n < (k.before c calls (i + 1)).exchange.arrived) : Clear c k calls i n := by
  intro m f hm hmn hf hservice
  rcases Nat.lt_or_ge m k.exchange.arrived with hearly | hlate
  · have hmono := (later_before (c := c) hk calls (Nat.zero_le i)).taken
    rw [heard_eq (later_run (c := c) hk calls 0) hearly] at hf
    exact hstart f (hk.mem_arrivals (Nat.le_trans hmono hm) hf) hservice
  · obtain ⟨j, hji, hj⟩ := Honours.earlier hk hh hn hf (by rw [hservice]; rfl) (Nat.ne_of_lt hmn) hlate
      (Nat.lt_trans hmn hlt)
    have hlater := later_before (c := c) hk calls (show j + 1 ≤ i from hji)
    have htaken := hs j hji m f hj hf hservice (hlater.opened ho)
    have hmono := hlater.taken
    omega

variable (hsent : ∀ m i, owner m = some i → ∃ call request y, calls[i]? = some call ∧
  k.requestOf call = some request ∧ (k.before c calls i).transmit c request = (.ok (), y))

include hsent

theorem settled (i : Nat) : Settled c k calls owner i := by
  -- If all earlier reads are settled, nothing is in front of the own confirmation, and the search takes it.
  induction i using Nat.strongRecOn with
  | ind i ih =>
      intro n f hn hf hservice hzo
      obtain ⟨call, request, y, hc, hreq, ht⟩ := hsent n i hn
      obtain ⟨f', call', request', hf', hc', hreq', hconfirms⟩ := hh.fits n i hn
      obtain rfl : call = call' := Option.some.inj (hc.symm.trans hc')
      obtain rfl : request = request' := Option.some.inj (hreq.symm.trans hreq')
      obtain rfl : f = f' := Option.some.inj (hf.symm.trans hf')
      have hread : request.service = .readRequest :=
        Service.eq_readRequest_of_confirmation? (hservice ▸ hconfirms.service)
      obtain ⟨object, pid, first, elements, a, rfl, -, -⟩ := requestOf_eq_of_read hreq hread
      have ho := (later_before (c := c) hk calls (Nat.le_succ i)).opened hzo
      obtain ⟨hy, hxy⟩ := (tracked_before hk calls i).course (course_transmit ho ht)
      have hz : (k.before c calls (i + 1)).exchange = (y.scan c .readConfirmation).2 := by
        rw [before_succ hc]
        exact get_of_transmit ho ((requestOf_before c k calls i _).trans hreq) ht
      have hyz : Later y (k.before c calls (i + 1)).exchange :=
        hz ▸ (hy.course (Exchange.course_scan c y (by decide))).2
      have hend : Later y (k.run c calls).2.exchange := hyz.trans (later_run hk calls (i + 1))
      obtain ⟨m, hm, hlt⟩ := hh.prompt i _ request y hc hreq ho ht
      obtain rfl : m = n := hh.once m n i hm hn
      have htaken := taken_transmit ht (hyz.opened hzo)
      have hyn : y.taken ≤ m := by
        rw [htaken]
        exact Nat.le_trans (Nat.sub_le _ _) (hh.after m i hm)
      have hclear := clear_of_settled hk hh hstart ih ho hn (Nat.lt_of_lt_of_le hlt hyz.arrived)
      rw [clear_iff hend hlt htaken] at hclear
      rw [heard_eq hend hlt] at hf
      -- The search stops at the own confirmation, unless a reset indication closes the client before.
      rcases Exchange.divide .readConfirmation y.arrivals.frames with
        hall | ⟨passed, g, left, hframes, hp, hreset | ha⟩
      · exact absurd hservice (hall f (hy.mem_arrivals hyn hf)).2
      · rw [Client.isOpen, hz, Exchange.scan_reset c hframes hp hreset, Exchange.isOpen_resetSeen] at hzo
        cases hzo
      · rw [hz, Exchange.scan_found c hframes hp ha (by decide), hy.taken_searched hframes]
        have heq := (hy.found_eq_iff hframes hp ha hyn hf hservice).mpr hclear
        omega

end Sent

/-- Over a link that honours the wait for confirmations, a read that gives data has taken its own confirmation
exactly if no other confirmation of a read was in front of that one, given that the client is still open. If it
has taken another one, that is the confirmation of an earlier call, or it had been waiting when the run began.
So all reads take their own confirmations if none was waiting and none came of a failed sending. -/
theorem get_correlates (c : Connection σ) {link : σ} {k₀ : Client σ} (ho : start c link = .opened k₀)
    {earlier : List Call} (hk : (k₀.run c earlier).2 = k) {owner : Nat → Option Nat}
    (hh : Honours c k calls owner) :
    (∀ i object pid first elements data, calls[i]? = some (.get object pid first elements) →
      (k.run c calls).1[i]? = some (.ok (.data data)) →
      ∃ t n, Took c k calls i t data ∧ owner n = some i ∧
        (t = n ↔ ((k.before c calls (i + 1)).isOpen = true → Clear c k calls i n)) ∧
        (t ≠ n → t < k.exchange.arrived ∨ ∃ j, j < i ∧ owner t = some j)) ∧
    ((∀ f ∈ k.exchange.arrivals.frames, f.service ≠ .readConfirmation) →
      (∀ m i, owner m = some i → ∃ call request y, calls[i]? = some call ∧
        k.requestOf call = some request ∧ (k.before c calls i).transmit c request = (.ok (), y)) →
      ∀ i object pid first elements data, calls[i]? = some (.get object pid first elements) →
        (k.run c calls).1[i]? = some (.ok (.data data)) →
        ∃ n, Took c k calls i n data ∧ owner n = some i) := by
  have hstart := course_start c link
  rw [ho] at hstart
  have htracked : Tracked k.exchange := by
    rw [← hk]
    exact ((Exchange.tracked_start link).course (hstart.trans (leads_run c k₀ earlier).exchange)).1
  refine ⟨fun i object pid first elements data hc hr => ?_,
    fun hwaiting hsent i object pid first elements data hc hr => ?_⟩
  · obtain ⟨t, n, htook, hn, -, hiff, hearlier⟩ := took_of_get htracked hh hc hr
    exact ⟨t, n, htook, hn, hiff, hearlier⟩
  · obtain ⟨t, n, htook, hn, hlt, hiff, -⟩ := took_of_get htracked hh hc hr
    have heq : t = n := by
      refine hiff.mpr fun hzo => ?_
      have hopen := (later_before (c := c) htracked calls (Nat.le_succ i)).opened hzo
      exact clear_of_settled htracked hh hwaiting (fun j _ => settled htracked hh hwaiting hsent j) hopen hn hlt
    exact ⟨n, heq ▸ htook, hn⟩

/-- The wait is honoured if each call in turn receives one frame, which is its confirmation, before its sending
can succeed. -/
theorem honours_inTurn {front confirmations : List Frame} {owner : Nat → Option Nat}
    (hheard : k.heard c calls = front ++ confirmations)
    (howner : ∀ m i, owner m = some i ↔ m = front.length + i ∧ i < confirmations.length)
    (harrived : ∀ i, i ≤ confirmations.length → (k.before c calls i).exchange.arrived = front.length + i)
    (hconfirms : ∀ (i : Nat) (f : Frame), confirmations[i]? = some f →
      ∃ call request, calls[i]? = some call ∧ k.requestOf call = some request ∧ f.Confirms request)
    (hsent : ∀ (i : Nat) call request y, calls[i]? = some call → k.requestOf call = some request →
      (k.before c calls i).transmit c request = (.ok (), y) →
      i < confirmations.length ∧ y.arrived = front.length + i + 1) :
    Honours c k calls owner := by
  have hlength : (k.heard c calls).length = front.length + confirmations.length := by
    rw [hheard, List.length_append]
  refine ⟨fun m f hf hm _ => ?_, fun m i hi => ?_, fun m m' i hi hi' => ?_, fun m i hi => ?_,
    fun i call request y hc hr _ ht => ?_, fun m i hi hm => ?_⟩
  · have hlt := (List.getElem?_eq_some_iff.mp hf).1
    have hstart : k.exchange.arrived = front.length := harrived 0 (Nat.zero_le _)
    exact ⟨m - front.length, (howner _ _).mpr (by omega)⟩
  · obtain ⟨rfl, hlt⟩ := (howner m i).mp hi
    obtain ⟨call, request, hc, hr, hf⟩ := hconfirms i _ (List.getElem?_eq_getElem hlt)
    refine ⟨_, call, request, ?_, hc, hr, hf⟩
    rw [hheard, List.getElem?_append_right (Nat.le_add_right _ _), Nat.add_sub_cancel_left]
    exact List.getElem?_eq_getElem hlt
  · exact ((howner m i).mp hi).1.trans ((howner m' i).mp hi').1.symm
  · obtain ⟨rfl, hlt⟩ := (howner m i).mp hi
    exact Nat.le_of_eq (harrived i (Nat.le_of_lt hlt))
  · obtain ⟨hlt, hy⟩ := hsent i call request y hc hr ht
    exact ⟨front.length + i, (howner _ _).mpr ⟨rfl, hlt⟩, by omega⟩
  · obtain ⟨rfl, hlt⟩ := (howner m i).mp hi
    have hnext := harrived (i + 1) hlt
    omega

end Client

/-! ### Reads before and after a write -/

namespace Simulation

/-- A mode is read, written and read again. -/
def rewriting : List Call :=
  [.get 1 PropertyId.commMode 1 1, .set 1 PropertyId.commMode 1 1 [1], .get 1 PropertyId.commMode 1 1]

/-- The confirmations of these calls: the first two frames of all belong to the opening. -/
def rewritingOwners : Nat → Option Nat
  | 2 => some 0
  | 3 => some 1
  | 4 => some 2
  | _ => none

end Simulation

open Simulation (rewriting rewritingOwners)

namespace Client

theorem rewritingOwners_eq_some (m i : Nat) : rewritingOwners m = some i ↔ m = 2 + i ∧ i < 3 := by
  match m with
  | 0 | 1 | 2 | 3 | 4 | m + 5 =>
    simp [rewritingOwners]
    omega

theorem honours_rewriting {k : Client Scripted}
    (hk : start (Scripted.connection .plain) .modeAndMedium = .opened k) :
    Honours (Scripted.connection .plain) k rewriting rewritingOwners := by
  have hheard : k.heard (Scripted.connection .plain) rewriting =
      [⟨.readConfirmation, 0, 1, 71, 0, 1, [0, 2]⟩, ⟨.readConfirmation, 0, 1, 71, 1, 2, [0, 0, 0, 8]⟩] ++
        [⟨.readConfirmation, 8, 1, 52, 1, 1, [0]⟩, ⟨.writeConfirmation, 8, 1, 52, 1, 1, []⟩,
          ⟨.readConfirmation, 8, 1, 52, 1, 1, [1]⟩] := by
    cases hk
    rfl
  refine honours_inTurn hheard rewritingOwners_eq_some (fun i hi => ?_) (fun i f hf => ?_)
    fun i call request y hc hr ht => ?_
  · cases hk
    match i with
    | 0 | 1 | 2 | 3 => rfl
    | i + 4 => simp at hi
  · cases hk
    match i with
    | 0 | 1 | 2 =>
        cases hf
        exact ⟨_, _, rfl, rfl, by decide⟩
    | i + 3 => cases hf
  · cases hk
    match i with
    | 0 | 1 | 2 =>
        cases hc
        cases hr
        cases ht
        exact ⟨by decide, rfl⟩
    | i + 3 => cases hc

/-- Each read takes its own confirmation, the second one with the value that was written in between. -/
theorem get_correlates_mode :
    ∃ k, start (Scripted.connection .plain) .modeAndMedium = .opened k ∧
      Honours (Scripted.connection .plain) k rewriting rewritingOwners ∧
      (k.run (Scripted.connection .plain) rewriting).1 = [.ok (.data [0]), .ok .done, .ok (.data [1])] ∧
      Took (Scripted.connection .plain) k rewriting 0 2 [0] ∧
      Took (Scripted.connection .plain) k rewriting 2 4 [1] := by
  obtain ⟨k, hk, hrun, hwaiting, hsent⟩ :
      ∃ k, start (Scripted.connection .plain) .modeAndMedium = .opened k ∧
        (k.run (Scripted.connection .plain) rewriting).1 = [.ok (.data [0]), .ok .done, .ok (.data [1])] ∧
        k.exchange.arrivals.frames = [] ∧
        ∀ i, i < 3 → ∃ call request y, rewriting[i]? = some call ∧ k.requestOf call = some request ∧
          (k.before (Scripted.connection .plain) rewriting i).transmit (Scripted.connection .plain) request =
            (.ok (), y) := by
    refine ⟨_, rfl, rfl, rfl, fun i hi => ?_⟩
    match i with
    | 0 | 1 | 2 => exact ⟨_, _, _, rfl, rfl, rfl⟩
  have hh := honours_rewriting hk
  have hself : (k.run (Scripted.connection .plain) []).2 = k := rfl
  have hown := (get_correlates (Scripted.connection .plain) (k := k) hk hself hh).2 (by simp [hwaiting])
    fun m i hm => hsent i ((rewritingOwners_eq_some m i).mp hm).2
  obtain ⟨n, htook, hn⟩ := hown 0 1 PropertyId.commMode 1 1 [0] rfl (by rw [hrun]; rfl)
  obtain ⟨n', htook', hn'⟩ := hown 2 1 PropertyId.commMode 1 1 [1] rfl (by rw [hrun]; rfl)
  obtain ⟨rfl, -⟩ := (rewritingOwners_eq_some n 0).mp hn
  obtain ⟨rfl, -⟩ := (rewritingOwners_eq_some n' 2).mp hn'
  exact ⟨k, hk, hh, hrun, htook, htook'⟩

end Client

/-! ### A read that takes the confirmation of the read before it -/

namespace Simulation

/-- A device without an object list. The first transmission after the opening fails; it may reach the device,
which answers it then. -/
def Scripted.failing (answers : Bool) : Scripted :=
  ⟨⟨none, none, [(⟨ObjectType.cemiServer, 1, 5⟩, ⟨[1], false⟩), (⟨ObjectType.cemiServer, 1, 17⟩, ⟨[0, 2], false⟩)]⟩,
    false, [⟨true, [], [], none, [], .ok ()⟩, ⟨answers, [], [], none, [], .error (.ofLink .connection "timeout")⟩],
    none, none, 0, true, []⟩

/-- Reads of two properties. -/
def twoReads : List Call := [.get 1 5 1 1, .get 1 17 1 1]

/-- The confirmations of these reads, if both come: the first frame of all belongs to the opening. -/
def twoOwners : Nat → Option Nat
  | 1 => some 0
  | 2 => some 1
  | _ => none

end Simulation

open Simulation (twoReads twoOwners)

namespace Client

theorem twoOwners_eq_some (m i : Nat) : twoOwners m = some i ↔ m = 1 + i ∧ i < 2 := by
  match m with
  | 0 | 1 | 2 | m + 3 =>
    simp [twoOwners]
    omega

theorem honours_twoReads {k : Client Scripted}
    (hk : start (Scripted.connection .plain) (.failing true) = .opened k) :
    Honours (Scripted.connection .plain) k twoReads twoOwners := by
  have hheard : k.heard (Scripted.connection .plain) twoReads = [⟨.readConfirmation, 0, 1, 71, 0, 0, [7]⟩] ++
      [⟨.readConfirmation, 8, 1, 5, 1, 1, [1]⟩, ⟨.readConfirmation, 8, 1, 17, 1, 1, [0, 2]⟩] := by
    cases hk
    rfl
  refine honours_inTurn hheard twoOwners_eq_some (fun i hi => ?_) (fun i f hf => ?_)
    fun i call request y hc hr ht => ?_
  · cases hk
    match i with
    | 0 | 1 | 2 => rfl
    | i + 3 => simp at hi
  · cases hk
    match i with
    | 0 | 1 =>
        cases hf
        exact ⟨_, _, rfl, rfl, by decide⟩
    | i + 2 => cases hf
  · cases hk
    match i with
    -- the first sending fails
    | 0 =>
        cases hc
        cases hr
        cases ht
    | 1 =>
        cases hc
        cases hr
        cases ht
        exact ⟨by decide, rfl⟩
    | i + 2 => cases hc

/-- The first read fails although its confirmation comes. The second read, of another property, gives the data
of that confirmation and leaves its own behind. -/
theorem get_takes_confirmation_of_failed_get :
    ∃ k, start (Scripted.connection .plain) (.failing true) = .opened k ∧
      Honours (Scripted.connection .plain) k twoReads twoOwners ∧
      (k.run (Scripted.connection .plain) twoReads).1 =
        [.error (.ofLink .connection "timeout"), .ok (.data [1])] ∧
      Took (Scripted.connection .plain) k twoReads 1 1 [1] ∧ twoOwners 1 = some 0 ∧
      (k.heard (Scripted.connection .plain) twoReads)[2]? = some ⟨.readConfirmation, 8, 1, 17, 1, 1, [0, 2]⟩ ∧
      twoOwners 2 = some 1 :=
  ⟨_, rfl, honours_twoReads rfl, rfl, ⟨rfl, _, rfl, rfl, rfl⟩, rfl, rfl, rfl⟩

end Client

end BusManagement
