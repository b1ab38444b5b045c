import BusManagement.Proofs.Simulated

/-! Property access over frames is access to a map. A device keeps a map from properties to their values and
answers each request from it, between other frames that have nothing to do with any request. Seen from the
caller, the octets, the arrivals and the searches vanish: every run of reads and writes gives what the same
reads and writes of the map give, and leaves the device with the map that they leave. -/

namespace BusManagement

open Exchange (Ready)
open Simulation (PropertyKey Property keyOf objectListKey Store Scripted)

variable {σ : Type}

/-- The properties of a device. -/
abbrev PropertyMap := PropertyKey → Option Property

namespace PropertyMap

/-- The value of a property, if there is one. -/
def read (m : PropertyMap) (key : PropertyKey) : Except Fault Octets :=
  match m key with
  | some p => .ok p.value
  | none => .error (.refused Refusal.voidPoint)

/-- The map in which a property that may be written has a value. -/
def put (m : PropertyMap) (key : PropertyKey) (value : Octets) : PropertyMap :=
  fun l => if l = key then some ⟨value, true⟩ else m l

/-- Replaces the value of a property, if there is one that may be written. -/
def write (m : PropertyMap) (key : PropertyKey) (value : Octets) : Except Fault Unit × PropertyMap :=
  match m key with
  | some p => if p.writable then (.ok (), m.put key value) else (.error (.refused Refusal.readOnly), m)
  | none => (.error (.refused Refusal.voidPoint), m)

/-- A call of a client, made of the map itself. All that is left of the client is that it knows which index
stands for which object. -/
def perform (objects : ObjectList) (m : PropertyMap) : Call → Except Fault Reply × PropertyMap
  | .get object pid _ _ =>
    match objects.address object with
    | .error e => (.error e, m)
    | .ok a => ((m.read (a.property pid)).map .data, m)
  | .set object pid _ _ value =>
    match objects.address object with
    | .error e => (.error e, m)
    | .ok a => let (r, m) := m.write (a.property pid) value; (r.map fun _ => .done, m)
  | _ => (.ok .silence, m)

/-- Calls made of the map one after the other. -/
def run (objects : ObjectList) (m : PropertyMap) : List Call → List (Except Fault Reply) × PropertyMap
  | [] => ([], m)
  | call :: rest =>
    let (r, m) := m.perform objects call
    let (rs, m) := run objects m rest
    (r :: rs, m)

/-- What a device with this map confirms when it is asked for a property. -/
def answerRead (m : PropertyMap) (request : Frame) : Frame :=
  match m (keyOf request) with
  | some p => request.answered .readConfirmation p.value
  | none => request.refused Refusal.voidPoint

/-- What a device with this map confirms when it is told to change a property, and its map then. -/
def answerWrite (m : PropertyMap) (request : Frame) : Frame × PropertyMap :=
  match m (keyOf request) with
  | some p =>
    if p.writable then (request.answered .writeConfirmation [], m.put (keyOf request) request.data)
    else (request.refused Refusal.readOnly, m)
  | none => (request.refused Refusal.voidPoint, m)

end PropertyMap

/-! ### Devices -/

/-- In its states of interest, a device answers every read and write from its map. The object list is no
part of the map: its reads are confirmed in one way or the other and change nothing. -/
structure Link.Serves (l : Link σ) (I : σ → Prop) (map : σ → PropertyMap) : Prop where
  read : ∀ s request, I s → request.service = .readRequest → keyOf request ≠ objectListKey →
    l.Confirms s request fun f s' => I s' ∧ f = (map s).answerRead request ∧ map s' = map s
  write : ∀ s request, I s → request.service = .writeRequest → keyOf request ≠ objectListKey →
    l.Confirms s request fun f s' => I s' ∧ (f, map s') = (map s).answerWrite request
  list : ∀ m, l.Lists fun s => I s ∧ map s = m

/-- The call is a read or a write of a property that is not the object list, of a range that fits into a
frame, or it is the link that delivers something of no interest. -/
def Call.Plain (objects : ObjectList) : Call → Prop
  | .get object pid start elements | .set object pid start elements _ =>
    (∀ a, objects.address object = .ok a → a.property pid ≠ objectListKey) ∧
      start ≤ Frame.maxStart ∧ 1 ≤ elements ∧ elements ≤ Frame.maxElements
  | .receive octets => octets.IsNoise
  | _ => False

instance (objects : ObjectList) : (call : Call) → Decidable (call.Plain objects)
  | .get _ _ _ _ | .set _ _ _ _ _ => inferInstanceAs (Decidable (_ ∧ _))
  | .receive octets => inferInstanceAs (Decidable octets.IsNoise)
  | .describe _ _ _ | .reset | .close | .linkClosed _ => instDecidableFalse

/-! ### The answers of a map -/

theorem answerOf_answered {request : Frame} {service : Service} (he : 1 ≤ request.elements) (data : Octets) :
    Exchange.answerOf (request.answered service data) = .ok data := by
  have hne : request.elements ≠ 0 := by
    rintro h
    rw [h] at he
    exact absurd he (by decide)
  simp [Exchange.answerOf_eq, Frame.isRefusal, Frame.answered, hne]

@[simp] theorem answerOf_refused (request : Frame) (code : UInt8) :
    Exchange.answerOf (request.refused code) = .error (.refused code) := by
  rw [Exchange.answerOf, Frame.refusalCode?_refused]

namespace PropertyMap

theorem service_answerRead (m : PropertyMap) {request : Frame} (hs : request.service = .readRequest) :
    (m.answerRead request).service = .readConfirmation := by
  unfold answerRead
  split
  · rfl
  · simp [Frame.refused, hs]

theorem service_answerWrite (m : PropertyMap) {request : Frame} (hs : request.service = .writeRequest) :
    (m.answerWrite request).1.service = .writeConfirmation := by
  unfold answerWrite
  split
  · split_ifs
    · rfl
    · simp [Frame.refused, hs]
  · simp [Frame.refused, hs]

/-- The confirmation of a read tells what the map holds. -/
theorem answerOf_answerRead (m : PropertyMap) {request : Frame} (he : 1 ≤ request.elements) :
    Exchange.answerOf (m.answerRead request) = m.read (keyOf request) := by
  unfold answerRead read
  split
  · exact answerOf_answered he _
  · exact answerOf_refused request _

/-- The confirmation of a write tells what becomes of the map. -/
theorem answerOf_answerWrite (m : PropertyMap) {request : Frame} (he : 1 ≤ request.elements) :
    (Exchange.answerOf (m.answerWrite request).1).map (fun _ => ()) = (m.write (keyOf request) request.data).1 ∧
      (m.answerWrite request).2 = (m.write (keyOf request) request.data).2 := by
  unfold answerWrite write
  split
  · split_ifs
    · exact ⟨by rw [answerOf_answered he]; rfl, rfl⟩
    · exact ⟨by rw [answerOf_refused]; rfl, rfl⟩
  · exact ⟨by rw [answerOf_refused]; rfl, rfl⟩

end PropertyMap

/-! ### Clients of such devices -/

/-- The device is in a state of interest, with this map. -/
def Holds (I : σ → Prop) (map : σ → PropertyMap) (m : PropertyMap) (s : σ) : Prop := I s ∧ map s = m

section Serving

variable {c : Connection σ} {I : σ → Prop} {map : σ → PropertyMap} {m : PropertyMap}

theorem Exchange.request_read (hs : c.link.Serves I map) {x : Exchange σ} (hx : Ready (Holds I map m) x)
    (request : Frame) (hmax : request.elements ≤ Frame.maxElements) (hstart : request.start ≤ Frame.maxStart)
    (hr : request.service = .readRequest) (hkey : keyOf request ≠ objectListKey)
    (hone : 1 ≤ request.elements) :
    (x.request c request .readConfirmation).1 = m.read (keyOf request) ∧
      Ready (Holds I map m) (x.request c request .readConfirmation).2 := by
  have hh : request.service.hasHeader = true := by rw [hr]; rfl
  have he := Frame.encode_of_le hh hmax hstart
  obtain ⟨hI, hm⟩ := hx.link
  obtain ⟨g, y, hy, hready⟩ := request_of_confirms hx he (hs.read _ _ hI hr hkey _ he) .readConfirmation rfl
  obtain ⟨hI', hg, hm'⟩ := hready.link
  rw [hm] at hg hm'
  rw [hy, hg, if_pos (m.service_answerRead hr)]
  exact ⟨m.answerOf_answerRead hone, hready.isOpen, hready.noise, hI', hm'⟩

theorem Exchange.request_write (hs : c.link.Serves I map) {x : Exchange σ} (hx : Ready (Holds I map m) x)
    (request : Frame) (hmax : request.elements ≤ Frame.maxElements) (hstart : request.start ≤ Frame.maxStart)
    (hr : request.service = .writeRequest) (hkey : keyOf request ≠ objectListKey)
    (hone : 1 ≤ request.elements) :
    (x.request c request .writeConfirmation).1.map (fun _ => ()) = (m.write (keyOf request) request.data).1 ∧
      Ready (Holds I map (m.write (keyOf request) request.data).2)
        (x.request c request .writeConfirmation).2 := by
  have hh : request.service.hasHeader = true := by rw [hr]; rfl
  have he := Frame.encode_of_le hh hmax hstart
  obtain ⟨hI, hm⟩ := hx.link
  obtain ⟨g, y, hy, hready⟩ := request_of_confirms hx he (hs.write _ _ hI hr hkey _ he) .writeConfirmation rfl
  obtain ⟨hI', hg⟩ := hready.link
  rw [hm] at hg
  obtain ⟨hanswer, hmap⟩ := m.answerOf_answerWrite hone
  have hservice := m.service_answerWrite hr
  rw [← hg] at hanswer hmap hservice
  rw [hy, if_pos hservice]
  exact ⟨hanswer, hready.isOpen, hready.noise, hI', hmap⟩

namespace Client

variable {k : Client σ}

/-- What one call gives is what the map gives, and the client is ready for the next one. -/
theorem perform_eq (hs : c.link.Serves I map) (hk : Ready (Holds I map m) k.exchange) {call : Call}
    (hc : call.Plain k.objects) :
    (k.perform c call).1 = (m.perform k.objects call).1 ∧
      Ready (Holds I map (m.perform k.objects call).2) (k.perform c call).2.exchange := by
  cases call with
  | get object pid start elements =>
      obtain ⟨hkey, hstart, hone, hmax⟩ := hc
      cases ha : k.objects.address object with
      | error e =>
          simp only [perform, get, access_of_unlisted c _ _ hk.isOpen ha, PropertyMap.perform, ha]
          exact ⟨rfl, hk⟩
      | ok a =>
          obtain ⟨hr, hready⟩ := Exchange.request_read hs hk
            (.reading a.objectType a.objectInstance pid start elements) hmax hstart rfl (hkey a ha) hone
          simp only [perform, get, access_of_address c _ _ hk.isOpen ha, PropertyMap.perform, ha]
          exact ⟨congrArg _ hr, hready⟩
  | set object pid start elements value =>
      obtain ⟨hkey, hstart, hone, hmax⟩ := hc
      cases ha : k.objects.address object with
      | error e =>
          simp only [perform, set, access_of_unlisted c _ _ hk.isOpen ha, PropertyMap.perform, ha]
          exact ⟨rfl, hk⟩
      | ok a =>
          obtain ⟨hr, hready⟩ := Exchange.request_write hs hk
            (.writing a.objectType a.objectInstance pid start elements value) hmax hstart rfl (hkey a ha) hone
          simp only [perform, PropertyMap.perform, ha]
          rw [set_of_address c hk.isOpen ha]
          exact ⟨congrArg _ hr, hready⟩
  | receive octets => exact ⟨rfl, Exchange.ready_receive hk hc⟩
  | describe object pid index => exact hc.elim
  | reset => exact hc.elim
  | close => exact hc.elim
  | linkClosed n => exact hc.elim

theorem run_eq (hs : c.link.Serves I map) {calls : List Call} (hk : Ready (Holds I map m) k.exchange)
    (hc : ∀ call ∈ calls, call.Plain k.objects) :
    (k.run c calls).1 = (m.run k.objects calls).1 ∧
      Ready (Holds I map (m.run k.objects calls).2) (k.run c calls).2.exchange := by
  induction calls generalizing k m with
  | nil => exact ⟨rfl, hk⟩
  | cons call rest ih =>
      obtain ⟨hcall, hrest⟩ := List.forall_mem_cons.mp hc
      obtain ⟨hr, hready⟩ := perform_eq hs hk hcall
      have hobjects := (leads_perform c k call).objects
      rw [← hobjects] at hrest
      obtain ⟨hrs, hready'⟩ := ih hready hrest
      rw [hobjects] at hrs hready'
      exact ⟨congrArg₂ List.cons hr hrs, hready'⟩

/-- From the opening on, reads and writes over frames give what they give when they are made of the map
itself, and the device ends with the same map. -/
theorem run_eq_run_map (hs : c.link.Serves I map) {link : σ} (hI : I link) {k : Client σ}
    (ho : start c link = .opened k) {calls : List Call} (hc : ∀ call ∈ calls, call.Plain k.objects) :
    (k.run c calls).1 = ((map link).run k.objects calls).1 ∧
      map (k.run c calls).2.exchange.link = ((map link).run k.objects calls).2 := by
  obtain ⟨hready, -⟩ := ready_of_start (hs.list (map link)) ⟨hI, rfl⟩ ho
  obtain ⟨hr, hend⟩ := run_eq hs hready hc
  exact ⟨hr, hend.link.2⟩

end Client

end Serving

/-! ### The simulated device serves its properties -/

namespace Simulation

theorem Store.answerRead_eq (s : Store) {request : Frame} (hkey : keyOf request ≠ objectListKey) :
    s.answerRead request = PropertyMap.answerRead s.get? request := by
  rw [answerRead, if_neg hkey]
  rfl

theorem Store.get?_insert_eq_put (s : Store) (key : PropertyKey) (value : Octets) :
    (s.insert key ⟨value, true⟩).get? = PropertyMap.put s.get? key value := by
  funext l
  exact s.get?_insert key l _

theorem Store.answerWrite_eq (s : Store) (request : Frame) :
    ((s.answerWrite request).1, (s.answerWrite request).2.get?) = PropertyMap.answerWrite s.get? request := by
  unfold answerWrite PropertyMap.answerWrite
  cases h : s.get? (keyOf request) with
  | none => rfl
  | some p =>
      cases hw : p.writable with
      | true => simp [hw, get?_insert_eq_put]
      | false => simp [hw]

theorem Scripted.serves (name : String) : (link name).Serves Idle fun d => d.store.get? := by
  refine ⟨fun d request hd hr hkey => ?_, fun d request hd hr hkey => ?_, fun m d start elements hd => ?_⟩
  · have hs : request.service.confirmation? = some .readConfirmation := by rw [hr]; rfl
    intro octets he
    refine (confirms_of_idle name hd hs octets he).mono fun f d' h => ?_
    obtain ⟨hidle, -, hanswer⟩ := h
    simp only [Store.answer, hr, Prod.mk.injEq, Option.some.injEq] at hanswer
    rw [← hanswer.1, ← hanswer.2]
    exact ⟨hidle, d.store.answerRead_eq hkey, rfl⟩
  · have hs : request.service.confirmation? = some .writeConfirmation := by rw [hr]; rfl
    intro octets he
    refine (confirms_of_idle name hd hs octets he).mono fun f d' h => ?_
    obtain ⟨hidle, -, hanswer⟩ := h
    simp only [Store.answer, hr, Prod.mk.injEq, Option.some.injEq] at hanswer
    rw [← hanswer.1, ← hanswer.2]
    exact ⟨hidle, d.store.answerWrite_eq request⟩
  · intro octets he
    refine (confirms_of_idle name hd.1 rfl octets he).mono fun f d' h => ?_
    obtain ⟨hidle, -, hanswer⟩ := h
    simp only [Store.answer, Frame.reading, Prod.mk.injEq] at hanswer
    exact ⟨hidle, hanswer.2 ▸ hd.2⟩

/-- Reads and writes of the mode and the medium, and an indication between them. -/
def modeCalls : List Call :=
  [.get 1 PropertyId.commMode 1 1, .receive [0xf7, 0, 8, 1, 51, 0x10, 1], .set 1 PropertyId.commMode 1 1 [1],
    .set 1 PropertyId.mediumType 1 1 [0, 4], .get 1 PropertyId.commMode 1 1]

end Simulation

theorem Client.run_eq_run_map_modeCalls :
    ∃ k, start (Scripted.connection .plain) .modeAndMedium = .opened k ∧
      (k.run (Scripted.connection .plain) Simulation.modeCalls).1 =
        [.ok (.data [0]), .ok .silence, .ok .done, .error (.refused Refusal.readOnly), .ok (.data [1])] ∧
      (k.run (Scripted.connection .plain) Simulation.modeCalls).2.exchange.link.store.get?
        ⟨ObjectType.cemiServer, 1, PropertyId.commMode⟩ = some ⟨[1], true⟩ := by
  obtain ⟨k, hk, hobjects⟩ : ∃ k, start (Scripted.connection .plain) .modeAndMedium = .opened k ∧
      k.objects = ⟨[ObjectType.device, ObjectType.cemiServer]⟩ := ⟨_, rfl, rfl⟩
  have hplain : ∀ call ∈ Simulation.modeCalls, call.Plain k.objects := by
    rw [hobjects]
    decide
  obtain ⟨hr, hm⟩ := run_eq_run_map (Scripted.serves "a") (Scripted.idle_ofStore _) hk hplain
  rw [hobjects] at hr hm
  exact ⟨k, hk, hr, congrFun hm _⟩

end BusManagement
