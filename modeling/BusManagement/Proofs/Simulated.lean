import BusManagement.Proofs.Answering
import BusManagement.Simulation.Scripted

/-! The simulated device as a device that answers. As long as it follows no script it confirms every read and
write with the answer of its store, which repeats what the request is about and fits into a frame because the
request did. -/

namespace BusManagement

/-- How a device knows a property of an object. -/
def ObjectAddress.property (a : ObjectAddress) (pid : UInt8) : Simulation.PropertyKey :=
  ⟨a.objectType, a.objectInstance, pid⟩

theorem Frame.confirms_answered {request : Frame} {service : Service}
    (hs : request.service.confirmation? = some service) (data : Octets) :
    (request.answered service data).Confirms request :=
  ⟨hs, rfl, rfl, rfl, rfl⟩

theorem Frame.confirms_refused {request : Frame} {service : Service}
    (hs : request.service.confirmation? = some service) (code : UInt8) :
    (request.refused code).Confirms request := by
  refine ⟨?_, rfl, rfl, rfl, rfl⟩
  cases hr : request.service <;> simp [hr, Service.confirmation?, Frame.refused] at hs ⊢

namespace Simulation

/-- The frame confirms the request and covers the same range, or none because it refuses the request. -/
def Answers (request f : Frame) : Prop :=
  f.Confirms request ∧ (f.elements = request.elements ∨ f.elements = 0)

theorem answers_answered {request : Frame} {service : Service}
    (hs : request.service.confirmation? = some service) (data : Octets) :
    Answers request (request.answered service data) :=
  ⟨Frame.confirms_answered hs data, .inl rfl⟩

theorem answers_refused {request : Frame} {service : Service}
    (hs : request.service.confirmation? = some service) (code : UInt8) :
    Answers request (request.refused code) :=
  ⟨Frame.confirms_refused hs code, .inr rfl⟩

/-- An answer fits into a frame if its request does. -/
theorem Answers.encode {request f : Frame} (h : Answers request f) {octets : Octets}
    (he : request.encode = .ok octets) : ∃ answer, f.encode = .ok answer ∧ Frame.decode answer = .ok f := by
  obtain ⟨hc, helements⟩ := h
  obtain ⟨hmax, hstart, -⟩ :=
    (Frame.encode_eq_ok_iff (Service.hasHeader_of_confirmation? hc.service)).mp he
  have hh : f.service.hasHeader = true := Service.hasHeader_of_isConfirmation hc.isConfirmation
  have hf : f.encode = .ok f.layout := by
    refine Frame.encode_of_le hh ?_ (hc.start ▸ hstart)
    rcases helements with heq | heq
    · exact heq ▸ hmax
    · rw [heq]
      decide
  exact ⟨f.layout, hf, Frame.decode_of_encode hh hf⟩

namespace Store

theorem answers_answerRead (s : Store) {request : Frame} (hr : request.service = .readRequest) :
    Answers request (s.answerRead request) := by
  have hs : request.service.confirmation? = some .readConfirmation := by rw [hr]; rfl
  unfold answerRead
  split_ifs
  · unfold answerObjectList
    split
    · exact answers_refused hs _
    · dsimp only
      split_ifs
      · exact answers_answered hs _
      · exact answers_refused hs _
      · exact answers_answered hs _
  · split
    · exact answers_answered hs _
    · exact answers_refused hs _

theorem answers_answerWrite (s : Store) {request : Frame} (hr : request.service = .writeRequest) :
    Answers request (s.answerWrite request).1 := by
  have hs : request.service.confirmation? = some .writeConfirmation := by rw [hr]; rfl
  unfold answerWrite
  split
  · split_ifs
    · exact answers_answered hs _
    · exact answers_refused hs _
  · exact answers_refused hs _

/-- A store has an answer to every read and every write. -/
theorem exists_answer (s : Store) {request : Frame} {service : Service}
    (hs : request.service.confirmation? = some service) :
    ∃ f, (s.answer request).1 = some f ∧ Answers request f := by
  cases hr : request.service <;> rw [hr] at hs <;> simp only [Service.confirmation?, reduceCtorEq] at hs
  · exact ⟨s.answerRead request, by simp [answer, hr], s.answers_answerRead hr⟩
  · exact ⟨(s.answerWrite request).1, by simp [answer, hr], s.answers_answerWrite hr⟩

end Store

namespace Scripted

/-- The device answers what it is asked. -/
def Idle (d : Scripted) : Prop := d.script = [] ∧ d.silent = false

/-- A device that does nothing but answer from a store. -/
def ofStore (s : Store) : Scripted := ⟨s, false, [], none, none, 0, true, []⟩

theorem idle_ofStore (s : Store) : (ofStore s).Idle := ⟨rfl, rfl⟩

theorem send_of_idle {d : Scripted} (hd : d.Idle) (octets : Octets) :
    d.send octets = .deliverAll (d.store.respond octets).1
      (.finish { d with store := (d.store.respond octets).2 } (.ok ())) := by
  obtain ⟨hscript, hsilent⟩ := hd
  simp [send, act, unscripted, interludes, Activity.tellAny, hscript, hsilent]

theorem confirms_of_idle (name : String) {d : Scripted} (hd : d.Idle) {request : Frame} {service : Service}
    (hs : request.service.confirmation? = some service) :
    (link name).Confirms d request fun f d' =>
      d'.Idle ∧ f.Confirms request ∧ d.store.answer request = (some f, d'.store) := by
  intro octets he
  obtain ⟨f, hf, hanswer⟩ := d.store.exists_answer hs
  obtain ⟨reply, hreply, hdecode⟩ := hanswer.encode he
  have hrequest := Frame.decode_of_encode (Service.hasHeader_of_confirmation? hs) he
  have hrespond : d.store.respond octets = ([reply], (d.store.answer request).2) := by
    rw [Store.respond, hrequest]
    simp only [hf]
    simp [hreply, Except.toOption]
  change (d.send octets).Confirms _
  rw [send_of_idle hd, hrespond]
  exact .confirm hdecode hanswer.1.isConfirmation (.finish ⟨hd, hanswer.1, Prod.ext hf rfl⟩)

/-- The second object of this device has a mode that may be written and a medium that may not. -/
def modeAndMedium : Scripted :=
  .ofStore ⟨some [ObjectType.device, ObjectType.cemiServer], none,
    [(⟨ObjectType.cemiServer, 1, PropertyId.commMode⟩, ⟨[0], true⟩),
      (⟨ObjectType.cemiServer, 1, PropertyId.mediumType⟩, ⟨[0, 2], false⟩)]⟩

/-- A connection to such devices. -/
def connection (config : Config) : Connection Scripted := ⟨link "a", .direct, config⟩

end Scripted

end Simulation

end BusManagement
