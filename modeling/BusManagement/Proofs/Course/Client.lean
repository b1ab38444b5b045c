import BusManagement.Proofs.Operations

/-! Every operation of a client is a course of its exchange, from the discovery of the objects to a whole
run of calls, and none of them changes the list of objects. -/

namespace BusManagement

variable {σ : Type} (c : Connection σ)

namespace Exchange

theorem spans_course : Spans (Course c) :=
  ⟨fun _ => .refl, .trans, fun x _ hr => (inFlight_note c x hr).course⟩

theorem send_of_transmission {x : Exchange σ} {f : Frame} {confirmed : Bool} {t : Transmission}
    (ht : c.attachment.transmission f confirmed = .ok t) :
    x.send c f confirmed = follow c (close c) (c.link.send x.link t.octets t.waiting) (x.note (.handed t)) := by
  rw [send, ht]

theorem send_of_error {x : Exchange σ} {f : Frame} {confirmed : Bool} {e : Fault}
    (ht : c.attachment.transmission f confirmed = .error e) : x.send c f confirmed = (.error e, x) := by
  rw [send, ht]

/-- A request that has octets goes out with them, and its confirmation is waited for. -/
theorem transmission_of_encode {f : Frame} {octets : Octets} (he : f.encode = .ok octets) :
    c.attachment.transmission f true = .ok ⟨octets, .confirmation⟩ := by
  rw [Attachment.transmission, he]
  cases c.attachment <;> rfl

theorem send_of_encode {x : Exchange σ} {f : Frame} {octets : Octets} (he : f.encode = .ok octets) :
    x.send c f true = follow c (close c) (c.link.send x.link octets .confirmation)
      (x.note (.handed ⟨octets, .confirmation⟩)) :=
  send_of_transmission c (transmission_of_encode c he)

theorem course_send {x : Exchange σ} (ho : x.isOpen = true) (f : Frame) (confirmed : Bool) :
    Course c x (x.send c f confirmed).2 := by
  cases ht : c.attachment.transmission f confirmed with
  | ok t =>
      rw [send_of_transmission c ht]
      exact .head (.hand x t ho) (inFlight_follow c (inFlight_close c) _ (x.note (.handed t))).course
  | error e =>
      rw [send_of_error c ht]

theorem course_request (x : Exchange σ) (f : Frame) (awaited : Service)
    (hs : f.service.confirmation? = some awaited) : Course c x (x.request c f awaited).2 := by
  rw [request]
  split_ifs with ho
  · have hsend : Course c x ((x.note (.sending f)).send c f true).2 :=
      (inFlight_note c x rfl).course.trans (course_send c (x := x.note (.sending f)) ho f true)
    split
    · next hs' =>
        rw [hs'] at hsend
        exact hsend.trans (course_scan c _ (Service.ne_resetIndication_of_confirmation? hs))
    · next hs' =>
        rw [hs'] at hsend
        exact hsend
  · exact .refl

theorem course_resetDevice (x : Exchange σ) : Course c x (x.resetDevice c).2 := by
  rw [resetDevice]
  split_ifs with ho
  · exact course_send c ho _ _
  · exact .refl

end Exchange

open Exchange (Course spans_course course_request)

namespace Client

theorem course_start (link : σ) : Course c (.start link) (start c link).exchange := by
  have hobjects := Discovery.spans_objects (c := c) (spans_course c)
    (fun _ _ x => course_request c x _ .readConfirmation rfl) (.start link)
  rw [start]
  split
  · next h =>
      rw [h] at hobjects
      exact hobjects.trans (Exchange.inFlight_note c _ rfl).course
  · next h =>
      rw [h] at hobjects
      refine (hobjects.trans ?_).trans (Exchange.inFlight_closeFor c _ (.inr rfl)).course
      exact (Exchange.inFlight_note c _ rfl).course

theorem leads_perform (k : Client σ) (call : Call) : Leads (Course c) k (k.perform c call).2 := by
  have hcovers := (spans_course c).covers (course_request c) k.objects
  cases call with
  | get object pid first elements => exact (keeps_get (hcovers object) pid first elements).toLeads
  | set object pid first elements data => exact (keeps_set (hcovers object) pid first elements data).toLeads
  | describe object pid index => exact leads_describe (hcovers object) pid index
  | reset => exact ⟨rfl, Exchange.course_resetDevice c k.exchange⟩
  | close => exact ⟨rfl, (Exchange.inFlight_close c k.exchange).course⟩
  | receive octets => exact ⟨rfl, (Exchange.inFlight_receive c k.exchange octets).course⟩
  | linkClosed n => exact ⟨rfl, .single (.flight (.linkClosed k.exchange n))⟩

theorem leads_run (k : Client σ) (calls : List Call) : Leads (Course c) k (k.run c calls).2 := by
  induction calls generalizing k with
  | nil => exact .refl (spans_course c) k
  | cons call rest ih => exact (leads_perform c k call).trans (spans_course c) (ih (k.perform c call).2)

end Client

end BusManagement
