import BusManagement.Proofs.Parallel
import BusManagement.Proofs.Silence
import BusManagement.Proofs.Simulated

/-! Links that keep a record of their calls. A chronicle is the client's own account of what it hands over and of when
it releases the link. A link that writes down how it is called bears this out: the client does the same over it as
over the link without the record, and at the end of a life the record is what the chronicle says, call by call. So
whatever is proved of the transmissions and releases in a chronicle is proved of the calls that the link gets. -/

namespace BusManagement

open Simulation (Scripted)

variable {σ : Type}

/-- A call on a link. -/
inductive LinkCall where
  | send (transmission : Transmission)
  | close
  deriving DecidableEq

def LinkCall.transmission? : LinkCall → Option Transmission
  | send t => some t
  | close => none

/-- The state of a link, and the calls that it has got, oldest first. -/
structure Recorded (σ : Type) where
  link : σ
  calls : List LinkCall

/-- The same things happen. If the client is closed meanwhile, that is one more call on the link, and the record goes
on from there. -/
def Activity.recording : Activity σ → List LinkCall → Activity (Recorded σ)
  | finish state result, calls => finish ⟨state, calls⟩ result
  | deliver octets next, calls => deliver octets (next.recording calls)
  | tellClosed notice next, calls => tellClosed notice (next.recording calls)
  | closeClient state next, calls => closeClient ⟨state, calls⟩ fun r => (next r.link).recording r.calls
  | observe next, calls => observe fun p => (next p).recording calls

/-- The same link, except that it writes down each call. -/
def Link.recording (l : Link σ) : Link (Recorded σ) where
  name := l.name
  send r octets waiting := (l.send r.link octets waiting).recording (r.calls ++ [.send ⟨octets, waiting⟩])
  close r := (l.close r.link).recording (r.calls ++ [.close])

def Connection.recording (c : Connection σ) : Connection (Recorded σ) := ⟨c.link.recording, c.attachment, c.config⟩

/-- The call on the link that the chronicle tells of. -/
def Happening.linkCall? : Happening → Option LinkCall
  | .handed t => some (.send t)
  | .released => some .close
  | _ => none

namespace Chronicle

def linkCalls (h : Chronicle) : List LinkCall := h.filterMap Happening.linkCall?

@[simp] theorem linkCalls_append (h hs : Chronicle) : linkCalls (h ++ hs) = h.linkCalls ++ hs.linkCalls :=
  List.filterMap_append

theorem linkCalls_eq_nil {h : Chronicle} (hh : ∀ k ∈ h, k.mayDiffer = false) : h.linkCalls = [] := by
  rw [linkCalls, List.filterMap_eq_nil_iff]
  intro k hk
  have hsame := hh k hk
  cases k <;> first | rfl | cases hsame

theorem transmissions_eq_linkCalls (h : Chronicle) :
    h.transmissions = h.linkCalls.filterMap LinkCall.transmission? := by
  rw [transmissions, linkCalls, List.filterMap_filterMap]
  congr 1
  funext k
  cases k <;> rfl

theorem releases_eq_linkCalls (h : Chronicle) : h.releases = h.linkCalls.count .close := by
  rw [releases, linkCalls]
  induction h with
  | nil => rfl
  | cons k h ih =>
      rw [List.count_cons, List.filterMap_cons, ih]
      cases k <;> simp [Happening.linkCall?]

end Chronicle

namespace Exchange

/-- The same exchange over another link. -/
def relinked {τ : Type} (x : Exchange σ) (link : τ) : Exchange τ := ⟨link, x.arrivals, x.phase, x.chronicle⟩

/-- The same exchange over the recording link, which has a record of the calls that the chronicle tells of. -/
def recorded (x : Exchange σ) : Exchange (Recorded σ) := x.relinked ⟨x.link, x.chronicle.linkCalls⟩

theorem recorded_note (x : Exchange σ) {h : Happening} (hh : h.linkCall? = none) :
    (x.note h).recorded = x.recorded.note h := by
  simp [recorded, relinked, note, Chronicle.linkCalls, hh]

theorem linkCalls_proceed (x : Exchange σ) {hs : Chronicle} (hhs : ∀ h ∈ hs, h.mayDiffer = false) (b : Arrivals)
    (p : Phase) : (x.proceed hs b p).chronicle.linkCalls = x.chronicle.linkCalls := by
  show Chronicle.linkCalls (x.chronicle ++ hs) = x.chronicle.linkCalls
  rw [Chronicle.linkCalls_append, Chronicle.linkCalls_eq_nil hhs, List.append_nil]

/-- The other exchange is the same, but its link may be in the middle of a call, with this record. -/
structure InCall (calls : List LinkCall) (x : Exchange σ) (x' : Exchange (Recorded σ)) : Prop where
  told : x.chronicle.linkCalls = calls
  same : x' = x.relinked x'.link

theorem inCall_recorded (x : Exchange σ) : InCall x.chronicle.linkCalls x x.recorded := ⟨rfl, rfl⟩

variable (c : Connection σ)

theorem abreast_inCall (calls : List LinkCall) : Abreast c c.recording (InCall calls) where
  config := rfl
  arrivals h := by rw [h.same, relinked]
  phase h := by rw [h.same, relinked]
  proceed b p hhs h := by
    refine ⟨(linkCalls_proceed _ hhs b p).trans h.told, ?_⟩
    rw [h.same]
    rfl

/-- An activity does the same to both, and at its end the link has a record of all calls. -/
theorem follow_recording {onClose : Exchange σ → Exchange σ} {onClose' : Exchange (Recorded σ) → Exchange (Recorded σ)}
    (hclose : ∀ x, onClose' x.recorded = (onClose x).recorded) (a : Activity σ) {calls : List LinkCall}
    {x : Exchange σ} {x' : Exchange (Recorded σ)} (h : InCall calls x x') :
    follow c.recording onClose' (a.recording calls) x' =
      ((follow c onClose a x).1, (follow c onClose a x).2.recorded) := by
  -- The link of the other exchange is out of date until the activity hands a state over, so only the record is known.
  induction a generalizing calls x x' with
  | finish link result =>
      rw [h.same, ← h.told]
      rfl
  | deliver octets next ih => exact ih ((abreast_inCall c calls).receive h octets)
  | tellClosed n next ih => exact ih ((abreast_inCall c calls).linkClosed h n)
  | closeClient link next ih =>
      have hmove : onClose' { x' with link := ⟨link, calls⟩ } = (onClose { x with link := link }).recorded := by
        rw [← hclose, h.same, ← h.told]
        rfl
      rw [Activity.recording, follow, follow]
      simp only [hmove]
      exact ih _ (inCall_recorded _)
  | observe next ih =>
      have hphase : x'.phase = x.phase := (abreast_inCall c calls).phase h
      rw [Activity.recording, follow, follow, hphase]
      exact ih x.phase h

theorem recorded_release (x : Exchange σ) : (release c x).recorded = release c.recording x.recorded := by
  let left : Exchange σ := (x.abandonArrivals .cleared).note .released
  let left' : Exchange (Recorded σ) := (x.recorded.abandonArrivals .cleared).note .released
  have hcall : InCall (x.chronicle.linkCalls ++ [.close]) left left' := by
    refine ⟨?_, rfl⟩
    show Chronicle.linkCalls (x.chronicle ++ [.cleared x.arrivals.size] ++ [.released]) = _
    rw [Chronicle.linkCalls_append, Chronicle.linkCalls_append]
    simp [Chronicle.linkCalls, List.filterMap_cons, Happening.linkCall?]
  have hfollow : follow c.recording id (c.recording.link.close x.recorded.link) left' =
      ((follow c id (c.link.close x.link) left).1, (follow c id (c.link.close x.link) left).2.recorded) :=
    follow_recording c (fun _ => rfl) (c.link.close x.link) hcall
  rw [release, release, hfollow]
  rcases follow c id (c.link.close x.link) left with ⟨r, y⟩
  cases r with
  | ok _ => rfl
  | error e => exact recorded_note y rfl

/-- Between calls on the link the record is complete. -/
theorem abreast_recording : Abreast c c.recording fun x x' => x.recorded = x' where
  config := rfl
  arrivals := by
    rintro x _ rfl
    rfl
  phase := by
    rintro x _ rfl
    rfl
  proceed := by
    rintro x _ hs b p hhs rfl
    rw [recorded, linkCalls_proceed x hhs]
    rfl

theorem recorded_close (x : Exchange σ) : (x.close c).recorded = x.recorded.close c.recording :=
  (abreast_recording c).close rfl fun hx => hx ▸ recorded_release c _

theorem send_recorded (x : Exchange σ) (f : Frame) (confirmed : Bool) :
    x.recorded.send c.recording f confirmed = ((x.send c f confirmed).1, (x.send c f confirmed).2.recorded) := by
  have hsame : c.recording.attachment.transmission f confirmed = c.attachment.transmission f confirmed := rfl
  cases ht : c.attachment.transmission f confirmed with
  | error e => rw [send_of_error c ht, send_of_error c.recording (hsame.trans ht)]
  | ok t =>
      have hcall : InCall (x.chronicle.linkCalls ++ [.send t]) (x.note (.handed t)) (x.recorded.note (.handed t)) :=
        ⟨Chronicle.linkCalls_append x.chronicle [.handed t], rfl⟩
      rw [send_of_transmission c ht, send_of_transmission c.recording (hsame.trans ht)]
      exact follow_recording c (fun y => (recorded_close c y).symm) _ hcall

end Exchange

/-- Whatever is done over a link has its counterpart over the recording one. -/
theorem parallel_recording (c : Connection σ) : Parallel c c.recording (fun x x' => x.recorded = x') Eq :=
  .of_image (Exchange.abreast_recording c) rfl (fun x _ => Exchange.recorded_note x rfl) (Exchange.recorded_release c)
    (Exchange.send_recorded c)

namespace Client

variable (c : Connection σ)

/-- Over the recording link, an opening comes to the same end. -/
theorem start_recording (link : σ) :
    start c.recording ⟨link, []⟩ = (start c link).map Exchange.recorded :=
  (parallel_recording c).start_eq rfl

/-- Over the recording link, a run gives the same replies and comes to the same end. -/
theorem run_recording (k : Client σ) (calls : List Call) :
    (k.map Exchange.recorded).run c.recording calls = ((k.run c calls).1, (k.run c calls).2.map Exchange.recorded) :=
  (parallel_recording c).run_eq k calls

theorem life_recording (link : σ) (calls : List Call) :
    life c.recording ⟨link, []⟩ calls = (life c link calls).recorded := by
  rw [life, life, start_recording]
  cases start c link with
  | opened k =>
      show ((k.map Exchange.recorded).run c.recording calls).2.exchange = _
      rw [run_recording]
      rfl
  | failed e x => rfl

/-- What happens in a life is the same whether or not the link keeps a record, and at the end the record is what the
chronicle says: the link got the transmissions handed over, with what is waited for, and it was closed when it was
released, all of that in this order and nothing else. -/
theorem record_of_life (link : σ) (calls : List Call) :
    (life c.recording ⟨link, []⟩ calls).chronicle = (life c link calls).chronicle ∧
    (life c.recording ⟨link, []⟩ calls).link.calls = (life c link calls).chronicle.linkCalls ∧
    (life c.recording ⟨link, []⟩ calls).link.calls.filterMap LinkCall.transmission? =
      (life c link calls).chronicle.transmissions ∧
    (life c.recording ⟨link, []⟩ calls).link.calls.count .close = (life c link calls).chronicle.releases := by
  rw [life_recording, Chronicle.transmissions_eq_linkCalls, Chronicle.releases_eq_linkCalls]
  exact ⟨rfl, rfl, rfl, rfl⟩

/-- Two reads of the object list, a read that is asked for, and the closing. -/
example : (life (Scripted.connection .plain).recording ⟨.modeAndMedium, []⟩
    [.get 1 52 1 1, .get 2 52 1 1, .close, .get 1 52 1 1]).link.calls =
      [.send ⟨[0xfc, 0, 0, 1, 71, 0x10, 0], .confirmation⟩, .send ⟨[0xfc, 0, 0, 1, 71, 0x20, 1], .confirmation⟩,
        .send ⟨[0xfc, 0, 8, 1, 52, 0x10, 1], .confirmation⟩, .close] := by
  decide +kernel

end Client

end BusManagement
