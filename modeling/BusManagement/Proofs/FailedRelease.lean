import BusManagement.Proofs.Course.Additions
import BusManagement.Proofs.Parallel

/-! A link that fails to close is as good as one that closes. The failure is remarked on and has no other
effect: over the link that does the same things and then reports success, every reply is the same, and what
happens is the same except for that remark. -/

namespace BusManagement

variable {σ : Type}

namespace Activity

/-- The same things happen, and in the end the call succeeds. -/
def succeeding : Activity σ → Activity σ
  | finish state _ => finish state (.ok ())
  | deliver octets next => deliver octets next.succeeding
  | tellClosed notice next => tellClosed notice next.succeeding
  | closeClient state next => closeClient state fun s => (next s).succeeding
  | observe next => observe fun p => (next p).succeeding

end Activity

/-- The same link, except that closing it never fails. -/
def Link.forgiving (l : Link σ) : Link σ := { l with close := fun s => (l.close s).succeeding }

def Connection.forgiving (c : Connection σ) : Connection σ := { c with link := c.link.forgiving }

/-- The link failed to close. -/
def Happening.isReleaseFault : Happening → Bool
  | .releaseFailed _ => true
  | _ => false

namespace Exchange

/-- The exchange without the remarks on failures to close the link. -/
def forgiven (x : Exchange σ) : Exchange σ :=
  { x with chronicle := x.chronicle.filter fun h => !h.isReleaseFault }

theorem forgiven_releaseFailed (x : Exchange σ) (e : Fault) :
    (x.note (.releaseFailed e)).forgiven = x.forgiven := by
  simp [forgiven, note, Happening.isReleaseFault]

theorem forgiven_note (x : Exchange σ) {h : Happening} (hh : h.isReleaseFault = false) :
    (x.note h).forgiven = x.forgiven.note h := by
  simp [forgiven, note, hh]

theorem forgiven_proceed (x : Exchange σ) {hs : Chronicle} (hhs : ∀ h ∈ hs, h.mayDiffer = false) (b : Arrivals)
    (p : Phase) : (x.proceed hs b p).forgiven = x.forgiven.proceed hs b p := by
  have hkept : hs.filter (fun h => !h.isReleaseFault) = hs := by
    rw [List.filter_eq_self]
    intro h hh
    have hsame := hhs h hh
    cases h <;> first | rfl | cases hsame
  rw [forgiven, proceed, List.filter_append, hkept]
  rfl

variable (c : Connection σ)

/-- Only the failures to close the link are missing on the other side. -/
theorem abreast_forgiving : Abreast c c.forgiving fun x x' => x.forgiven = x' where
  config := rfl
  arrivals := by
    rintro x _ rfl
    rfl
  phase := by
    rintro x _ rfl
    rfl
  proceed := by
    rintro x _ hs b p hhs rfl
    exact forgiven_proceed x hhs b p

/-- The same activity leads both exchanges to the same end. -/
theorem follow_forgiven {onClose onClose' : Exchange σ → Exchange σ}
    (hclose : ∀ x, onClose' x.forgiven = (onClose x).forgiven) (a : Activity σ) (x : Exchange σ) :
    follow c.forgiving onClose' a x.forgiven =
      ((follow c onClose a x).1, (follow c onClose a x).2.forgiven) := by
  induction a generalizing x with
  | finish link result => rfl
  | deliver octets next ih =>
      rw [follow, follow, ← (abreast_forgiving c).receive rfl octets]
      exact ih (x.receive octets)
  | tellClosed n next ih =>
      rw [follow, follow, ← (abreast_forgiving c).linkClosed rfl n]
      exact ih (x.linkClosed c n)
  | closeClient link next ih =>
      have hmove : onClose' { x.forgiven with link := link } = (onClose { x with link := link }).forgiven :=
        hclose { x with link := link }
      simp only [follow, hmove]
      exact ih _ (onClose { x with link := link })
  | observe next ih => exact ih x.phase x

/-- If the activity is made to succeed, all that is lost is its result. -/
theorem follow_succeeding (a : Activity σ) (x : Exchange σ) :
    follow c.forgiving id a.succeeding x.forgiven = (.ok (), (follow c id a x).2.forgiven) := by
  induction a generalizing x with
  | finish link result => rfl
  | deliver octets next ih =>
      rw [Activity.succeeding, follow, follow, ← (abreast_forgiving c).receive rfl octets]
      exact ih (x.receive octets)
  | tellClosed n next ih =>
      rw [Activity.succeeding, follow, follow, ← (abreast_forgiving c).linkClosed rfl n]
      exact ih (x.linkClosed c n)
  | closeClient link next ih => exact ih link { x with link := link }
  | observe next ih => exact ih x.phase x

theorem forgiven_release (x : Exchange σ) : (release c x).forgiven = release c.forgiving x.forgiven := by
  have hgo : (x.forgiven.abandonArrivals .cleared).note .released
      = ((x.abandonArrivals .cleared).note .released).forgiven := by
    simp [forgiven, abandonArrivals, clearArrivals, note, Happening.isReleaseFault]
  have hfollow : follow c.forgiving id (c.forgiving.link.close x.forgiven.link)
      ((x.abandonArrivals .cleared).note .released).forgiven =
        (.ok (), (follow c id (c.link.close x.link) ((x.abandonArrivals .cleared).note .released)).2.forgiven) :=
    follow_succeeding c (c.link.close x.link) _
  rw [release, release, hgo, hfollow]
  rcases follow c id (c.link.close x.link) ((x.abandonArrivals .cleared).note .released) with ⟨r, y⟩
  cases r with
  | ok _ => rfl
  | error e => exact forgiven_releaseFailed y e

theorem forgiven_close (x : Exchange σ) : (x.close c).forgiven = x.forgiven.close c.forgiving :=
  (abreast_forgiving c).close rfl fun hx => hx ▸ forgiven_release c _

theorem send_forgiven (x : Exchange σ) (f : Frame) (confirmed : Bool) :
    x.forgiven.send c.forgiving f confirmed = ((x.send c f confirmed).1, (x.send c f confirmed).2.forgiven) := by
  have hsame : c.forgiving.attachment.transmission f confirmed = c.attachment.transmission f confirmed := rfl
  cases ht : c.attachment.transmission f confirmed with
  | error e => rw [send_of_error c ht, send_of_error c.forgiving (hsame.trans ht)]
  | ok t =>
      rw [send_of_transmission c ht, send_of_transmission c.forgiving (hsame.trans ht),
        ← forgiven_note x rfl]
      exact follow_forgiven c (fun y => (forgiven_close c y).symm) _ _

end Exchange

/-- Whatever is done over a link has its counterpart over the forgiving one. -/
theorem parallel_forgiving (c : Connection σ) : Parallel c c.forgiving (fun x x' => x.forgiven = x') Eq :=
  .of_image (Exchange.abreast_forgiving c) rfl (fun x _ => Exchange.forgiven_note x rfl) (Exchange.forgiven_release c)
    (Exchange.send_forgiven c)

def Client.forgiven (k : Client σ) : Client σ := { k with exchange := k.exchange.forgiven }

def Opening.forgiven : Opening σ → Opening σ
  | opened k => opened k.forgiven
  | failed e x => failed e x.forgiven

namespace Client

variable (c : Connection σ)

/-- Over the forgiving link an opening comes to the same end. -/
theorem start_forgiven (link : σ) : start c.forgiving link = (start c link).forgiven := by
  have himage : start c.forgiving link = (start c link).map Exchange.forgiven := (parallel_forgiving c).start_eq rfl
  rw [himage]
  cases start c link <;> rfl

/-- Over the forgiving link a run gives the same replies and comes to the same end. -/
theorem run_forgiven (k : Client σ) (calls : List Call) :
    k.forgiven.run c.forgiving calls = ((k.run c calls).1, (k.run c calls).2.forgiven) :=
  (parallel_forgiving c).run_eq k calls

end Client

end BusManagement
