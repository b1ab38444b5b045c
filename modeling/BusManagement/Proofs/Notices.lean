import BusManagement.Proofs.Resets
import BusManagement.Proofs.Simulated

/-! What the caller hears of the closing of the link. Each time the link tells that it is closed, the caller
hears of it once and in that order. Until a search has met a reset indication the words are those of the link;
from then on they are always those of the reset. Since a client takes note of a reset before it releases the link
for it, that holds already of what the link tells while it is being released. -/

namespace BusManagement

open Simulation (Scripted)

variable {σ : Type}

namespace Activity

/-- What a link tells of its closing in the course of an activity, if the client is closed and stays in its
phase. -/
def tellings (p : Phase) : Activity σ → List ClosingNotice
  | finish _ _ => []
  | deliver _ next => next.tellings p
  | tellClosed n next => n :: next.tellings p
  | closeClient link next => (next link).tellings p
  | observe next => (next p).tellings p

/-- The state in which such an activity leaves the link. -/
def ending (p : Phase) : Activity σ → σ
  | finish link _ => link
  | deliver _ next => next.ending p
  | tellClosed _ next => next.ending p
  | closeClient link next => (next link).ending p
  | observe next => (next p).ending p

/-- What a link tells in the course of an activity that begins in any phase. Whoever closes an open client has the
link closed in between, and that is an activity of its own. -/
def tellingsOf (l : Link σ) (p : Phase) : Activity σ → List ClosingNotice
  | finish _ _ => []
  | deliver _ next => next.tellingsOf l p
  | tellClosed n next => n :: next.tellingsOf l p.close
  | closeClient link next =>
    if p.isOpen then
      (l.close link).tellings p.close ++ (next ((l.close link).ending p.close)).tellingsOf l p.close
    else (next link).tellingsOf l p
  | observe next => (next p).tellingsOf l p

end Activity

/-- Closing alone does not change the words. -/
theorem Phase.forward_close (p : Phase) (n : ClosingNotice) : p.close.forward n = p.forward n := by
  cases p <;> rfl

/-- What the caller has to hear because of a happening. -/
def Happening.owed (p : Phase) : Happening → List ClosingNotice
  | .linkClosed n _ => [p.forward n]
  | _ => []

namespace Chronicle

/-- What the link has told of its closing, in its own words. -/
def told (h : Chronicle) : List ClosingNotice :=
  h.filterMap fun
    | .linkClosed n _ => some n
    | _ => none

/-- What the caller has to hear because of what happens from a phase on. -/
def owed (p : Phase) : Chronicle → List ClosingNotice
  | [] => []
  | h :: hs => h.owed p ++ owed (p.after h) hs

@[simp] theorem notices_append (h hs : Chronicle) : notices (h ++ hs) = h.notices ++ hs.notices :=
  List.filterMap_append

@[simp] theorem told_append (h hs : Chronicle) : told (h ++ hs) = h.told ++ hs.told := List.filterMap_append

@[simp] theorem told_discarded (passed : List Frame) : told (passed.map .discarded) = [] := by
  induction passed with
  | nil => rfl
  | cons _ _ ih => exact ih

@[simp] theorem notices_discarded (passed : List Frame) : notices (passed.map .discarded) = [] := by
  induction passed with
  | nil => rfl
  | cons _ _ ih => exact ih

theorem owed_append (p : Phase) (h hs : Chronicle) :
    owed p (h ++ hs) = owed p h ++ owed (h.foldl Phase.after p) hs := by
  induction h generalizing p with
  | nil => rfl
  | cons k h ih => rw [List.cons_append, owed, owed, ih, List.append_assoc, List.foldl_cons]

@[simp] theorem owed_discarded (p : Phase) (passed : List Frame) : owed p (passed.map .discarded) = [] := by
  induction passed with
  | nil => rfl
  | cons _ _ ih => exact ih

/-- Once a reset was seen, everything that the link tells becomes that reset. -/
theorem owed_of_sawReset {p : Phase} (hp : p.sawReset = true) (h : Chronicle) :
    owed p h = List.replicate h.told.length .afterReset := by
  induction h generalizing p with
  | nil => rfl
  | cons k h ih =>
      have hafter : (p.after k).sawReset = true := by
        cases k <;> first | exact hp | simp [Phase.after, hp]
      rw [owed, ih hafter]
      cases k with
      | linkClosed n forwarded => simp [Happening.owed, told, Phase.forward, hp, List.replicate_succ]
      | _ => rfl

/-- Until a reset is seen, everything is passed on as it was told. -/
theorem owed_of_not_mem {p : Phase} (hp : p.sawReset = false) {h : Chronicle} (hn : .resetSeen ∉ h) :
    owed p h = h.told := by
  induction h generalizing p with
  | nil => rfl
  | cons k h ih =>
      obtain ⟨hk, hn⟩ := not_or.mp (List.mem_cons.not.mp hn)
      have hafter : (p.after k).sawReset = false := by
        cases k <;> first | exact hp | exact absurd rfl hk | simp [Phase.after, hp]
      rw [owed, ih hafter hn]
      cases k with
      | linkClosed n forwarded => simp [Happening.owed, told, Phase.forward, hp]
      | _ => rfl

end Chronicle

namespace Exchange

variable {c : Connection σ}

/-! ### Courses -/

/-- The caller has heard all that there was to hear. -/
def Informed (x : Exchange σ) : Prop := x.chronicle.notices = x.chronicle.owed .opened

theorem Informed.extend {x y : Exchange σ} (h : Informed x) (ht : Told x) (hs : Chronicle)
    (hc : y.chronicle = x.chronicle ++ hs) (hn : hs.notices = hs.owed x.phase) : Informed y := by
  rw [ht.phase] at hn
  rw [Informed, hc, Chronicle.notices_append, Chronicle.owed_append, h, hn]
  rfl

theorem notices_closingNotes (hc : c.config.hearsClosing = true) (x : Exchange σ) (n : ClosingNotice) :
    (closingNotes c x n).notices = [x.phase.forward n] := by
  cases ho : x.isOpen <;> simp [closingNotes, hc, ho, Chronicle.notices]

theorem owed_closingNotes (hc : c.config.hearsClosing = true) (x : Exchange σ) (n : ClosingNotice) :
    (closingNotes c x n).owed x.phase = [x.phase.forward n] := by
  cases ho : x.isOpen <;>
    simp [closingNotes, hc, ho, Chronicle.owed, Happening.owed, Phase.after, Phase.forward_close]

theorem notices_of_isRemark {h : Happening} (hr : h.isRemark = true) : Chronicle.notices [h] = [] := by
  cases h <;> first | rfl | cases hr

theorem owed_of_isRemark {h : Happening} (hr : h.isRemark = true) (p : Phase) :
    Chronicle.owed p [h] = [] := by
  cases h <;> first | rfl | cases hr

theorem Informed.flight (hc : c.config.hearsClosing = true) {x y : Exchange σ} (h : Informed x) (ht : Told x)
    (hf : Flight c x y) : Informed y := by
  cases hf with
  | settle link => exact h
  | remark k hr => exact h.extend ht [k] rfl (by rw [notices_of_isRemark hr, owed_of_isRemark hr])
  | receive f => exact h.extend ht [.received f] rfl rfl
  | linkClosed n =>
      rw [linkClosed_eq]
      exact h.extend ht (closingNotes c x n) rfl (by rw [notices_closingNotes hc, owed_closingNotes hc])
  | close cause ho hcause =>
      exact h.extend ht [.closing cause, .cleared x.arrivals.size, .released] (by simp [letGo]) rfl

theorem Informed.searched {x : Exchange σ} (h : Informed x) (ht : Told x) (passed left : List Frame) :
    Informed (x.searched passed left) :=
  h.extend ht (passed.map .discarded) rfl (by simp)

theorem Informed.step (hc : c.config.hearsClosing = true) {x y : Exchange σ} (h : Informed x) (ht : Told x)
    (hs : Step c x y) : Informed y := by
  cases hs with
  | flight hflight => exact h.flight hc ht hflight
  | hand t ho => exact h.extend ht [.handed t] rfl rfl
  | take passed f left hf hp => exact h.searched ht passed left
  | exhaust hp => exact h.searched ht x.arrivals.frames []
  | reset passed f left ho hf hp hr =>
      exact (h.searched ht passed left).extend (ht.searched passed left)
        [.resetSeen, .closing .reset, .cleared left.length, .released]
        (by simp [letGo, Exchange.searched, Arrivals.size]) rfl
  | resetLate passed f left ho hf hp hr =>
      exact (h.searched ht passed left).extend (ht.searched passed left) [.resetSeen] rfl rfl

theorem Informed.course (hc : c.config.hearsClosing = true) {x y : Exchange σ} (h : Informed x) (ht : Told x)
    (hcourse : Course c x y) : Informed y ∧ Told y := by
  induction hcourse with
  | refl => exact ⟨h, ht⟩
  | tail _ hstep ih => exact ⟨ih.1.step hc ih.2 hstep, ih.2.step hstep⟩

/-! ### Links -/

/-- From the first exchange to the second the link has told something, and the caller has heard it in the words of
a phase that stays the same as far as words go. -/
structure Hears (x y : Exchange σ) (ns : List ClosingNotice) : Prop where
  words : y.phase.forward = x.phase.forward
  told : y.chronicle.told = x.chronicle.told ++ ns
  notices : y.chronicle.notices = x.chronicle.notices ++ ns.map x.phase.forward

theorem Hears.trans {x y z : Exchange σ} {ns ms : List ClosingNotice} (h : Hears x y ns) (h' : Hears y z ms) :
    Hears x z (ns ++ ms) := by
  refine ⟨h'.words.trans h.words, ?_, ?_⟩
  · rw [h'.told, h.told, List.append_assoc]
  · rw [h'.notices, h.notices, h.words, List.map_append, List.append_assoc]

theorem Hears.settle {x y : Exchange σ} {link : σ} {ns : List ClosingNotice}
    (h : Hears { x with link := link } y ns) : Hears x y ns := ⟨h.words, h.told, h.notices⟩

theorem Hears.of_chronicle {x y : Exchange σ} {ns : List ClosingNotice} (hs : Chronicle)
    (hw : y.phase.forward = x.phase.forward) (hc : y.chronicle = x.chronicle ++ hs) (ht : hs.told = ns)
    (hn : hs.notices = ns.map x.phase.forward) : Hears x y ns := by
  refine ⟨hw, ?_, ?_⟩
  · rw [hc, Chronicle.told_append, ht]
  · rw [hc, Chronicle.notices_append, hn]

theorem hears_note (x : Exchange σ) {h : Happening} (hr : h.isRemark = true) : Hears x (x.note h) [] := by
  refine .of_chronicle [h] rfl rfl ?_ (notices_of_isRemark hr)
  cases h <;> first | rfl | cases hr

theorem hears_receive (x : Exchange σ) (octets : Octets) : Hears x (x.receive octets) [] := by
  cases hd : Frame.decode octets with
  | ok f =>
      rw [receive_of_decode hd]
      exact .of_chronicle [.received f] rfl rfl rfl rfl
  | error e =>
      obtain ⟨h, hr, heq⟩ := receive_of_error hd x
      rw [heq]
      exact hears_note x hr

theorem hears_linkClosed (hc : c.config.hearsClosing = true) (x : Exchange σ) (n : ClosingNotice) :
    Hears x (x.linkClosed c n) [n] := by
  rw [linkClosed_eq]
  refine .of_chronicle (closingNotes c x n) (funext fun _ => Phase.forward_close _ _) rfl ?_
    (notices_closingNotes hc x n)
  cases ho : x.isOpen <;> simp [closingNotes, hc, ho, Chronicle.told]

/-- Nobody closes a closed client, so the link is followed to its end and nothing else happens. -/
theorem hears_follow_id (hc : c.config.hearsClosing = true) (a : Activity σ) {x : Exchange σ}
    (hx : x.isOpen = false) :
    Hears x (follow c id a x).2 (a.tellings x.phase) ∧ (follow c id a x).2.link = a.ending x.phase := by
  induction a generalizing x with
  | finish link result => exact ⟨.of_chronicle [] rfl (List.append_nil _).symm rfl rfl, rfl⟩
  | deliver octets next ih =>
      have hphase := phase_receive x octets
      have hclosed : (x.receive octets).isOpen = false := by rwa [isOpen, hphase]
      obtain ⟨hhears, hlink⟩ := ih hclosed
      rw [hphase] at hhears hlink
      exact ⟨(hears_receive x octets).trans hhears, hlink⟩
  | tellClosed n next ih =>
      have hphase : (x.linkClosed c n).phase = x.phase :=
        InFlight.phase_eq (c := c) (.single (.linkClosed x n)) hx
      have hclosed : (x.linkClosed c n).isOpen = false := by rwa [isOpen, hphase]
      obtain ⟨hhears, hlink⟩ := ih hclosed
      rw [hphase] at hhears hlink
      exact ⟨(hears_linkClosed hc x n).trans hhears, hlink⟩
  | closeClient link next ih =>
      obtain ⟨hhears, hlink⟩ := ih link (x := { x with link := link }) hx
      exact ⟨hhears.settle, hlink⟩
  | observe next ih => exact ih x.phase hx

theorem hears_release (hc : c.config.hearsClosing = true) {x : Exchange σ} (hx : x.isOpen = false) :
    Hears x (release c x) ((c.link.close x.link).tellings x.phase) ∧
      (release c x).link = (c.link.close x.link).ending x.phase := by
  have hgo : Hears x ((x.abandonArrivals .cleared).note .released) [] :=
    .of_chronicle [.cleared x.arrivals.size, .released] rfl (by simp [abandonArrivals, clearArrivals]) rfl rfl
  obtain ⟨hhears, hlink⟩ := hears_follow_id hc (c.link.close x.link)
    (x := (x.abandonArrivals .cleared).note .released) hx
  rw [release]
  split
  · next h =>
      rw [h] at hhears hlink
      exact ⟨hgo.trans hhears, hlink⟩
  · next e y h =>
      rw [h] at hhears hlink
      have hall := (hgo.trans hhears).trans (hears_note y (h := .releaseFailed e) rfl)
      rw [List.append_nil] at hall
      exact ⟨hall, hlink⟩

theorem shut_eq {x : Exchange σ} (ho : x.isOpen = true) (cause : ClosingCause) :
    x.shut cause = { x.note (.closing cause) with phase := x.phase.close } := if_pos ho

theorem phase_close (c : Connection σ) {x : Exchange σ} (ho : x.isOpen = true) :
    (x.close c).phase = x.phase.close := by
  have hrelease := inFlight_release c (x.shut .caller)
  rw [shut_eq ho] at hrelease
  rw [close, if_pos ho, closeFor, if_pos ho, shut_eq ho]
  exact hrelease.phase_eq (Phase.isOpen_close x.phase)

/-- What the link tells while the caller closes the client. -/
theorem hears_close (hc : c.config.hearsClosing = true) {x : Exchange σ} (ho : x.isOpen = true) :
    Hears x (x.close c) ((c.link.close x.link).tellings x.phase.close) ∧
      (x.close c).link = (c.link.close x.link).ending x.phase.close := by
  have hclosing : Hears x { x.note (.closing .caller) with phase := x.phase.close } [] :=
    .of_chronicle [.closing .caller] (funext fun _ => Phase.forward_close _ _) rfl rfl rfl
  obtain ⟨hrelease, hlink⟩ := hears_release hc
    (x := { x.note (.closing .caller) with phase := x.phase.close }) (Phase.isOpen_close x.phase)
  have hall := (hclosing.trans hrelease).trans (hears_note _ (h := .closed) rfl)
  rw [List.append_nil] at hall
  rw [close, if_pos ho, closeFor, if_pos ho, shut_eq ho]
  exact ⟨hall, hlink⟩

/-- What the link tells in the course of an activity is what the caller hears. -/
theorem hears_follow (hc : c.config.hearsClosing = true) (a : Activity σ) (x : Exchange σ) :
    Hears x (follow c (close c) a x).2 (a.tellingsOf c.link x.phase) := by
  induction a generalizing x with
  | finish link result => exact .of_chronicle [] rfl (List.append_nil _).symm rfl rfl
  | deliver octets next ih =>
      have hnext := ih (x.receive octets)
      rw [phase_receive] at hnext
      exact (hears_receive x octets).trans hnext
  | tellClosed n next ih =>
      have hnext := ih (x.linkClosed c n)
      have hphase : (x.linkClosed c n).phase = x.phase.close := by rw [linkClosed_eq]
      rw [hphase] at hnext
      exact (hears_linkClosed hc x n).trans hnext
  | closeClient link next ih =>
      rw [follow, Activity.tellingsOf]
      split_ifs with hp
      · have ho : ({ x with link := link } : Exchange σ).isOpen = true := hp
        obtain ⟨hclose, hlink⟩ := hears_close hc ho
        have hnext := ih (close c { x with link := link }).link (close c { x with link := link })
        rw [phase_close c ho] at hnext
        rw [← hlink]
        exact (hclose.trans hnext).settle
      · have hstays : close c { x with link := link } = { x with link := link } := if_neg hp
        rw [hstays]
        exact (ih link { x with link := link }).settle
  | observe next ih => exact ih x.phase x

/-- Nothing else is heard while a transmission is in flight. -/
theorem hears_send (hc : c.config.hearsClosing = true) (x : Exchange σ) {f : Frame} {confirmed : Bool}
    {t : Transmission} (ht : c.attachment.transmission f confirmed = .ok t) :
    Hears x (x.send c f confirmed).2 ((c.link.send x.link t.octets t.waiting).tellingsOf c.link x.phase) := by
  have hhanded : Hears x (x.note (.handed t)) [] := .of_chronicle [.handed t] rfl rfl rfl rfl
  rw [send_of_transmission c ht]
  exact hhanded.trans (hears_follow hc _ (x.note (.handed t)))

/-- What the link tells while it is released because of a reset has become that reset already. -/
theorem hears_resetSeen (hc : c.config.hearsClosing = true) {x : Exchange σ} (ho : x.isOpen = true) :
    (resetSeen c x).chronicle.told = x.chronicle.told ++ (c.link.close x.link).tellings (.closed true) ∧
      (resetSeen c x).chronicle.notices = x.chronicle.notices ++
        List.replicate ((c.link.close x.link).tellings (.closed true)).length .afterReset := by
  have hrelease := (hears_release hc
    (x := { (x.note .resetSeen).note (.closing .reset) with phase := x.phase.reset }) rfl).1
  have hwords : x.phase.reset.forward = Function.const _ .afterReset := rfl
  have htold := hrelease.told
  have hnotices := hrelease.notices
  rw [hwords, List.map_const] at hnotices
  rw [resetSeen, if_pos ho]
  refine ⟨htold.trans ?_, hnotices.trans ?_⟩
  · simp [Chronicle.told]
    rfl
  · simp [Chronicle.notices]
    rfl

end Exchange

namespace Client

open Exchange (Course Hears)

/-- Whatever happens in a life, the caller hears as often as the link tells of its closing, and in that order: in
the words of the link as long as no search has met a reset indication, and of the reset ever after. The link tells
on its own, while a transmission is in flight, and while it is closed; if it is closed because of a reset, the
words are replaced already. -/
theorem notices_correspond (c : Connection σ) (hc : c.config.hearsClosing = true) (link : σ) :
    (∀ x, Course c (.start link) x →
      (.resetSeen ∉ x.chronicle → x.chronicle.notices = x.chronicle.told) ∧
      ∀ before after : Chronicle, x.chronicle = before ++ .resetSeen :: after → .resetSeen ∉ before →
        x.chronicle.notices = before.told ++ List.replicate after.told.length .afterReset) ∧
    (∀ calls, Course c (.start link) (life c link calls)) ∧
    (∀ x : Exchange σ,
      (∀ n, Hears x (x.linkClosed c n) [n]) ∧
      (∀ f confirmed t, c.attachment.transmission f confirmed = .ok t →
        Hears x (x.send c f confirmed).2 ((c.link.send x.link t.octets t.waiting).tellingsOf c.link x.phase)) ∧
      (x.isOpen = true → Hears x (x.close c) ((c.link.close x.link).tellings (.closed false))) ∧
      ∀ awaited, x.isOpen = true → awaited ≠ .resetIndication → (x.scan c awaited).1 = .error .resetByServer →
        (x.scan c awaited).2.chronicle.told =
          x.chronicle.told ++ (c.link.close x.link).tellings (.closed true) ∧
        (x.scan c awaited).2.chronicle.notices = x.chronicle.notices ++
          List.replicate ((c.link.close x.link).tellings (.closed true)).length .afterReset) ∧
    ClosingNotice.afterReset = ⟨.server, "server reset"⟩ := by
  refine ⟨fun x hx => ?_, course_life c link,
    fun x => ⟨Exchange.hears_linkClosed hc x, fun f confirmed t ht => Exchange.hears_send hc x ht,
      fun ho => ?_, fun awaited ho hr h => ?_⟩, rfl⟩
  · have hinformed : Exchange.Informed x :=
      (Exchange.Informed.course hc (x := .start link) rfl (Exchange.told_start link) hx).1
    refine ⟨fun hn => ?_, fun before after heq hn => ?_⟩
    · exact hinformed.trans (Chronicle.owed_of_not_mem rfl hn)
    · have hsplit : x.chronicle.owed .opened =
          before.owed .opened ++ Chronicle.owed (before.phase.after .resetSeen) after := by
        rw [heq, Chronicle.owed_append]
        rfl
      have hfront : before.owed .opened = before.told := Chronicle.owed_of_not_mem rfl hn
      have hreset : (before.phase.after .resetSeen).sawReset = true := Phase.sawReset_reset before.phase
      rw [hinformed, hsplit, hfront, Chronicle.owed_of_sawReset hreset]
  · have hclose := (Exchange.hears_close hc ho).1
    rwa [Exchange.phase_eq_opened ho] at hclose
  · obtain ⟨passed, f, left, hf, hp, hreset⟩ := (Exchange.scan_eq_resetByServer_iff c x hr).mp h
    have hopen : (x.searched passed left).isOpen = true := ho
    obtain ⟨htold, hnotices⟩ := Exchange.hears_resetSeen hc hopen
    rw [Exchange.scan_reset c hf hp hreset]
    refine ⟨htold.trans ?_, hnotices.trans ?_⟩ <;> simp [Exchange.searched]

end Client

namespace Simulation

/-- A device without an object list. The link breaks while it answers the first transmission after the opening, and
a reset indication comes behind the answer. -/
def Scripted.breaking : Scripted :=
  ⟨⟨none, none, [(⟨ObjectType.cemiServer, 1, PropertyId.commMode⟩, ⟨[0], true⟩)]⟩, false,
    [⟨true, [], [], none, [], .ok ()⟩,
      ⟨true, [], [], some ⟨.internal, "link lost"⟩, [.receive [0xf0]], .ok ()⟩],
    none, some ⟨.client, "client request"⟩, 0, true, []⟩

/-- A read, an attempt to close, and a late notice of the link. -/
def Scripted.breakingCalls : List Call :=
  [.get 1 PropertyId.commMode 1 1, .close, .linkClosed ⟨.client, "client request"⟩]

end Simulation

/-- The link breaks in the middle of a read, whose search then meets a reset indication. What the link told before
stays as it was; what it tells afterwards is replaced. -/
theorem Client.notices_correspond_broken :
    (Scripted.connection ⟨false, true⟩).config.hearsClosing = true ∧
      (life (Scripted.connection ⟨false, true⟩) .breaking Scripted.breakingCalls).chronicle.told =
        [⟨.internal, "link lost"⟩, ⟨.client, "client request"⟩] ∧
      (life (Scripted.connection ⟨false, true⟩) .breaking Scripted.breakingCalls).chronicle.notices =
        [⟨.internal, "link lost"⟩, .afterReset] := by
  obtain ⟨hcourse, hlife, -⟩ := notices_correspond (Scripted.connection ⟨false, true⟩) rfl .breaking
  let h := (life (Scripted.connection ⟨false, true⟩) .breaking Scripted.breakingCalls).chronicle
  have hsplit : h = h.take 13 ++ .resetSeen :: h.drop 14 := by decide +kernel
  have hfirst : .resetSeen ∉ h.take 13 := by decide +kernel
  have hnotices := (hcourse _ (hlife Scripted.breakingCalls)).2 (h.take 13) (h.drop 14) hsplit hfirst
  refine ⟨rfl, rfl, hnotices.trans ?_⟩
  decide +kernel

end BusManagement
