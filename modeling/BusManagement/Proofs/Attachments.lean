import BusManagement.Client.Text
import BusManagement.Proofs.Notices
import BusManagement.Proofs.Release

/-! Two attachments of one device. They name the client differently and wait for different things when no
confirmation is waited for. A link that does not care what is waited for cannot tell them apart: it gets the same
octets in the same order and answers in the same way, so two clients that are asked the same are in the same state
after every call. What is left of the difference is how the request to reset is sent, and the name in the fault of
a closed client and in what is shown to developers. -/

namespace BusManagement

open Simulation (Scripted)

variable {σ α β : Type}

/-- The link does the same whatever is waited for. -/
def Link.IgnoresWaiting (l : Link σ) : Prop :=
  ∀ s octets w w', l.send s octets w = l.send s octets w'

/-- The same link and the same wishes, with the device attached in this way. -/
def Connection.through (c : Connection σ) (a : Attachment) : Connection σ := { c with attachment := a }

/-- The same fault, or that of a closed client under the name that it has on either side. -/
inductive Fault.Reworded (name name' : String) : Fault → Fault → Prop
  | same (e : Fault) : Reworded name name' e e
  | closed : Reworded name name' (.closed name) (.closed name')

/-- The same happening, or the same with what differs between the attachments. -/
inductive Happening.Mirrors (c c' : Connection σ) : Happening → Happening → Prop
  | same (h : Happening) (hh : ∀ t, h = .handed t → t.octets ≠ [0xf1]) : Mirrors c c' h h
  | reset : Mirrors c c' (.handed ⟨[0xf1], c.attachment.waiting false⟩) (.handed ⟨[0xf1], c'.attachment.waiting false⟩)
  | discoveryFailed {e e' : Fault} (he : Fault.Reworded c.name c'.name e e') :
      Mirrors c c' (.discoveryFailed e) (.discoveryFailed e')

/-- One exchange is in the state of the other, and the same has happened to both. -/
structure Exchange.Mirrors (c c' : Connection σ) (x x' : Exchange σ) : Prop where
  link : x'.link = x.link
  arrivals : x'.arrivals = x.arrivals
  phase : x'.phase = x.phase
  chronicle : List.Forall₂ (Happening.Mirrors c c') x.chronicle x'.chronicle

/-- The same octets. When they ask for a reset, each side waits for what its attachment has to wait for. -/
structure Transmission.Mirrors (a a' : Attachment) (t t' : Transmission) : Prop where
  octets : t'.octets = t.octets
  reset : t.octets = [0xf1] → t.waiting = a.waiting false ∧ t'.waiting = a'.waiting false
  rest : t.octets ≠ [0xf1] → t'.waiting = t.waiting

theorem Happening.Mirrors.unsent {c c' : Connection σ} {h : Happening} (hh : ∀ t, h ≠ .handed t) : Mirrors c c' h h :=
  .same h fun t ht => absurd ht (hh t)

/-- A request has more octets than a request to reset. -/
theorem Frame.encode_ne_reset {f : Frame} {awaited : Service} (hs : f.service.confirmation? = some awaited)
    {octets : Octets} (he : f.encode = .ok octets) : octets ≠ [0xf1] := by
  obtain ⟨-, -, rfl⟩ := (encode_eq_ok_iff (Service.hasHeader_of_confirmation? hs)).mp he
  simp [layout]

theorem Fault.Reworded.kind {name name' : String} {e e' : Fault} (h : Reworded name name' e e') :
    e'.kind = e.kind := by
  cases h <;> rfl

theorem Fault.Reworded.eq_of_isRemote {name name' : String} {e e' : Fault} (h : Reworded name name' e e')
    (hr : e.isRemote = true) : e' = e := by
  cases h with
  | same e => rfl
  | closed => cases hr

/-! ### What can be seen from outside -/

namespace Chronicle

variable {c c' : Connection σ} {h h' : Chronicle}

theorem transmissions_of_mirrors (hh : List.Forall₂ (Happening.Mirrors c c') h h') :
    List.Forall₂ (Transmission.Mirrors c.attachment c'.attachment) h.transmissions h'.transmissions := by
  refine List.rel_filterMap (fun k k' hk => ?_) hh
  cases hk with
  | reset => exact .some ⟨rfl, fun _ => ⟨rfl, rfl⟩, fun hne => absurd rfl hne⟩
  | discoveryFailed he => exact .none
  | same _ hne =>
      cases k with
      | handed t => exact .some ⟨rfl, fun h => absurd h (hne t rfl), fun _ => rfl⟩
      | _ => exact .none

/-- What is not about transmissions is the same on either side. -/
theorem filterMap_of_mirrors {g : Happening → Option β} (hreset : ∀ t, g (.handed t) = none)
    (hfailed : ∀ e, g (.discoveryFailed e) = none) (hh : List.Forall₂ (Happening.Mirrors c c') h h') :
    h'.filterMap g = h.filterMap g := by
  induction hh with
  | nil => rfl
  | cons hk _ ih =>
      cases hk with
      | same => rw [List.filterMap_cons, List.filterMap_cons, ih]
      | reset => rw [List.filterMap_cons, List.filterMap_cons, hreset, hreset, ih]
      | discoveryFailed he => rw [List.filterMap_cons, List.filterMap_cons, hfailed, hfailed, ih]

theorem releases_of_mirrors (hh : List.Forall₂ (Happening.Mirrors c c') h h') : h'.releases = h.releases := by
  induction hh with
  | nil => rfl
  | cons hk _ ih =>
      simp only [releases] at ih ⊢
      cases hk <;> simp [List.count_cons, ih]

end Chronicle

namespace Exchange

variable {c c' : Connection σ} {x x' : Exchange σ}

theorem Mirrors.isOpen (h : Mirrors c c' x x') : x'.isOpen = x.isOpen := by
  rw [Exchange.isOpen, Exchange.isOpen, h.phase]

theorem mirrors_start (c c' : Connection σ) (link : σ) : Mirrors c c' (start link) (start link) :=
  ⟨rfl, rfl, rfl, .nil⟩

/-- Both exchanges go on with what mirrors each other. -/
theorem Mirrors.extend (h : Mirrors c c' x x') {y y' : Exchange σ} {hs hs' : Chronicle} (hlink : y'.link = y.link)
    (harrivals : y'.arrivals = y.arrivals) (hphase : y'.phase = y.phase) (hc : y.chronicle = x.chronicle ++ hs)
    (hc' : y'.chronicle = x'.chronicle ++ hs') (hhs : List.Forall₂ (Happening.Mirrors c c') hs hs') :
    Mirrors c c' y y' := by
  refine ⟨hlink, harrivals, hphase, ?_⟩
  rw [hc, hc']
  exact List.rel_append h.chronicle hhs

theorem Mirrors.noteBoth (h : Mirrors c c' x x') {k k' : Happening} (hk : Happening.Mirrors c c' k k') :
    Mirrors c c' (x.note k) (x'.note k') :=
  h.extend h.link h.arrivals h.phase rfl rfl (.cons hk .nil)

theorem Mirrors.note (h : Mirrors c c' x x') {k : Happening} (hk : ∀ t, k ≠ .handed t) :
    Mirrors c c' (x.note k) (x'.note k) :=
  h.noteBoth (.unsent hk)

theorem Mirrors.settle (h : Mirrors c c' x x') (link : σ) :
    Mirrors c c' { x with link := link } { x' with link := link } :=
  ⟨rfl, h.arrivals, h.phase, h.chronicle⟩

/-- What is about no call on the link is the same on either side. -/
theorem abreast_mirrors (hconfig : c'.config = c.config) : Abreast c c' (Mirrors c c') where
  config := hconfig
  arrivals h := h.arrivals
  phase h := h.phase
  proceed b p hhs h := by
    refine h.extend h.link rfl rfl rfl rfl (List.forall₂_same.mpr fun k hk => .unsent fun t ht => ?_)
    have hsame := hhs k hk
    rw [ht] at hsame
    cases hsame

/-- What a link does, it does to both. -/
theorem Mirrors.follow (hA : Abreast c c' (Mirrors c c')) {onClose onClose' : Exchange σ → Exchange σ}
    (hclose : ∀ {y y'}, Mirrors c c' y y' → Mirrors c c' (onClose y) (onClose' y')) (a : Activity σ)
    (h : Mirrors c c' x x') :
    Paired Eq (Mirrors c c') (Exchange.follow c onClose a x) (Exchange.follow c' onClose' a x') := by
  induction a generalizing x x' with
  | finish link result =>
      cases result with
      | ok _ => exact .ok () (h.settle link)
      | error e => exact .error rfl (h.settle link)
  | deliver octets next ih => exact ih (hA.receive h octets)
  | tellClosed n next ih => exact ih (hA.linkClosed h n)
  | closeClient link next ih =>
      have hmove := hclose (h.settle link)
      rw [Exchange.follow, Exchange.follow, hmove.link]
      exact ih _ hmove
  | observe next ih =>
      rw [Exchange.follow, Exchange.follow, h.phase]
      exact ih x.phase h

theorem Mirrors.release (hA : Abreast c c' (Mirrors c c')) (hlink : c'.link = c.link) (h : Mirrors c c' x x') :
    Mirrors c c' (release c x) (release c' x') := by
  have hgo := (hA.abandonArrivals h (k := .cleared) fun _ => rfl).note (k := .released) (by simp)
  have hclose : ∀ {y y' : Exchange σ}, Mirrors c c' y y' → Mirrors c c' (id y) (id y') := fun h => h
  have hfollow := hgo.follow hA hclose (c.link.close x.link)
  rw [Exchange.release, Exchange.release, hlink, h.link]
  generalize Exchange.follow c id (c.link.close x.link) _ = o at hfollow ⊢
  generalize Exchange.follow c' id (c.link.close x.link) _ = o' at hfollow ⊢
  cases hfollow with
  | ok _ hy => exact hy
  | error he hy =>
      rw [← he]
      exact hy.note (by simp)

/-- Once octets are handed over, the link does the same on either side. -/
theorem Mirrors.send (hA : Abreast c c' (Mirrors c c')) (hlink : c'.link = c.link) (hl : c.link.IgnoresWaiting)
    (h : Mirrors c c' x x') (f : Frame) (confirmed : Bool)
    (hhanded : ∀ octets, f.encode = .ok octets → Happening.Mirrors c c'
      (.handed ⟨octets, c.attachment.waiting confirmed⟩) (.handed ⟨octets, c'.attachment.waiting confirmed⟩)) :
    Paired Eq (Mirrors c c') (x.send c f confirmed) (x'.send c' f confirmed) := by
  cases he : f.encode with
  | error e =>
      have ht (a : Attachment) : a.transmission f confirmed = .error e := by rw [Attachment.transmission, he]
      rw [send_of_error c (ht _), send_of_error c' (ht _)]
      exact .error rfl h
  | ok octets =>
      have ht (a : Attachment) : a.transmission f confirmed = .ok ⟨octets, a.waiting confirmed⟩ := by
        rw [Attachment.transmission, he]
      rw [send_of_transmission c (ht _), send_of_transmission c' (ht _), hlink, h.link,
        hl x.link octets (c'.attachment.waiting confirmed) (c.attachment.waiting confirmed)]
      exact (h.noteBoth (hhanded octets he)).follow hA (fun h => hA.close h fun hx => hx.release hA hlink) _

theorem Mirrors.sendRequest (hA : Abreast c c' (Mirrors c c')) (hlink : c'.link = c.link)
    (hl : c.link.IgnoresWaiting) (h : Mirrors c c' x x') {f : Frame} {awaited : Service}
    (hs : f.service.confirmation? = some awaited) :
    Paired Eq (Mirrors c c') (x.send c f true) (x'.send c' f true) := by
  have hwaiting : c'.attachment.waiting true = c.attachment.waiting true := by
    cases c.attachment <;> cases c'.attachment <;> rfl
  refine h.send hA hlink hl f true fun octets he => ?_
  rw [hwaiting]
  refine .same _ fun t ht => ?_
  obtain rfl := Happening.handed.inj ht
  exact Frame.encode_ne_reset hs he

theorem Mirrors.sendReset (hA : Abreast c c' (Mirrors c c')) (hlink : c'.link = c.link) (hl : c.link.IgnoresWaiting)
    (h : Mirrors c c' x x') :
    Paired Eq (Mirrors c c') (x.send c (.bare .resetRequest) false) (x'.send c' (.bare .resetRequest) false) := by
  refine h.send hA hlink hl (.bare .resetRequest) false fun octets he => ?_
  obtain rfl : [0xf1] = octets := Except.ok.inj he
  exact .reset

end Exchange

open Exchange (Mirrors)

/-- Whatever is done through one attachment has its counterpart through the other. -/
theorem parallel_mirrors {c c' : Connection σ} (hlink : c'.link = c.link) (hconfig : c'.config = c.config)
    (hl : c.link.IgnoresWaiting) :
    Parallel c c' (Mirrors c c') (Fault.Reworded c.name c'.name) where
  toAbreast := Exchange.abreast_mirrors hconfig
  refl e := .same e
  closedFault := .closed
  kind he := he.kind
  remote he hr := he.eq_of_isRemote hr
  discoveryFailed he hx := hx.noteBoth (.discoveryFailed he)
  release hx := hx.release (Exchange.abreast_mirrors hconfig) hlink
  send _ _ hs hx := hx.sendRequest (Exchange.abreast_mirrors hconfig) hlink hl hs
  sendReset hx := hx.sendReset (Exchange.abreast_mirrors hconfig) hlink hl

/-- What can be seen from outside of two exchanges that mirror each other. -/
structure Exchange.Resembles (c c' : Connection σ) (x x' : Exchange σ) : Prop extends Mirrors c c' x x' where
  isOpen : x'.isOpen = x.isOpen
  sawReset : x'.phase.sawReset = x.phase.sawReset
  octets : x'.chronicle.transmissions.map (·.octets) = x.chronicle.transmissions.map (·.octets)
  waiting : List.Forall₂ (Transmission.Mirrors c.attachment c'.attachment) x.chronicle.transmissions
    x'.chronicle.transmissions
  told : x'.chronicle.told = x.chronicle.told
  notices : x'.chronicle.notices = x.chronicle.notices
  closings : x'.chronicle.closings = x.chronicle.closings
  releases : x'.chronicle.releases = x.chronicle.releases

theorem Transmission.octets_of_mirrors {a a' : Attachment} {ts ts' : List Transmission}
    (h : List.Forall₂ (Transmission.Mirrors a a') ts ts') : ts'.map (·.octets) = ts.map (·.octets) := by
  have hmap : List.Forall₂ Eq (ts.map (·.octets)) (ts'.map (·.octets)) :=
    List.rel_map (fun _ _ ht => ht.octets.symm) h
  rw [List.forall₂_eq_eq_eq] at hmap
  exact hmap.symm

theorem Exchange.Mirrors.resembles {c c' : Connection σ} {x x' : Exchange σ} (h : Mirrors c c' x x') :
    Exchange.Resembles c c' x x' where
  toMirrors := h
  isOpen := h.isOpen
  sawReset := by rw [h.phase]
  octets := Transmission.octets_of_mirrors (Chronicle.transmissions_of_mirrors h.chronicle)
  waiting := Chronicle.transmissions_of_mirrors h.chronicle
  told := Chronicle.filterMap_of_mirrors (fun _ => rfl) (fun _ => rfl) h.chronicle
  notices := Chronicle.filterMap_of_mirrors (fun _ => rfl) (fun _ => rfl) h.chronicle
  closings := Chronicle.filterMap_of_mirrors (fun _ => rfl) (fun _ => rfl) h.chronicle
  releases := Chronicle.releases_of_mirrors h.chronicle

theorem Client.Alike.imp {S T : Exchange σ → Exchange σ → Prop} (hST : ∀ {x x'}, S x x' → T x x')
    {k k' : Client σ} (h : k.Alike S k') : k.Alike T k' :=
  ⟨h.objects, h.bookmark, hST h.exchange⟩

theorem Opening.Alike.imp {S T : Exchange σ → Exchange σ → Prop} {E : Fault → Fault → Prop}
    (hST : ∀ {x x'}, S x x' → T x x') {o o' : Opening σ} (h : Opening.Alike S E o o') : Opening.Alike T E o o' := by
  cases h with
  | opened h => exact .opened (h.imp hST)
  | failed he h => exact .failed he (hST h)

namespace Client

/-- The texts of two clients that are alike are the same but for the name, whatever characters are hidden in it. -/
theorem text_of_alike {c c' : Connection σ} (hconfig : c'.config = c.config) {k k' : Client σ}
    (h : k.Alike (Mirrors c c') k') :
    ∃ before after, ∀ hidden, k.text c hidden = before ++ Text.quoted hidden c.name ++ after ∧
      k'.text c' hidden = before ++ Text.quoted hidden c'.name ++ after := by
  have hphase : k'.exchange.phase = k.exchange.phase := h.exchange.phase
  have htext (d : Connection σ) (l : Client σ) (hidden : Char → Bool) : l.text d hidden =
      "DeviceManagement \x7b " ++ ("name: " ++ Text.quoted hidden d.name ++ ", " ++
        ("state: " ++ l.exchange.phase.text) ++ ", " ++ ("directory: " ++ l.objects.text) ++ ", " ++
        ("query_write_enable: " ++ toString d.config.probesWriting)) ++ " \x7d" := rfl
  refine ⟨"DeviceManagement \x7b " ++ "name: ", ", " ++ ("state: " ++ k.exchange.phase.text) ++ ", " ++
    ("directory: " ++ k.objects.text) ++ ", " ++ ("query_write_enable: " ++ toString c.config.probesWriting) ++
    " \x7d", fun hidden => ⟨?_, ?_⟩⟩
  · rw [htext]
    simp only [String.append_assoc]
  · rw [htext, hconfig, hphase, h.objects]
    simp only [String.append_assoc]

/-- Over a link that does the same whatever is waited for, a client of a device that is attached directly and one of
the same device over a network do the same: the opening comes to the same end, and then, whatever is asked of both,
they give the same replies, and at every step they have the same objects, the same bookmark and the same phase, have
handed over the same octets, have released the link as often and have told the caller the same. What is left of the
difference is the name, and what is waited for after a request to reset. -/
theorem attachments_interchangeable (c : Connection σ) (hl : c.link.IgnoresWaiting) (link : σ) :
    (c.through .direct).name = "local device management " ++ c.link.name ∧
    (c.through .network).name = "KNXnet/IP DM " ++ c.link.name ∧
    Attachment.direct.waiting false = .none ∧ Attachment.network.waiting false = .acknowledgement ∧
    Opening.Alike (Exchange.Resembles (c.through .direct) (c.through .network))
      (Fault.Reworded (c.through .direct).name (c.through .network).name)
      (start (c.through .direct) link) (start (c.through .network) link) ∧
    ∀ k k', start (c.through .direct) link = .opened k → start (c.through .network) link = .opened k' → ∀ calls,
      List.Forall₂ (Agree (Fault.Reworded (c.through .direct).name (c.through .network).name))
        (k.run (c.through .direct) calls).1 (k'.run (c.through .network) calls).1 ∧
      ∀ i, (k.before (c.through .direct) calls i).Alike
          (Exchange.Resembles (c.through .direct) (c.through .network)) (k'.before (c.through .network) calls i) ∧
        ∃ before after, ∀ hidden,
          (k.before (c.through .direct) calls i).text (c.through .direct) hidden =
            before ++ Text.quoted hidden (c.through .direct).name ++ after ∧
          (k'.before (c.through .network) calls i).text (c.through .network) hidden =
            before ++ Text.quoted hidden (c.through .network).name ++ after := by
  have hparallel : Parallel (c.through .direct) (c.through .network) (Mirrors _ _) (Fault.Reworded _ _) :=
    parallel_mirrors rfl rfl hl
  have hstart := hparallel.start (Exchange.mirrors_start _ _ link)
  refine ⟨rfl, rfl, rfl, rfl, hstart.imp Mirrors.resembles, fun k k' hk hk' calls => ?_⟩
  rw [hk, hk'] at hstart
  cases hstart with
  | opened halike =>
      refine ⟨(hparallel.run halike calls).1, fun i => ?_⟩
      have hbefore : (k.before (c.through .direct) calls i).Alike (Mirrors (c.through .direct) (c.through .network))
          (k'.before (c.through .network) calls i) := (hparallel.run halike (calls.take i)).2
      have hconfig : (c.through .network).config = (c.through .direct).config := rfl
      have htext := text_of_alike hconfig hbefore
      exact ⟨hbefore.imp Mirrors.resembles, htext⟩

/-- The simulated device cannot tell the attachments apart; its clients ask for a reset, and once closed they
complain, each under its own name. -/
theorem attachments_interchangeable_modeAndMedium :
    ∃ k k', start ((Scripted.connection .plain).through .direct) .modeAndMedium = .opened k ∧
      start ((Scripted.connection .plain).through .network) .modeAndMedium = .opened k' ∧
      List.Forall₂ (Agree (Fault.Reworded "local device management a" "KNXnet/IP DM a"))
        (k.run ((Scripted.connection .plain).through .direct)
          [.get 1 PropertyId.commMode 1 1, .reset, .close, .get 1 PropertyId.commMode 1 1]).1
        (k'.run ((Scripted.connection .plain).through .network)
          [.get 1 PropertyId.commMode 1 1, .reset, .close, .get 1 PropertyId.commMode 1 1]).1 ∧
      (k'.run ((Scripted.connection .plain).through .network)
          [.get 1 PropertyId.commMode 1 1, .reset, .close, .get 1 PropertyId.commMode 1 1]).1 =
        [.ok (.data [0]), .ok .done, .ok .silence, .error (.closed "KNXnet/IP DM a")] ∧
      (k.run ((Scripted.connection .plain).through .direct) [.reset]).2.exchange.chronicle.transmissions.getLast? =
        some ⟨[0xf1], .none⟩ ∧
      (k'.run ((Scripted.connection .plain).through .network) [.reset]).2.exchange.chronicle.transmissions.getLast? =
        some ⟨[0xf1], .acknowledgement⟩ := by
  obtain ⟨k, hk, hreset⟩ : ∃ k, start ((Scripted.connection .plain).through .direct) .modeAndMedium = .opened k ∧
      (k.run ((Scripted.connection .plain).through .direct) [.reset]).2.exchange.chronicle.transmissions.getLast? =
        some ⟨[0xf1], .none⟩ := ⟨_, rfl, rfl⟩
  obtain ⟨k', hk', hreset', hreplies⟩ :
      ∃ k', start ((Scripted.connection .plain).through .network) .modeAndMedium = .opened k' ∧
        (k'.run ((Scripted.connection .plain).through .network) [.reset]).2.exchange.chronicle.transmissions.getLast? =
          some ⟨[0xf1], .acknowledgement⟩ ∧
        (k'.run ((Scripted.connection .plain).through .network)
          [.get 1 PropertyId.commMode 1 1, .reset, .close, .get 1 PropertyId.commMode 1 1]).1 =
            [.ok (.data [0]), .ok .done, .ok .silence, .error (.closed "KNXnet/IP DM a")] :=
    ⟨_, rfl, rfl, rfl⟩
  have hignores : (Scripted.connection .plain).link.IgnoresWaiting := fun _ _ _ _ => rfl
  obtain ⟨-, -, -, -, -, hsame⟩ := attachments_interchangeable _ hignores Scripted.modeAndMedium
  exact ⟨k, k', hk, hk', (hsame k k' hk hk' _).1, hreplies, hreset, hreset'⟩

end Client

end BusManagement
