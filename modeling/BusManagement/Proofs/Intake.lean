import BusManagement.Proofs.Simulated

/-! The way of frames through the arrivals. Octets are looked at twice before they join: by their first octet, which
tells the family, and by the decoder. The first look lets everything pass that the second accepts, so what joins is
what can be decoded. Frames leave at the other end, one by one to a search, or all at once when the client lets go of
its link or hears of its closing. However all this is mixed, what has left and what still waits make up what was
delivered, in the order in which it was. -/

namespace BusManagement

open Simulation (Scripted)

variable {σ : Type}

namespace Arrivals

/-- Takes out one frame after the other until none is left. -/
def drain (b : Arrivals) : List Frame × Arrivals :=
  match _h : b.pop? with
  | none => ([], b)
  | some (f, rest) => (f :: rest.drain.1, rest.drain.2)
termination_by b.size
decreasing_by all_goals simp [size, pop?_eq_some_iff.mp _h]

theorem drain_eq (b : Arrivals) : b.drain = (b.frames, .empty) := by
  obtain ⟨frames⟩ := b
  induction frames with
  | nil =>
      rw [drain]
      rfl
  | cons f rest ih =>
      rw [drain]
      simp only [pop?, ih]

end Arrivals

/-- The first look at octets lets everything pass that can be decoded. -/
theorem Frame.exists_inFamily_of_decode {octets : Octets} {f : Frame} (h : decode octets = .ok f) :
    ∃ code rest, octets = code :: rest ∧ Service.inFamily code = true := by
  cases octets with
  | nil => cases h
  | cons code rest => exact ⟨code, rest, rfl, inFamily_of_decode h⟩

namespace Exchange

/-- What can happen to the arrivals. -/
inductive Move where
  | deliver (octets : Octets)
  | pop
  /-- The client lets go of its link. -/
  | clear
  | linkClosed (notice : ClosingNotice)

/-- The frame that a move puts behind the others. -/
def Move.arriving? : Move → Option Frame
  | .deliver octets => (Frame.decode octets).toOption
  | _ => none

/-- The frames that a move takes out, and the exchange after it. -/
def move (c : Connection σ) (x : Exchange σ) : Move → List Frame × Exchange σ
  | .deliver octets => ([], x.receive octets)
  | .pop =>
    match x.arrivals.pop? with
    | none => ([], x)
    | some (f, rest) => ([f], { x with arrivals := rest })
  | .clear => (x.arrivals.drain.1, x.abandonArrivals .cleared)
  | .linkClosed n => (x.arrivals.drain.1, x.linkClosed c n)

def moves (c : Connection σ) (x : Exchange σ) : List Move → List Frame × Exchange σ
  | [] => ([], x)
  | m :: rest => ((x.move c m).1 ++ ((x.move c m).2.moves c rest).1, ((x.move c m).2.moves c rest).2)

variable {c : Connection σ} {x y : Exchange σ}

/-! ### Searches -/

/-- A search goes through frames that it was given once and for all, whatever the arrivals say meanwhile. -/
theorem scanFrom_withArrivals (awaited : Service) (frames : List Frame) (x : Exchange σ) (b : Arrivals) :
    scanFrom c awaited frames { x with arrivals := b } = scanFrom c awaited frames x := by
  induction frames generalizing x with
  | nil => rfl
  | cons f rest ih =>
      rw [scanFrom, scanFrom]
      split_ifs
      · rfl
      · rfl
      · exact ih (x.note (.discarded f))

/-- A search is as good as one that takes the frames out one by one. -/
theorem scan_eq_pop (c : Connection σ) (x : Exchange σ) (awaited : Service) :
    x.scan c awaited =
      match x.arrivals.pop? with
      | none => (.error .confirmationExpected, x)
      | some (f, rest) =>
        if f.service = .resetIndication then (.error .resetByServer, resetSeen c { x with arrivals := rest })
        else if f.service = awaited then (answerOf f, { x with arrivals := rest })
        else ({ x with arrivals := rest }.note (.discarded f)).scan c awaited := by
  cases hp : x.arrivals.pop? with
  | none =>
      have hempty : x.arrivals = .empty := congrArg Arrivals.mk (Arrivals.pop?_eq_none_iff.mp hp)
      rw [scan, hempty]
      exact Prod.ext rfl (congrArg (fun b => { x with arrivals := b }) hempty.symm)
  | some taken =>
      obtain ⟨f, rest⟩ := taken
      have hnext : ({ x with arrivals := rest }.note (.discarded f)).scan c awaited =
          scanFrom c awaited rest.frames (x.note (.discarded f)) :=
        scanFrom_withArrivals awaited rest.frames (x.note (.discarded f)) rest
      rw [scan, Arrivals.pop?_eq_some_iff.mp hp, scanFrom, ← hnext]

/-! ### Moves -/

theorem arrivals_linkClosed (c : Connection σ) (x : Exchange σ) (n : ClosingNotice) :
    (x.linkClosed c n).arrivals = .empty := by
  rw [linkClosed_eq]

/-- One move neither loses nor adds a frame, and keeps their order. -/
theorem move_conserves (c : Connection σ) (x : Exchange σ) (m : Move) :
    (x.move c m).1 ++ (x.move c m).2.arrivals.frames = x.arrivals.frames ++ m.arriving?.toList := by
  cases m with
  | deliver octets =>
      rw [move, Move.arriving?]
      cases hd : Frame.decode octets with
      | ok f =>
          rw [receive_of_decode hd]
          rfl
      | error e =>
          obtain ⟨h, -, heq⟩ := receive_of_error hd x
          rw [heq]
          simp [Except.toOption]
  | pop =>
      rw [move]
      cases hp : x.arrivals.pop? with
      | none => simp [Move.arriving?]
      | some taken =>
          obtain ⟨f, rest⟩ := taken
          simp [Move.arriving?, Arrivals.pop?_eq_some_iff.mp hp]
  | clear =>
      rw [move, Arrivals.drain_eq]
      rfl
  | linkClosed n =>
      rw [move, Arrivals.drain_eq]
      simp only [arrivals_linkClosed]
      rfl

theorem moves_conserve (c : Connection σ) (x : Exchange σ) (ms : List Move) :
    (x.moves c ms).1 ++ (x.moves c ms).2.arrivals.frames = x.arrivals.frames ++ ms.filterMap Move.arriving? := by
  induction ms generalizing x with
  | nil => simp [moves]
  | cons m rest ih =>
      have hmove := move_conserves c x m
      rw [moves, List.append_assoc, ih, ← List.append_assoc, hmove, List.append_assoc]
      cases hm : m.arriving? with
      | none => rw [List.filterMap_cons_none hm]; rfl
      | some f => rw [List.filterMap_cons_some hm]; rfl

/-- From the beginning on, in whatever order frames are delivered and taken out, the client lets go of its link and
hears of its closing: what has left and what waits are the frames that the deliveries hold, each once and in their
order. A delivery that holds no frame leaves a remark, and one that holds a frame has passed the look at its first
octet. A frame taken out is the oldest of those that are left, and there is none only if all have left. Letting go and
hearing of the closing take out all that are left, and letting go tells how many these were. -/
theorem arrivals_conserved (c : Connection σ) (link : σ) (ms : List Move) :
    ∀ left y, (start link).moves c ms = (left, y) →
      left ++ y.arrivals.frames = ms.filterMap Move.arriving? ∧
      (∀ octets,
        (∀ f, Frame.decode octets = .ok f →
          (∃ code rest, octets = code :: rest ∧ Service.inFamily code = true) ∧
          y.receive octets = { y.note (.received f) with arrivals := y.arrivals.push f }) ∧
        ∀ e, Frame.decode octets = .error e → ∃ h : Happening, h.isRemark = true ∧ y.receive octets = y.note h) ∧
      (∀ f rest, y.arrivals.pop? = some (f, rest) ↔ ms.filterMap Move.arriving? = left ++ f :: rest.frames) ∧
      (y.arrivals.pop? = none ↔ ms.filterMap Move.arriving? = left) ∧
      (∀ m, (m = .clear ∨ ∃ n, m = .linkClosed n) →
        ms.filterMap Move.arriving? = left ++ (y.move c m).1 ∧ (y.move c m).2.arrivals = .empty) ∧
      ∃ count, left.length + count = (ms.filterMap Move.arriving?).length ∧
        y.abandonArrivals .cleared = { y.note (.cleared count) with arrivals := .empty } := by
  intro left y hrun
  have hlaw : left ++ y.arrivals.frames = ms.filterMap Move.arriving? := by
    have hmoves := moves_conserve c (start link) ms
    rwa [hrun] at hmoves
  rw [← hlaw]
  refine ⟨rfl, fun octets => ⟨fun f hd => ⟨Frame.exists_inFamily_of_decode hd, receive_of_decode hd y⟩,
    fun e hd => receive_of_error hd y⟩, fun f rest => ?oldest, ?none, fun m hm => ?all,
    y.arrivals.size, ?count, rfl⟩
  case oldest => rw [Arrivals.pop?_eq_some_iff, List.append_cancel_left_eq]
  case none => rw [Arrivals.pop?_eq_none_iff, List.append_right_eq_self]
  case all =>
    rcases hm with rfl | ⟨n, rfl⟩
    · rw [move, Arrivals.drain_eq]
      exact ⟨rfl, rfl⟩
    · rw [move, Arrivals.drain_eq]
      exact ⟨rfl, arrivals_linkClosed c y n⟩
  case count => rw [List.length_append, Arrivals.size]

/-- A reset indication is delivered, no octets at all, and a service that is not supported. The client lets go of its
link, which throws the indication away. Behind that come a confirmation and a frame that is too short. -/
def mixed : List Move :=
  [.deliver [0xf0], .deliver [], .deliver [0xf8, 0, 0, 1], .clear, .pop,
    .deliver [0xfb, 0, 0, 1, 71, 0x10, 1, 0, 2], .deliver [0xfb, 0]]

/-- The confirmation still waits, and it is lost when the link tells of its closing. -/
theorem arrivals_conserved_mixed :
    ∃ left y, (start Scripted.modeAndMedium).moves (Scripted.connection .plain) mixed = (left, y) ∧
      left = [.bare .resetIndication] ∧
      mixed.filterMap Move.arriving? = left ++ [⟨.readConfirmation, 0, 1, 71, 1, 1, [0, 2]⟩] ∧
      y.arrivals.pop? = some (⟨.readConfirmation, 0, 1, 71, 1, 1, [0, 2]⟩, .empty) ∧
      (y.move (Scripted.connection .plain) (.linkClosed ⟨.internal, "link lost"⟩)).2.arrivals = .empty := by
  obtain ⟨left, y, hrun, hleft⟩ : ∃ left y,
      (start Scripted.modeAndMedium).moves (Scripted.connection .plain) mixed = (left, y) ∧
      left = [.bare .resetIndication] := by
    refine ⟨_, _, rfl, ?_⟩
    simp only [moves, move, Arrivals.drain_eq]
    rfl
  have hall : mixed.filterMap Move.arriving? = left ++ [⟨.readConfirmation, 0, 1, 71, 1, 1, [0, 2]⟩] := by
    rw [hleft]
    rfl
  obtain ⟨-, -, holdest, -, hlost, -⟩ := arrivals_conserved _ _ mixed left y hrun
  exact ⟨left, y, hrun, hleft, hall, (holdest _ .empty).mpr hall, (hlost _ (.inr ⟨_, rfl⟩)).2⟩

end Exchange

end BusManagement
