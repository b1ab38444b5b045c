import BusManagement.Proofs.Course.Basic

/-! The search for a confirmation. It divides the arrivals at the first frame that matters, which is a
reset indication or a frame of the awaited kind: the frames before it are thrown away, it is taken out, and
the frames behind it stay. -/

namespace BusManagement.Exchange

variable {σ : Type} {awaited : Service}

/-- The search passes a frame by. -/
def Passes (awaited : Service) (f : Frame) : Prop := f.service ≠ .resetIndication ∧ f.service ≠ awaited

instance (awaited : Service) (f : Frame) : Decidable (Passes awaited f) :=
  inferInstanceAs (Decidable (_ ∧ _))

@[simp] theorem notes_nil (x : Exchange σ) : x.notes [] = x := by simp [notes]

theorem notes_notes (x : Exchange σ) (hs ks : Chronicle) : (x.notes hs).notes ks = x.notes (hs ++ ks) := by
  simp [notes]

/-- Either all frames are passed by, or they divide at the first one that matters. -/
theorem divide (awaited : Service) (frames : List Frame) :
    (∀ g ∈ frames, Passes awaited g) ∨
      ∃ passed f left, frames = passed ++ f :: left ∧ (∀ g ∈ passed, Passes awaited g) ∧
        (f.service = .resetIndication ∨ f.service = awaited) := by
  induction frames with
  | nil => exact .inl (by simp)
  | cons f rest ih =>
      by_cases hf : Passes awaited f
      · rcases ih with hall | ⟨passed, g, left, rfl, hp, hg⟩
        · exact .inl (List.forall_mem_cons.mpr ⟨hf, hall⟩)
        · exact .inr ⟨f :: passed, g, left, rfl, List.forall_mem_cons.mpr ⟨hf, hp⟩, hg⟩
      · refine .inr ⟨[], f, rest, rfl, by simp, ?_⟩
        by_cases hr : f.service = .resetIndication
        · exact .inl hr
        · exact .inr (Classical.not_not.mp fun ha => hf ⟨hr, ha⟩)

variable (c : Connection σ)

/-- Frames that are passed by leave nothing but a remark. -/
theorem scanFrom_append {passed : List Frame} (hp : ∀ g ∈ passed, Passes awaited g) (rest : List Frame)
    (x : Exchange σ) :
    scanFrom c awaited (passed ++ rest) x = scanFrom c awaited rest (x.notes (passed.map .discarded)) := by
  induction passed generalizing x with
  | nil => simp
  | cons f passed ih =>
      obtain ⟨⟨hr, ha⟩, hp⟩ := List.forall_mem_cons.mp hp
      rw [List.cons_append, scanFrom, if_neg hr, if_neg ha, ih hp]
      change scanFrom c awaited rest ((x.notes [.discarded f]).notes _) = _
      rw [notes_notes]
      rfl

theorem scan_exhausted {x : Exchange σ} (hp : ∀ g ∈ x.arrivals.frames, Passes awaited g) :
    x.scan c awaited =
      (.error .confirmationExpected, x.searched x.arrivals.frames []) := by
  have h := scanFrom_append c hp [] x
  rw [List.append_nil] at h
  rw [scan, h, scanFrom]
  rfl

theorem scan_found {x : Exchange σ} {passed left : List Frame} {f : Frame}
    (hf : x.arrivals.frames = passed ++ f :: left) (hp : ∀ g ∈ passed, Passes awaited g)
    (ha : f.service = awaited) (hr : awaited ≠ .resetIndication) :
    x.scan c awaited =
      (answerOf f, x.searched passed left) := by
  rw [scan, hf, scanFrom_append c hp, scanFrom, if_neg (ha ▸ hr), if_pos ha]
  rfl

theorem scan_reset {x : Exchange σ} {passed left : List Frame} {f : Frame}
    (hf : x.arrivals.frames = passed ++ f :: left) (hp : ∀ g ∈ passed, Passes awaited g)
    (hr : f.service = .resetIndication) :
    x.scan c awaited =
      (.error .resetByServer, resetSeen c (x.searched passed left)) := by
  rw [scan, hf, scanFrom_append c hp, scanFrom, if_pos hr]
  rfl

/-- What a search that succeeds has found: the first frame of the awaited kind, ahead of any reset
indication. -/
theorem scan_eq_ok {x y : Exchange σ} {data : Octets} (hr : awaited ≠ .resetIndication)
    (h : x.scan c awaited = (.ok data, y)) :
    ∃ passed f left, x.arrivals.frames = passed ++ f :: left ∧ (∀ g ∈ passed, Passes awaited g) ∧
      f.service = awaited ∧ f.data = data ∧
      y = x.searched passed left := by
  rcases divide awaited x.arrivals.frames with hall | ⟨passed, f, left, hf, hp, hreset | ha⟩
  · rw [scan_exhausted c hall] at h
    cases h
  · rw [scan_reset c hf hp hreset] at h
    cases h
  · rw [scan_found c hf hp ha hr, Prod.mk.injEq] at h
    refine ⟨passed, f, left, hf, hp, ha, ?_, h.2.symm⟩
    have hans := h.1
    unfold answerOf at hans
    split at hans
    · cases hans
    · exact Except.ok.inj hans

theorem answerOf_ne_resetByServer (f : Frame) : answerOf f ≠ .error .resetByServer := by
  intro h
  unfold answerOf at h
  split at h <;> cases h

/-- A search tells of a reset exactly if a reset indication is the first frame that matters. -/
theorem scan_eq_resetByServer_iff (x : Exchange σ) (hr : awaited ≠ .resetIndication) :
    (x.scan c awaited).1 = .error .resetByServer ↔
      ∃ passed f left, x.arrivals.frames = passed ++ f :: left ∧ (∀ g ∈ passed, Passes awaited g) ∧
        f.service = .resetIndication := by
  constructor
  · intro h
    rcases divide awaited x.arrivals.frames with hall | ⟨passed, f, left, hf, hp, hreset | ha⟩
    · rw [scan_exhausted c hall] at h
      cases h
    · exact ⟨passed, f, left, hf, hp, hreset⟩
    · rw [scan_found c hf hp ha hr] at h
      exact absurd h (answerOf_ne_resetByServer f)
  · rintro ⟨passed, f, left, hf, hp, hreset⟩
    rw [scan_reset c hf hp hreset]

/-! ### Searches are courses -/

theorem inFlight_resetSeen {x : Exchange σ} (ho : x.isOpen = true) :
    InFlight c (x.letGo x.phase.reset [.resetSeen, .closing .reset]) (resetSeen c x) := by
  have h := inFlight_release c { (x.note .resetSeen).note (.closing .reset) with phase := x.phase.reset }
  have hgo : (({ (x.note .resetSeen).note (.closing .reset) with phase := x.phase.reset } :
      Exchange σ).abandonArrivals .cleared).note .released
        = x.letGo x.phase.reset [.resetSeen, .closing .reset] := by
    simp [letGo, abandonArrivals, clearArrivals, note]
  rw [hgo] at h
  rwa [resetSeen, if_pos ho]

theorem course_resetSeen {x : Exchange σ} {passed left : List Frame} {f : Frame}
    (hf : x.arrivals.frames = passed ++ f :: left) (hp : ∀ g ∈ passed, g.service ≠ .resetIndication)
    (hr : f.service = .resetIndication) :
    Course c x (resetSeen c (x.searched passed left)) := by
  cases ho : x.isOpen with
  | true =>
      have hopen : (x.searched passed left).isOpen = true := ho
      exact .head (.reset x passed f left ho hf hp hr) (inFlight_resetSeen c hopen).course
  | false =>
      have hopen : ¬(x.searched passed left).isOpen = true := fun h => Bool.false_ne_true (ho.symm.trans h)
      rw [resetSeen, if_neg hopen]
      exact .single (.resetLate x passed f left ho hf hp hr)

theorem course_scan (x : Exchange σ) (hr : awaited ≠ .resetIndication) : Course c x (x.scan c awaited).2 := by
  rcases divide awaited x.arrivals.frames with hall | ⟨passed, f, left, hf, hp, hreset | ha⟩
  · rw [scan_exhausted c hall]
    exact .single (.exhaust x fun g hg => (hall g hg).1)
  · rw [scan_reset c hf hp hreset]
    exact course_resetSeen c hf (fun g hg => (hp g hg).1) hreset
  · rw [scan_found c hf hp ha hr]
    refine .single (.take x passed f left hf fun g hg => ?_)
    rcases List.mem_append.mp hg with hg | hg
    · exact (hp g hg).1
    · rw [List.mem_singleton.mp hg, ha]
      exact hr

end BusManagement.Exchange
