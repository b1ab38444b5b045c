import BusManagement.Proofs.Course.Client

/-! A closed client is silent. The chronicle tells the phase at every moment, so it can be read off the
chronicle of a whole life in which phase a transmission was handed over, whatever the link did meanwhile:
every one of them was handed over by an open client. A client closes in the middle of a discovery or of a
search without the loop around it knowing; that the loop goes on and still sends nothing is what the
invariant over courses adds to the check in front of a single request. -/

namespace BusManagement

variable {σ : Type}

/-- The phase that a happening leads to. -/
def Phase.after (p : Phase) : Happening → Phase
  | .closing _ => p.close
  | .resetSeen => p.reset
  | _ => p

namespace Chronicle

/-- The phase that a chronicle ends in. -/
def phase (h : Chronicle) : Phase := h.foldl Phase.after .opened

/-- Whatever was handed to the link was handed over while the client was open. -/
def OpenHandings (h : Chronicle) : Prop :=
  ∀ (before : Chronicle) (t : Transmission), before ++ [.handed t] <+: h → before.phase = .opened

theorem phase_append (h hs : Chronicle) : phase (h ++ hs) = hs.foldl Phase.after h.phase := by
  rw [phase, List.foldl_append]
  rfl

theorem openHandings_nil : OpenHandings [] := by
  intro before t h
  rw [List.prefix_nil] at h
  simp at h

theorem OpenHandings.concat {h : Chronicle} (ho : OpenHandings h) {k : Happening}
    (hk : ∀ t, k = .handed t → h.phase = .opened) : OpenHandings (h ++ [k]) := by
  intro before t hpre
  rcases List.prefix_concat_iff.mp hpre with heq | hpre
  · obtain ⟨rfl, hlast⟩ := List.append_inj' heq rfl
    exact hk t (List.singleton_inj.mp hlast).symm
  · exact ho before t hpre

theorem OpenHandings.append {h : Chronicle} (ho : OpenHandings h) {hs : Chronicle}
    (hn : ∀ t, .handed t ∉ hs) : OpenHandings (h ++ hs) := by
  induction hs generalizing h with
  | nil => rwa [List.append_nil]
  | cons k hs ih =>
      rw [List.append_cons]
      refine ih (ho.concat fun t hk => ?_) fun t ht => hn t (List.mem_cons_of_mem k ht)
      exact absurd (hk ▸ List.mem_cons_self) (hn t)

/-- The first closing ends the open part of a life for good. -/
theorem phase_ne_opened_of_closing {h : Chronicle} (cause : ClosingCause) (hc : .closing cause ∈ h) :
    h.phase ≠ .opened := by
  have hkeep : ∀ (hs : Chronicle) (p : Phase), p ≠ .opened → hs.foldl Phase.after p ≠ .opened := by
    intro hs
    induction hs with
    | nil => exact fun p hp => hp
    | cons k hs ih =>
        intro p hp
        apply ih
        cases p with
        | opened => exact absurd rfl hp
        | closed _ => cases k <;> simp [Phase.after, Phase.close, Phase.reset]
  obtain ⟨before, after, rfl⟩ := List.append_of_mem hc
  rw [phase_append, List.foldl_cons]
  apply hkeep
  cases phase before <;> simp [Phase.after, Phase.close]

theorem OpenHandings.transmissions_eq_nil {h before after : Chronicle} {cause : ClosingCause}
    (ho : OpenHandings h) (hh : h = before ++ .closing cause :: after) : after.transmissions = [] := by
  rw [transmissions, List.filterMap_eq_nil_iff]
  intro k hk
  cases k with
  | handed t =>
      obtain ⟨front, rear, rfl⟩ := List.append_of_mem hk
      have hpre : (before ++ .closing cause :: front) ++ [.handed t] <+: h :=
        ⟨rear, by simp [hh]⟩
      exact absurd (ho _ t hpre) (phase_ne_opened_of_closing cause (by simp))
  | _ => rfl

end Chronicle

namespace Exchange

/-- The chronicle tells the truth about the phase, and that nothing was sent while it was a closed one. -/
structure Told (x : Exchange σ) : Prop where
  phase : x.phase = x.chronicle.phase
  handed : x.chronicle.OpenHandings

theorem told_start (link : σ) : Told (start link) := ⟨rfl, Chronicle.openHandings_nil⟩

/-- What is no handing over needs only to lead to the right phase. -/
theorem Told.extend {x y : Exchange σ} (h : Told x) (hs : Chronicle)
    (hc : y.chronicle = x.chronicle ++ hs) (hp : y.phase = hs.foldl Phase.after x.phase)
    (hn : ∀ t, .handed t ∉ hs) : Told y := by
  refine ⟨?_, ?_⟩
  · rw [hp, hc, Chronicle.phase_append, h.phase]
  · rw [hc]
    exact h.handed.append hn

theorem after_of_isRemark {h : Happening} (hr : h.isRemark = true) (p : Phase) : p.after h = p := by
  cases h <;> first | rfl | simp [Happening.isRemark] at hr

theorem foldl_discarded (p : Phase) (passed : List Frame) :
    (passed.map Happening.discarded).foldl Phase.after p = p := by
  induction passed with
  | nil => rfl
  | cons _ _ ih => exact ih

variable {c : Connection σ}

theorem Told.flight {x y : Exchange σ} (h : Told x) (hf : Flight c x y) : Told y := by
  cases hf with
  | settle link => exact ⟨h.phase, h.handed⟩
  | remark k hr =>
      refine h.extend [k] rfl (after_of_isRemark hr _).symm fun t ht => ?_
      rw [← List.mem_singleton.mp ht] at hr
      simp [Happening.isRemark] at hr
  | receive f => exact h.extend [.received f] rfl rfl (by simp)
  | linkClosed n =>
      rw [linkClosed_eq]
      refine h.extend (closingNotes c x n) rfl ?_ ?_
      · cases hp : x.phase <;> cases hh : c.config.hearsClosing <;>
          simp [closingNotes, isOpen, hp, hh, Phase.isOpen, Phase.after, Phase.close]
      · intro t
        cases hp : x.isOpen <;> cases hh : c.config.hearsClosing <;> simp [closingNotes, hp, hh]
  | close cause ho hcause =>
      exact h.extend [.closing cause, .cleared x.arrivals.size, .released] (by simp [letGo]) rfl
        (by simp)

theorem Told.searched {x : Exchange σ} (h : Told x) (passed left : List Frame) : Told (x.searched passed left) :=
  h.extend (passed.map .discarded) rfl (foldl_discarded _ passed).symm (by simp)

theorem Told.step {x y : Exchange σ} (h : Told x) (hs : Step c x y) : Told y := by
  cases hs with
  | flight hflight => exact h.flight hflight
  | hand t ho =>
      refine ⟨?_, h.handed.concat fun _ _ => ?_⟩
      · rw [chronicle_note, Chronicle.phase_append, phase_note, h.phase]
        rfl
      · rw [← h.phase]
        exact phase_eq_opened ho
  | take passed f left hf hp => exact h.searched passed left
  | exhaust hp => exact h.searched x.arrivals.frames []
  | reset passed f left ho hf hp hr =>
      exact (h.searched passed left).extend [.resetSeen, .closing .reset, .cleared left.length, .released]
        (by simp [letGo, Exchange.searched, Arrivals.size]) rfl (by simp)
  | resetLate passed f left ho hf hp hr =>
      exact (h.searched passed left).extend [.resetSeen] rfl rfl (by simp)

theorem Told.course {x y : Exchange σ} (h : Told x) (hc : Course c x y) : Told y := by
  induction hc with
  | refl => exact h
  | tail _ hstep ih => exact ih.step hstep

end Exchange

namespace Client

/-- The exchange at the end of a life: a client is opened and calls are made of it. A client that could not
be opened gets no calls. -/
def life (c : Connection σ) (link : σ) (calls : List Call) : Exchange σ :=
  match start c link with
  | .opened k => (k.run c calls).2.exchange
  | .failed _ x => x

theorem course_life (c : Connection σ) (link : σ) (calls : List Call) :
    Exchange.Course c (.start link) (life c link calls) := by
  have hstart := course_start c link
  rw [life]
  split
  · next k h =>
      rw [h] at hstart
      exact hstart.trans (leads_run c k calls).exchange
  · next h => rwa [h] at hstart

theorem access_of_closed (c : Connection σ) {k : Client σ} (hk : k.isOpen = false) (object : UInt16)
    (requestTo : ObjectAddress → Frame) (awaited : Service) :
    k.access c object requestTo awaited = (.error (Exchange.closedFault c), k) := by
  rw [access, if_neg (by simp [hk])]

/-- Over any link, whatever is handed to it is handed over while the client is open, and nothing is after the
client has closed; a closed client refuses every request with the same fault and stays as it is. -/
theorem silent_unless_open (c : Connection σ) (link : σ) (calls : List Call) :
    ((life c link calls).phase = (life c link calls).chronicle.phase ∧
      (∀ (before : Chronicle) t after, (life c link calls).chronicle = before ++ .handed t :: after →
        before.phase = .opened) ∧
      ∀ before cause (after : Chronicle), (life c link calls).chronicle = before ++ .closing cause :: after →
        after.transmissions = []) ∧
    ∀ k : Client σ, k.isOpen = false →
      (∀ object pid first elements,
        k.get c object pid first elements = (.error (Exchange.closedFault c), k)) ∧
      (∀ object pid first elements data,
        k.set c object pid first elements data = (.error (Exchange.closedFault c), k)) ∧
      (∀ object pid index, k.describe c object pid index = (.error (Exchange.closedFault c), k)) ∧
      k.reset c = (.error (Exchange.closedFault c), k) ∧
      (Exchange.closedFault c).kind = .illegalState := by
  have htold := (Exchange.told_start link).course (course_life c link calls)
  refine ⟨⟨htold.phase, fun before t after h => ?_, fun before cause after h => ?_⟩, fun k hk => ?_⟩
  · exact htold.handed before t ⟨after, by simp [h]⟩
  · exact htold.handed.transmissions_eq_nil h
  · refine ⟨fun object pid first elements => ?_, fun object pid first elements data => ?_,
      fun object pid index => ?_, ?_, rfl⟩
    · exact access_of_closed c hk object _ _
    · rw [set, access_of_closed c hk]
    · rw [describe, if_neg (by simp [hk])]
    · have hx : ¬k.exchange.isOpen = true := by simpa [isOpen] using hk
      simp only [reset, Exchange.resetDevice, if_neg hx]

end Client

end BusManagement
