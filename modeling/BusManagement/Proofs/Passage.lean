import BusManagement.Proofs.Course.Run

/-! The passage of frames. Every frame that the link delivers joins the arrivals and leaves them again, in
the order of arrival; so a frame is known by its place among all frames received, and what waits is what
was received behind a certain place. That place only moves on. A client that closes throws away whatever
waits, so afterwards nothing waits that came while it was open. -/

namespace BusManagement

variable {σ : Type}

/-- The client goes from open to closed. -/
def Happening.isClosing : Happening → Bool
  | .closing _ => true
  | _ => false

namespace Chronicle

/-- The frames that were received, in order. -/
def received (h : Chronicle) : List Frame :=
  h.filterMap fun
    | .received f => some f
    | _ => none

/-- The part of a life before the first closing. -/
def whileOpen (h : Chronicle) : Chronicle := h.takeWhile fun k => !k.isClosing

@[simp] theorem received_append (h hs : Chronicle) : received (h ++ hs) = h.received ++ hs.received :=
  List.filterMap_append

@[simp] theorem received_discarded (passed : List Frame) : received (passed.map .discarded) = [] := by
  induction passed with
  | nil => rfl
  | cons _ _ ih => exact ih

theorem received_mono {h h' : Chronicle} (hp : h <+: h') : h.received <+: h'.received := hp.filterMap _

theorem whileOpen_append {h : Chronicle} (hc : ∃ k ∈ h, k.isClosing = true) (hs : Chronicle) :
    whileOpen (h ++ hs) = h.whileOpen := by
  induction h with
  | nil => simp at hc
  | cons k h ih =>
      cases hk : k.isClosing with
      | true => simp [whileOpen, hk]
      | false =>
          obtain ⟨l, hl, hclosing⟩ := hc
          have htail : ∃ l ∈ h, l.isClosing = true := by
            rcases List.mem_cons.mp hl with rfl | hl
            · rw [hk] at hclosing
              cases hclosing
            · exact ⟨l, hl, hclosing⟩
          have hrest := ih htail
          simp only [whileOpen] at hrest
          simp [whileOpen, hk, hrest]

theorem length_whileOpen_le (h : Chronicle) : h.whileOpen.received.length ≤ h.received.length :=
  (received_mono (List.takeWhile_prefix _)).length_le

end Chronicle

namespace Exchange

/-- How many frames have arrived. -/
def arrived (x : Exchange σ) : Nat := x.chronicle.received.length

/-- How many frames have arrived and no longer wait. -/
def taken (x : Exchange σ) : Nat := x.arrived - x.arrivals.size

/-- What waits is what was received last, and if the client is closed, it was received after the closing. -/
structure Tracked (x : Exchange σ) : Prop where
  waiting : x.arrivals.frames <:+ x.chronicle.received
  opened : x.isOpen = true → ∀ k ∈ x.chronicle, k.isClosing = false
  closing : x.isOpen = false → ∃ k ∈ x.chronicle, k.isClosing = true
  passed : x.isOpen = false → x.chronicle.whileOpen.received.length ≤ x.taken

/-- What may have become of an exchange. -/
structure Later (x y : Exchange σ) : Prop where
  chronicle : x.chronicle <+: y.chronicle
  taken : x.taken ≤ y.taken
  opened : y.isOpen = true → x.isOpen = true

theorem Later.refl (x : Exchange σ) : Later x x := ⟨List.prefix_rfl, Nat.le_refl _, id⟩

theorem Later.trans {x y z : Exchange σ} (h : Later x y) (h' : Later y z) : Later x z :=
  ⟨h.chronicle.trans h'.chronicle, Nat.le_trans h.taken h'.taken, h.opened ∘ h'.opened⟩

theorem Later.arrived {x y : Exchange σ} (h : Later x y) : x.arrived ≤ y.arrived :=
  (Chronicle.received_mono h.chronicle).length_le

theorem tracked_start (link : σ) : Tracked (start link) :=
  ⟨List.suffix_rfl, by simp [start], fun h => Bool.noConfusion h, fun h => Bool.noConfusion h⟩

theorem Tracked.size_le {x : Exchange σ} (h : Tracked x) : x.arrivals.size ≤ x.arrived :=
  h.waiting.length_le

/-- The frames that wait are known by their places. -/
theorem Tracked.getElem? {x : Exchange σ} (h : Tracked x) (j : Nat) :
    x.chronicle.received[x.taken + j]? = x.arrivals.frames[j]? := by
  obtain ⟨gone, hg⟩ := h.waiting
  have htaken : x.taken = gone.length := by
    rw [taken, arrived, ← hg, List.length_append]
    exact Nat.add_sub_cancel _ _
  rw [htaken, ← hg, List.getElem?_append_right (Nat.le_add_right _ _), Nat.add_sub_cancel_left]

/-- A search that meets a frame has taken it and all frames in front of it. -/
theorem Tracked.taken_searched {x : Exchange σ} (h : Tracked x) {passed left : List Frame} {f : Frame}
    (hf : x.arrivals.frames = passed ++ f :: left) :
    (x.searched passed left).taken = x.taken + passed.length + 1 := by
  have hle := h.size_le
  have harrived : (x.searched passed left).arrived = x.arrived := by simp [arrived, searched]
  have hsize : x.arrivals.size = passed.length + (left.length + 1) := by simp [Arrivals.size, hf]
  have hleft : (x.searched passed left).arrivals.size = left.length := rfl
  rw [taken, taken, harrived, hleft]
  omega

theorem Tracked.getElem?_found {x : Exchange σ} (h : Tracked x) {passed left : List Frame} {f : Frame}
    (hf : x.arrivals.frames = passed ++ f :: left) :
    x.chronicle.received[x.taken + passed.length]? = some f := by
  rw [h.getElem?, hf, List.getElem?_append_right (Nat.le_refl _), Nat.sub_self]
  rfl

theorem Tracked.mem_passed {x : Exchange σ} (h : Tracked x) {passed left : List Frame} {f g : Frame}
    (hf : x.arrivals.frames = passed ++ f :: left) {m : Nat} (hle : x.taken ≤ m)
    (hlt : m < x.taken + passed.length) (hg : x.chronicle.received[m]? = some g) : g ∈ passed := by
  obtain ⟨j, rfl⟩ := Nat.exists_eq_add_of_le hle
  rw [h.getElem?, hf, List.getElem?_append_left (by omega)] at hg
  exact List.mem_of_getElem? hg

theorem Tracked.mem_arrivals {x : Exchange σ} (h : Tracked x) {m : Nat} {g : Frame} (hle : x.taken ≤ m)
    (hg : x.chronicle.received[m]? = some g) : g ∈ x.arrivals.frames := by
  obtain ⟨j, rfl⟩ := Nat.exists_eq_add_of_le hle
  rw [h.getElem?] at hg
  exact List.mem_of_getElem? hg

/-- A search does not come to a place behind a frame that it awaits. -/
theorem Tracked.found_le {x : Exchange σ} (h : Tracked x) {passed left : List Frame} {f g : Frame}
    {awaited : Service} (hf : x.arrivals.frames = passed ++ f :: left)
    (hp : ∀ g ∈ passed, Passes awaited g) {n : Nat} (hn : x.taken ≤ n)
    (hg : x.chronicle.received[n]? = some g) (hs : g.service = awaited) : x.taken + passed.length ≤ n := by
  rcases Nat.lt_or_ge n (x.taken + passed.length) with hlt | hge
  · exact absurd hs (hp g (h.mem_passed hf hn hlt hg)).2
  · exact hge

/-- A search takes the awaited frame at a place exactly if it awaits none in front of it. -/
theorem Tracked.found_eq_iff {x : Exchange σ} (h : Tracked x) {passed left : List Frame} {f g : Frame}
    {awaited : Service} (hf : x.arrivals.frames = passed ++ f :: left)
    (hp : ∀ g ∈ passed, Passes awaited g) (hfs : f.service = awaited) {n : Nat} (hn : x.taken ≤ n)
    (hg : x.chronicle.received[n]? = some g) (hs : g.service = awaited) :
    x.taken + passed.length = n ↔
      ∀ m f', x.taken ≤ m → m < n → x.chronicle.received[m]? = some f' → f'.service ≠ awaited := by
  refine ⟨fun heq m f' hm hmn hf' => ?_, fun hclear => ?_⟩
  · exact (hp f' (h.mem_passed hf hm (heq ▸ hmn) hf')).2
  · rcases Nat.lt_or_eq_of_le (h.found_le hf hp hn hg hs) with hlt | heq
    · exact absurd hfs (hclear _ f (Nat.le_add_right _ _) hlt (h.getElem?_found hf))
    · exact heq

theorem Tracked.extend {x y : Exchange σ} (h : Tracked x) (hs : Chronicle)
    (hc : y.chronicle = x.chronicle ++ hs) (ha : y.arrivals.frames <:+ x.arrivals.frames ++ hs.received)
    (ho : y.isOpen = true → x.isOpen = true ∧ ∀ k ∈ hs, k.isClosing = false)
    (hclosed : y.isOpen = false →
      x.isOpen = false ∨ (∃ k ∈ hs, k.isClosing = true) ∧ y.arrivals.frames = []) :
    Tracked y ∧ Later x y := by
  have harrived : y.arrived = x.arrived + hs.received.length := by simp [arrived, hc]
  have hsize : y.arrivals.size ≤ x.arrivals.size + hs.received.length := by
    simpa [Arrivals.size] using ha.length_le
  have hle := h.size_le
  have htaken : x.taken ≤ y.taken := by
    unfold taken
    omega
  refine ⟨⟨?_, fun hopen => ?_, fun hshut => ?_, fun hshut => ?_⟩, ⟨hs, hc.symm⟩, htaken, fun hopen => (ho hopen).1⟩
  · obtain ⟨gone, hg⟩ := h.waiting
    refine ha.trans ⟨gone, ?_⟩
    rw [hc, Chronicle.received_append, ← List.append_assoc, hg]
  · rw [hc]
    exact List.forall_mem_append.mpr ⟨h.opened (ho hopen).1, (ho hopen).2⟩
  · rw [hc]
    rcases hclosed hshut with hx | ⟨⟨k, hk, hclosing⟩, -⟩
    · obtain ⟨k, hk, hclosing⟩ := h.closing hx
      exact ⟨k, List.mem_append_left _ hk, hclosing⟩
    · exact ⟨k, List.mem_append_right _ hk, hclosing⟩
  · rcases hclosed hshut with hx | ⟨-, hempty⟩
    · rw [hc, Chronicle.whileOpen_append (h.closing hx)]
      exact Nat.le_trans (h.passed hx) htaken
    · have hall : y.taken = y.arrived := by simp [taken, Arrivals.size, hempty]
      rw [hall]
      exact Chronicle.length_whileOpen_le _

variable {c : Connection σ}

theorem isClosing_of_isRemark {k : Happening} (hr : k.isRemark = true) : k.isClosing = false := by
  cases k <;> first | rfl | simp [Happening.isRemark] at hr

theorem received_of_isRemark {k : Happening} (hr : k.isRemark = true) : Chronicle.received [k] = [] := by
  cases k <;> first | rfl | simp [Happening.isRemark] at hr

theorem Tracked.flight {x y : Exchange σ} (h : Tracked x) (hf : Flight c x y) : Tracked y ∧ Later x y := by
  cases hf with
  | settle link => exact h.extend [] (by simp) (by simp [Chronicle.received]) (fun ho => ⟨ho, by simp⟩) .inl
  | remark k hr =>
      refine h.extend [k] rfl ?_ (fun ho => ⟨ho, by simpa using isClosing_of_isRemark hr⟩) .inl
      rw [received_of_isRemark hr, List.append_nil]
      exact List.suffix_rfl
  | receive f => exact h.extend [.received f] rfl List.suffix_rfl (fun ho => ⟨ho, by simp [Happening.isClosing]⟩) .inl
  | linkClosed n =>
      rw [linkClosed_eq]
      refine h.extend (closingNotes c x n) rfl (List.nil_suffix) (fun ho => ?_) fun _ => ?_
      · simp [isOpen] at ho
      · cases hx : x.isOpen with
        | true => exact .inr ⟨⟨.closing .link, by simp [closingNotes, hx], rfl⟩, rfl⟩
        | false => exact .inl rfl
  | close cause ho hcause =>
      refine h.extend [.closing cause, .cleared x.arrivals.size, .released] (by simp [letGo]) List.nil_suffix
        (fun hopen => ?_) fun _ => .inr ⟨⟨.closing cause, by simp, rfl⟩, rfl⟩
      simp [letGo, isOpen] at hopen

theorem Tracked.searched {x : Exchange σ} (h : Tracked x) (passed : List Frame) {left : List Frame}
    (hl : left <:+ x.arrivals.frames) : Tracked (x.searched passed left) ∧ Later x (x.searched passed left) := by
  refine h.extend (passed.map .discarded) rfl ?_ (fun ho => ⟨ho, by simp [Happening.isClosing]⟩) .inl
  rw [Chronicle.received_discarded, List.append_nil]
  exact hl

theorem Tracked.step {x y : Exchange σ} (h : Tracked x) (hs : Step c x y) : Tracked y ∧ Later x y := by
  cases hs with
  | flight hf => exact h.flight hf
  | hand t ho =>
      refine h.extend [.handed t] rfl ?_ (fun ho => ⟨ho, by simp [Happening.isClosing]⟩) .inl
      exact ⟨[], by simp [Chronicle.received]⟩
  | take passed f left hf hp => exact h.searched passed ⟨passed ++ [f], by simp [hf]⟩
  | exhaust hp => exact h.searched _ List.nil_suffix
  | reset passed f left ho hf hp hr =>
      have hleft : left <:+ x.arrivals.frames := ⟨passed ++ [f], by simp [hf]⟩
      obtain ⟨hx, hlater⟩ := h.searched passed hleft
      obtain ⟨hy, hlater'⟩ := hx.extend (y := (x.searched passed left).letGo x.phase.reset [.resetSeen, .closing .reset])
        [.resetSeen, .closing .reset, .cleared left.length, .released]
        (by simp [letGo, Exchange.searched, Arrivals.size]) List.nil_suffix
        (fun hopen => by simp [letGo, isOpen] at hopen)
        fun _ => .inr ⟨⟨.closing .reset, by simp, rfl⟩, rfl⟩
      exact ⟨hy, hlater.trans hlater'⟩
  | resetLate passed f left ho hf hp hr =>
      have hleft : left <:+ x.arrivals.frames := ⟨passed ++ [f], by simp [hf]⟩
      obtain ⟨hx, hlater⟩ := h.searched passed hleft
      obtain ⟨hy, hlater'⟩ := hx.extend (y := { (x.searched passed left).note .resetSeen with phase := x.phase.reset })
        [.resetSeen] rfl ⟨[], by simp [Chronicle.received]⟩ (fun hopen => by simp [isOpen] at hopen)
        fun _ => .inl ho
      exact ⟨hy, hlater.trans hlater'⟩

theorem Tracked.course {x y : Exchange σ} (h : Tracked x) (hc : Course c x y) : Tracked y ∧ Later x y := by
  induction hc with
  | refl => exact ⟨h, .refl x⟩
  | tail _ hstep ih =>
      obtain ⟨hy, hlater⟩ := ih.1.step hstep
      exact ⟨hy, ih.2.trans hlater⟩

/-- All that an open exchange has received came while it was open, whatever becomes of it. -/
theorem Later.arrived_le_whileOpen {x y : Exchange σ} (h : Later x y) (hx : Tracked x) (ho : x.isOpen = true) :
    x.arrived ≤ y.chronicle.whileOpen.received.length := by
  obtain ⟨hs, heq⟩ := h.chronicle
  have hwhile : y.chronicle.whileOpen = x.chronicle ++ Chronicle.whileOpen hs := by
    rw [← heq, Chronicle.whileOpen, List.takeWhile_append_of_pos]
    · rfl
    · simpa using hx.opened ho
  rw [hwhile, Chronicle.received_append, List.length_append]
  exact Nat.le_add_right _ _

/-- What came while the exchange was open is settled once it is closed. -/
theorem Later.whileOpen_eq {x y : Exchange σ} (h : Later x y) (hx : Tracked x) (hclosed : x.isOpen = false) :
    y.chronicle.whileOpen = x.chronicle.whileOpen := by
  obtain ⟨hs, heq⟩ := h.chronicle
  rw [← heq, Chronicle.whileOpen_append (hx.closing hclosed)]

theorem Later.getElem? {x y : Exchange σ} (h : Later x y) {m : Nat} (hm : m < x.arrived) :
    y.chronicle.received[m]? = x.chronicle.received[m]? := by
  obtain ⟨rest, heq⟩ := Chronicle.received_mono h.chronicle
  rw [← heq, List.getElem?_append_left hm]

/-- While a call is in flight frames only arrive, unless the client closes. -/
theorem Flight.gains {x y : Exchange σ} (hf : Flight c x y) (ho : y.isOpen = true) :
    x.isOpen = true ∧ ∃ fs, y.arrivals.frames = x.arrivals.frames ++ fs ∧
      y.chronicle.received = x.chronicle.received ++ fs := by
  cases hf with
  | settle link => exact ⟨ho, [], by simp⟩
  | remark k hr => exact ⟨ho, [], by simp [received_of_isRemark hr]⟩
  | receive f => exact ⟨ho, [f], by simp [Chronicle.received]⟩
  | linkClosed n => simp [linkClosed_eq, isOpen] at ho
  | close cause ho' hcause => simp [letGo, isOpen] at ho

theorem InFlight.gains {x y : Exchange σ} (hf : InFlight c x y) (ho : y.isOpen = true) :
    ∃ fs, y.arrivals.frames = x.arrivals.frames ++ fs ∧
      y.chronicle.received = x.chronicle.received ++ fs := by
  induction hf with
  | refl => exact ⟨[], by simp⟩
  | tail _ hzy ih =>
      obtain ⟨hz, gs, harrivals', hreceived'⟩ := hzy.gains ho
      obtain ⟨fs, harrivals, hreceived⟩ := ih hz
      refine ⟨fs ++ gs, ?_, ?_⟩
      · rw [harrivals', harrivals, List.append_assoc]
      · rw [hreceived', hreceived, List.append_assoc]

theorem InFlight.opened {x y : Exchange σ} (hf : InFlight c x y) (ho : y.isOpen = true) : x.isOpen = true := by
  induction hf with
  | refl => exact ho
  | tail _ hzy ih => exact ih (hzy.gains ho).1

theorem isOpen_resetSeen (c : Connection σ) (x : Exchange σ) : (resetSeen c x).isOpen = false := by
  cases ho : x.isOpen with
  | true =>
      refine Bool.eq_false_iff.mpr fun hopen => ?_
      have hgo := (inFlight_resetSeen c ho).opened hopen
      simp [letGo, isOpen] at hgo
  | false =>
      rw [resetSeen, if_neg (Bool.eq_false_iff.mp ho)]
      exact Phase.isOpen_reset x.phase

/-- No frame leaves while a call is in flight, unless the client closes. -/
theorem InFlight.taken_eq {x y : Exchange σ} (hf : InFlight c x y) (ho : y.isOpen = true) :
    y.taken = x.taken := by
  obtain ⟨fs, harrivals, hreceived⟩ := hf.gains ho
  rw [taken, taken, arrived, arrived, Arrivals.size, Arrivals.size, harrivals, hreceived, List.length_append,
    List.length_append]
  exact Nat.add_sub_add_right _ _ _

end Exchange

end BusManagement
