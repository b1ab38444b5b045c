import BusManagement.Proofs.Course.Scan
import BusManagement.Proofs.Frame
import Mathlib.Data.List.Forall2

/-! Two exchanges side by side. What a client does with an exchange depends on the arrivals and on the phase, and
on the link only as far as a call on it is concerned. So two exchanges that are in the same state up to their
links stay so whatever befalls them, provided that they do over calls on their links, which are two: to send and to
close. The links may differ, and the states of the links may be of different kinds. -/

namespace BusManagement

variable {σ τ α β β' : Type}

/-- Both give the same value, or both fail with faults that correspond. -/
inductive Agree (E : Fault → Fault → Prop) : Except Fault α → Except Fault α → Prop
  | ok (a : α) : Agree E (.ok a) (.ok a)
  | error {e e' : Fault} (he : E e e') : Agree E (.error e) (.error e')

/-- The results agree, and what is left behind corresponds, too. -/
inductive Paired (E : Fault → Fault → Prop) (T : β → β' → Prop) :
    Except Fault α × β → Except Fault α × β' → Prop
  | ok (a : α) {y : β} {y' : β'} (h : T y y') : Paired E T (.ok a, y) (.ok a, y')
  | error {e e' : Fault} (he : E e e') {y : β} {y' : β'} (h : T y y') : Paired E T (.error e, y) (.error e', y')

theorem Agree.eq {r r' : Except Fault α} (h : Agree Eq r r') : r = r' := by
  cases h with
  | ok a => rfl
  | error he => rw [he]

section Paired

variable {E : Fault → Fault → Prop} {T : β → β' → Prop} {o : Except Fault α × β} {o' : Except Fault α × β'}

theorem Paired.agree (h : Paired E T o o') : Agree E o.1 o'.1 := by
  cases h with
  | ok a _ => exact .ok a
  | error he _ => exact .error he

theorem Paired.rest (h : Paired E T o o') : T o.2 o'.2 := by
  cases h with
  | ok _ h => exact h
  | error _ h => exact h

theorem Paired.map {γ : Type} (f : α → γ) (h : Paired E T o o') :
    Paired E T (o.1.map f, o.2) (o'.1.map f, o'.2) := by
  cases h with
  | ok a h => exact .ok (f a) h
  | error he h => exact .error he h

/-- Faults that are the same correspond. -/
theorem Paired.of_eq (hE : ∀ e, E e e) (h : Paired Eq T o o') : Paired E T o o' := by
  cases h with
  | ok a h => exact .ok a h
  | error he h => exact .error (he ▸ hE _) h

theorem paired_self (o : Except Fault α × β) {y : β'} (h : T o.2 y) : Paired Eq T o (o.1, y) := by
  rcases o with ⟨r, z⟩
  cases r with
  | ok a => exact .ok a h
  | error e => exact .error rfl h

end Paired

/-- It is about a call on the link, or about an opening that fails. Two clients side by side may differ in these. -/
def Happening.mayDiffer : Happening → Bool
  | .handed _ | .released | .releaseFailed _ | .discoveryFailed _ => true
  | _ => false

/-- The exchange goes on: this happens, and these are its arrivals and its phase from then on. -/
def Exchange.proceed (x : Exchange σ) (hs : Chronicle) (b : Arrivals) (p : Phase) : Exchange σ :=
  { x with arrivals := b, phase := p, chronicle := x.chronicle ++ hs }

/-- Exchanges that are side by side have the same arrivals and the same phase, and if both go on in the same way
without a call on the link, they still are. -/
structure Abreast (c : Connection σ) (c' : Connection τ) (S : Exchange σ → Exchange τ → Prop) : Prop where
  config : c'.config = c.config
  arrivals : ∀ {x x'}, S x x' → x'.arrivals = x.arrivals
  phase : ∀ {x x'}, S x x' → x'.phase = x.phase
  proceed : ∀ {x x'} {hs : Chronicle} (b : Arrivals) (p : Phase), (∀ h ∈ hs, h.mayDiffer = false) → S x x' →
    S (x.proceed hs b p) (x'.proceed hs b p)

namespace Abreast

variable {c : Connection σ} {c' : Connection τ} {S : Exchange σ → Exchange τ → Prop} (hA : Abreast c c' S)
  {x : Exchange σ} {x' : Exchange τ} (hx : S x x')

include hA hx

theorem isOpen : x'.isOpen = x.isOpen := by
  rw [Exchange.isOpen, Exchange.isOpen, hA.phase hx]

/-! ### Without a call on the link -/

theorem note {h : Happening} (hh : h.mayDiffer = false) : S (x.note h) (x'.note h) := by
  show S (x.proceed [h] x.arrivals x.phase) (x'.proceed [h] x'.arrivals x'.phase)
  rw [hA.arrivals hx, hA.phase hx]
  exact hA.proceed _ _ (by simpa using hh) hx

theorem receive (octets : Octets) : S (x.receive octets) (x'.receive octets) := by
  cases octets with
  | nil => exact hA.note hx rfl
  | cons code rest =>
      rw [Exchange.receive, Exchange.receive]
      split_ifs
      · cases Frame.decode (code :: rest) with
        | error e => exact hA.note hx rfl
        | ok f =>
            show S (x.proceed [.received f] (x.arrivals.push f) x.phase)
              (x'.proceed [.received f] (x'.arrivals.push f) x'.phase)
            rw [hA.arrivals hx, hA.phase hx]
            exact hA.proceed _ _ (by simp [Happening.mayDiffer]) hx
      · exact hA.note hx rfl

theorem linkClosed (n : ClosingNotice) : S (x.linkClosed c n) (x'.linkClosed c' n) := by
  have hnotes : Exchange.closingNotes c' x' n = Exchange.closingNotes c x n := by
    rw [Exchange.closingNotes, Exchange.closingNotes, hA.config, hA.arrivals hx, hA.phase hx, hA.isOpen hx]
  rw [Exchange.linkClosed_eq, Exchange.linkClosed_eq, hnotes]
  show S (x.proceed (Exchange.closingNotes c x n) .empty x.phase.close)
    (x'.proceed (Exchange.closingNotes c x n) .empty x'.phase.close)
  rw [hA.phase hx]
  refine hA.proceed _ _ (fun h hh => ?_) hx
  rcases Exchange.closingNotes_cases hh with rfl | rfl | rfl | rfl <;> rfl

theorem searched (passed left : List Frame) : S (x.searched passed left) (x'.searched passed left) := by
  show S (x.proceed (passed.map .discarded) ⟨left⟩ x.phase) (x'.proceed (passed.map .discarded) ⟨left⟩ x'.phase)
  rw [hA.phase hx]
  refine hA.proceed _ _ (fun h hh => ?_) hx
  obtain ⟨f, -, rfl⟩ := List.mem_map.mp hh
  rfl

theorem abandonArrivals {k : Nat → Happening} (hk : ∀ n, (k n).mayDiffer = false) :
    S (x.abandonArrivals k) (x'.abandonArrivals k) := by
  show S (x.proceed [k x.arrivals.size] .empty x.phase) (x'.proceed [k x'.arrivals.size] .empty x'.phase)
  rw [hA.arrivals hx, hA.phase hx]
  exact hA.proceed _ _ (by simpa using hk _) hx

theorem shut (cause : ClosingCause) : S (x.shut cause) (x'.shut cause) := by
  rw [Exchange.shut, Exchange.shut, hA.isOpen hx]
  split_ifs
  · show S (x.proceed [.closing cause] x.arrivals x.phase.close)
      (x'.proceed [.closing cause] x'.arrivals x'.phase.close)
    rw [hA.arrivals hx, hA.phase hx]
    exact hA.proceed _ _ (by simp [Happening.mayDiffer]) hx
  · exact hx

/-! ### With a release of the link -/

variable (hrelease : ∀ {x x'}, S x x' → S (x.release c) (x'.release c'))

include hrelease

theorem closeFor (cause : ClosingCause) : S (x.closeFor c cause) (x'.closeFor c' cause) := by
  rw [Exchange.closeFor, Exchange.closeFor, hA.isOpen hx]
  split_ifs
  · exact hrelease (hA.shut hx cause)
  · exact hx

theorem close : S (x.close c) (x'.close c') := by
  rw [Exchange.close, Exchange.close, hA.isOpen hx]
  split_ifs
  · exact hA.note (hA.closeFor hx hrelease .caller) rfl
  · exact hx

theorem resetSeen : S (Exchange.resetSeen c x) (Exchange.resetSeen c' x') := by
  have hseen : S (x.note .resetSeen) (x'.note .resetSeen) := hA.note hx rfl
  have hgo (hs : Chronicle) (hhs : ∀ h ∈ hs, h.mayDiffer = false) :
      S ((x.note .resetSeen).proceed hs x.arrivals x.phase.reset)
        ((x'.note .resetSeen).proceed hs x'.arrivals x'.phase.reset) := by
    rw [hA.arrivals hx, hA.phase hx]
    exact hA.proceed _ _ hhs hseen
  rw [Exchange.resetSeen, Exchange.resetSeen, hA.isOpen hx]
  split_ifs
  · exact hrelease (hgo [.closing .reset] (by simp [Happening.mayDiffer]))
  · have hlate := hgo [] (by simp)
    simp only [Exchange.proceed, List.append_nil] at hlate
    exact hlate

/-- Both searches come to the same end. -/
theorem scan {awaited : Service} (hr : awaited ≠ .resetIndication) :
    Paired Eq S (x.scan c awaited) (x'.scan c' awaited) := by
  have hframes : x'.arrivals.frames = x.arrivals.frames := by rw [hA.arrivals hx]
  rcases Exchange.divide awaited x.arrivals.frames with hall | ⟨passed, f, left, hf, hp, hreset | ha⟩
  · rw [Exchange.scan_exhausted c hall, Exchange.scan_exhausted c' (x := x') (hframes ▸ hall), hframes]
    exact .error rfl (hA.searched hx _ _)
  · rw [Exchange.scan_reset c hf hp hreset, Exchange.scan_reset c' (hframes.trans hf) hp hreset]
    exact .error rfl (hA.resetSeen (hA.searched hx passed left) hrelease)
  · rw [Exchange.scan_found c hf hp ha hr, Exchange.scan_found c' (hframes.trans hf) hp ha hr]
    exact paired_self (Exchange.answerOf f, x.searched passed left) (hA.searched hx passed left)

end Abreast

end BusManagement
