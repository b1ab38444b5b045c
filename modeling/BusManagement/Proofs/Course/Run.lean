import BusManagement.Proofs.Course.Client

/-! Runs, call by call. A run is what comes in front of one of its calls, that call, and what follows; and
what follows is a course of the exchange. -/

namespace BusManagement.Client

variable {σ : Type}

/-- The client in front of a call of a run. -/
def before (c : Connection σ) (k : Client σ) (calls : List Call) (i : Nat) : Client σ :=
  (k.run c (calls.take i)).2

theorem run_append (c : Connection σ) (k : Client σ) (calls rest : List Call) :
    k.run c (calls ++ rest) =
      ((k.run c calls).1 ++ ((k.run c calls).2.run c rest).1, ((k.run c calls).2.run c rest).2) := by
  induction calls generalizing k with
  | nil => rfl
  | cons call calls ih => simp [run, ih]

theorem length_run (c : Connection σ) (k : Client σ) (calls : List Call) :
    (k.run c calls).1.length = calls.length := by
  induction calls generalizing k with
  | nil => rfl
  | cons call calls ih => simp [run, ih]

variable {c : Connection σ} {k : Client σ} {calls : List Call}

/-- A run is what comes in front of a call and what follows. -/
theorem run_eq_before (c : Connection σ) (k : Client σ) (calls : List Call) (i : Nat) :
    k.run c calls =
      ((k.run c (calls.take i)).1 ++ ((k.before c calls i).run c (calls.drop i)).1,
        ((k.before c calls i).run c (calls.drop i)).2) := by
  have h := run_append c k (calls.take i) (calls.drop i)
  rwa [List.take_append_drop] at h

theorem before_succ {i : Nat} {call : Call} (h : calls[i]? = some call) :
    k.before c calls (i + 1) = ((k.before c calls i).perform c call).2 := by
  rw [before, List.take_add_one, h, Option.toList_some, run_append]
  rfl

theorem getElem?_run {i : Nat} {call : Call} (h : calls[i]? = some call) :
    (k.run c calls).1[i]? = some ((k.before c calls i).perform c call).1 := by
  obtain ⟨hlt, hget⟩ := List.getElem?_eq_some_iff.mp h
  have hlength : (k.run c (calls.take i)).1.length = i := by
    rw [length_run, List.length_take]
    omega
  rw [run_eq_before c k calls i, List.getElem?_append_right (by omega), hlength, Nat.sub_self,
    List.drop_eq_getElem_cons hlt, hget]
  rfl

theorem leads_before (c : Connection σ) (k : Client σ) (calls : List Call) {i j : Nat} (hij : i ≤ j) :
    Leads (Exchange.Course c) (k.before c calls i) (k.before c calls j) := by
  have htake : calls.take j = calls.take i ++ (calls.take j).drop i := by
    have h := List.take_append_drop i (calls.take j)
    rw [List.take_take, Nat.min_eq_left hij] at h
    exact h.symm
  rw [before, before, htake, run_append]
  exact leads_run c _ _

theorem leads_run_before (c : Connection σ) (k : Client σ) (calls : List Call) (i : Nat) :
    Leads (Exchange.Course c) (k.before c calls i) (k.run c calls).2 := by
  rw [run_eq_before c k calls i]
  exact leads_run c _ _

end BusManagement.Client
