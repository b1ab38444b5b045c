import BusManagement.Proofs.Readings

/-! Where a query leaves the bookmark. A query by id forgets it. A query by position moves it to the property that it
finds, and does so before it tries to write; a query that comes to the last property id without finding the property
puts it back to the start. A read that fails for any other reason than a refusal leaves the bookmark as the query found
it: the query can be repeated, and then reads again what it has read in vain and counts it from there. -/

namespace BusManagement

open Simulation (Scripted)

variable {σ : Type}

/-- A query goes on from a bookmark in the object that it is about, unless that is at a later property; any other query
starts from the beginning. -/
inductive Bookmark.Resumes (object : UInt16) (pid : UInt8) (index : UInt16) : Bookmark → Bookmark → Prop
  | onward {i : UInt16} {p : UInt8} (hpid : pid = 0) (hle : i ≤ index) :
      Resumes object pid index (.found object i p) (.found object i p)
  | anew {b : Bookmark} (h : ∀ i p, b = .found object i p → pid = 0 → ¬i ≤ index) : Resumes object pid index b .start

theorem Bookmark.resumes_iff {object : UInt16} {pid : UInt8} {index : UInt16} {b b' : Bookmark} :
    b.Resumes object pid index b' ↔ b.forQuery object pid index = b' := by
  constructor
  · intro h
    cases h with
    | onward hpid hle => simp [forQuery, continues, hpid, hle]
    | anew h =>
        rw [forQuery, if_neg]
        intro hc
        cases b with
        | start => cases hc
        | found o i p =>
            simp only [continues, decide_eq_true_eq] at hc
            obtain ⟨hpid, rfl, hle⟩ := hc
            exact h i p rfl hpid hle
  · rintro rfl
    rw [forQuery]
    split_ifs with hc
    · cases b with
      | start => cases hc
      | found o i p =>
          simp only [continues, decide_eq_true_eq] at hc
          obtain ⟨hpid, rfl, hle⟩ := hc
          exact .onward hpid hle
    · refine .anew fun i p hb hpid hle => hc ?_
      simp [hb, continues, hpid, hle]

/-- A bookmark that a query by position goes on from is one that the same query goes on from. -/
theorem Bookmark.Resumes.again {object index : UInt16} {b b' : Bookmark} (h : b.Resumes object 0 index b') :
    b'.Resumes object 0 index b' := by
  cases h with
  | onward hpid hle => exact .onward rfl hle
  | anew _ => exact .anew (by simp)

/-- The position that a call asks about, if it is a query. -/
def Call.position? : Call → Option UInt16
  | .describe _ _ index => some index
  | _ => none

namespace Client

variable {c : Connection σ} {object index : UInt16} {k k₁ k₂ : Client σ} {s : Probe}

theorem bookmark_perform {call : Call} (hc : call.position? = none) : (k.perform c call).2.bookmark = k.bookmark := by
  cases call with
  | get object pid first elements => exact (keeps_get (covers_any c k.objects object) pid first elements).bookmark
  | set object pid first elements data =>
      exact (keeps_set (covers_any c k.objects object) pid first elements data).bookmark
  | describe object pid index => cases hc
  | _ => rfl

/-- Nothing but queries moves the bookmark. -/
theorem bookmark_run {calls : List Call} (hc : ∀ call ∈ calls, call.position? = none) :
    (k.run c calls).2.bookmark = k.bookmark := by
  induction calls generalizing k with
  | nil => rfl
  | cons call rest ih =>
      obtain ⟨hcall, hrest⟩ := List.forall_mem_cons.mp hc
      exact (ih hrest).trans (bookmark_perform hcall)

/-- The bookmark is settled once the property is found or not; finding out about writing does not move it. -/
theorem bookmark_describe (ho : k.isOpen = true) (pid : UInt8) :
    (k.describe c object pid index).2.bookmark =
      ((k.queried object pid index).select c object pid index).2.bookmark := by
  have hdescribes := describes c k object pid index
  generalize k.describe c object pid index = o at hdescribes ⊢
  cases hdescribes with
  | closed hclosed => exact absurd ho hclosed
  | missed hselect => rw [hselect]
  | placed _ hselect => rw [hselect]
  | @probed p v k₁ _ hselect =>
      rw [hselect]
      exact (keeps_writable (covers_any c k₁.objects object) p v).bookmark

theorem describe_of_missed (ho : k.isOpen = true) {pid : UInt8} {e : Fault}
    (h : (k.queried object pid index).select c object pid index = (.error e, k₁)) :
    k.describe c object pid index = (.error e, k₁) := by
  rw [queried] at h
  rw [describe, if_pos ho, h]

/-- A query by id leaves no bookmark. -/
theorem bookmark_describe_of_pid (ho : k.isOpen = true) {pid : UInt8} (hpid : pid ≠ 0) :
    (k.describe c object pid index).2.bookmark = .start := by
  have hstart : (k.queried object pid index).bookmark = .start :=
    Bookmark.resumes_iff.mp (.anew fun _ _ _ h => absurd h hpid)
  rw [bookmark_describe ho, select, if_neg hpid]
  rcases hget : (k.queried object pid index).getFirst c object pid with ⟨e | value, k₁⟩ <;>
    exact (keeps_of_getFirst hget).bookmark.trans hstart

section Reachable

variable (ho : k.isOpen = true) (hf : k.bookmark.Fits)

include hf in
theorem select_of_locates {o : Except Fault (UInt8 × Option Octets)}
    (h : Locates c object index (k.queried object 0 index) o k₁) :
    (k.queried object 0 index).select c object 0 index = (o, k₁) := by
  rw [select, if_pos rfl]
  exact h.locate_eq (hf.forQuery object 0 index) (k.bookmark.serves_forQuery object 0 index)

include ho hf

theorem bookmark_of_found (h : Probes c object index (k.queried object 0 index) s k₁)
    (heq : s.index = some index.toNat) :
    (k.describe c object 0 index).2.bookmark = .found object index (UInt8.ofNat s.pid) := by
  rw [bookmark_describe ho, select_of_locates hf (.found h heq)]

theorem describe_of_exhausted (h : Probes c object index (k.queried object 0 index) s k₁)
    (hne : s.index ≠ some index.toNat) (hpid : s.pid = 255) :
    k.describe c object 0 index = (.error (.positionNotFound object index), { k₁ with bookmark := .start }) :=
  describe_of_missed ho (select_of_locates hf (.exhausted h hne hpid))

theorem describe_of_failed (h : Probes c object index (k.queried object 0 index) s k₁)
    (hne : s.index ≠ some index.toNat) (hlt : s.pid < 255) {e : Fault}
    (hget : k₁.getFirst c object (UInt8.ofNat (s.pid + 1)) = (.error e, k₂)) (he : e.kind ≠ .remote) :
    k.describe c object 0 index = (.error e, k₂) ∧ k₂.bookmark = (k.queried object 0 index).bookmark := by
  refine ⟨describe_of_missed ho (select_of_locates hf (.failed h hne hlt hget he)), ?_⟩
  exact (keeps_of_getFirst hget).bookmark.trans h.keeps.bookmark

end Reachable

/-- At any moment of a run nothing but a query moves the bookmark. A query by id leaves none. A query by position reads
the ids behind the bookmark that it starts from, one after the other, and counts those that the device has on top of
what the bookmark counts. It ends in one of three ways: at the property, which is where it leaves the bookmark even if
the client cannot find out about writing; behind the last id, with a fault of the remote side and no bookmark; or with
the first read that fails for another reason, whose fault it gives, and then the bookmark is the one that it started
from, and the same query starts from it again. -/
theorem bookmark_of_query (c : Connection σ) {link : σ} (hk : start c link = .opened k) (calls : List Call) :
    (∀ others : List Call, (∀ call ∈ others, call.position? = none) →
      ((k.run c calls).2.run c others).2.bookmark = (k.run c calls).2.bookmark) ∧
    ∀ m, (k.run c calls).2 = m → m.isOpen = true → ∀ object pid index b, m.bookmark.Resumes object pid index b →
      (pid ≠ 0 → (m.describe c object pid index).2.bookmark = .start) ∧
      (pid = 0 →
        (∃ o k₁, Locates c object index { m with bookmark := b } o k₁) ∧
        ∀ s k₁, Probes c object index { m with bookmark := b } s k₁ →
          (∃ present, Reads c object { m with bookmark := b } (pidsUpTo b.pid.toNat s.pid) present k₁ ∧
            s.count = b.count + present.length) ∧
          (s.index = some index.toNat →
            (m.describe c object 0 index).2.bookmark = .found object index (UInt8.ofNat s.pid)) ∧
          (s.index ≠ some index.toNat → s.pid = 255 →
            m.describe c object 0 index = (.error (.positionNotFound object index), { k₁ with bookmark := .start }) ∧
            (Fault.positionNotFound object index).kind = .remote) ∧
          (s.index ≠ some index.toNat → s.pid < 255 → ∀ e k₂,
            k₁.getFirst c object (UInt8.ofNat (s.pid + 1)) = (.error e, k₂) → e.kind ≠ .remote →
            m.describe c object 0 index = (.error e, k₂) ∧ k₂.bookmark = b ∧ b.Resumes object 0 index b)) := by
  refine ⟨fun others hothers => bookmark_run hothers, ?_⟩
  rintro m rfl ho object pid index b hb
  have hf : (k.run c calls).2.bookmark.Fits := by
    refine fits_run ?_ calls
    rw [bookmark_of_start hk]
    trivial
  refine ⟨fun hpid => bookmark_describe_of_pid ho hpid, ?_⟩
  rintro rfl
  obtain rfl := Bookmark.resumes_iff.mp hb
  have hstart : Probes c object index ((k.run c calls).2.queried object 0 index) _ _ := .start
  refine ⟨hstart.exists_locates (hf.forQuery object 0 index) (Bookmark.serves_forQuery _ object 0 index),
    fun s k₁ h => ⟨h.reads, fun heq => ?found, fun hne hpid => ?exhausted, fun hne hlt e k₂ hget he => ?failed⟩⟩
  case found => exact bookmark_of_found ho hf h heq
  case exhausted => exact ⟨describe_of_exhausted ho hf h hne hpid, rfl⟩
  case failed =>
    obtain ⟨hdescribe, hsame⟩ := describe_of_failed ho hf h hne hlt hget he
    exact ⟨hdescribe, hsame, hb.again⟩

/-- The first object of this device has the properties 1 and 3. -/
def firstAndThird : Scripted :=
  .ofStore ⟨some [0, 8], none, [(⟨0, 1, 1⟩, ⟨[0, 0], false⟩), (⟨0, 1, 3⟩, ⟨[7], true⟩)]⟩

/-- The same device, which loses the fifth request. -/
def lossy : Scripted :=
  let answer : Simulation.Action Simulation.Interlude := ⟨true, [], [], none, [], .ok ()⟩
  { firstAndThird with
    script := [answer, answer, answer, answer, ⟨false, [], [], none, [], .error (.ofLink .connection "timeout")⟩] }

/-- The query for the second property reads the id 2 and fails at 3, and it will read both of them again. -/
theorem bookmark_of_query_lossy :
    ∃ k m k₂, start (Scripted.connection .plain) lossy = .opened k ∧
      (k.run (Scripted.connection .plain) [.describe 0 0 0]).2 = m ∧ m.bookmark = .found 0 0 1 ∧
      m.describe (Scripted.connection .plain) 0 0 1 = (.error (.ofLink .connection "timeout"), k₂) ∧
      k₂.bookmark = .found 0 0 1 ∧ k₂.bookmark.Resumes 0 0 1 (.found 0 0 1) := by
  obtain ⟨k, m, k₁, k₂, hk, hm, hb, ho, hmiss, hfail⟩ : ∃ k m k₁ k₂,
      start (Scripted.connection .plain) lossy = .opened k ∧
      (k.run (Scripted.connection .plain) [.describe 0 0 0]).2 = m ∧ m.bookmark = .found 0 0 1 ∧ m.isOpen = true ∧
      m.getFirst (Scripted.connection .plain) 0 2 = (.error (.refused Refusal.voidPoint), k₁) ∧
      k₁.getFirst (Scripted.connection .plain) 0 3 = (.error (.ofLink .connection "timeout"), k₂) :=
    ⟨_, _, _, _, rfl, rfl, rfl, rfl, rfl, rfl⟩
  obtain ⟨-, hqueries⟩ := bookmark_of_query (Scripted.connection .plain) hk [.describe 0 0 0]
  have hresumes : Bookmark.Resumes 0 0 1 (.found 0 0 1) (.found 0 0 1) := .onward rfl (by decide)
  obtain ⟨-, hposition⟩ := hqueries m hm ho 0 0 1 (.found 0 0 1) (hb ▸ hresumes)
  obtain ⟨-, hends⟩ := hposition rfl
  have hsame : { m with bookmark := .found 0 0 1 } = m := by rw [← hb]
  rw [hsame] at hends
  have hprobes : Probes (Scripted.connection .plain) 0 1 m (Probe.miss ⟨some 0, 1, none⟩) k₁ := by
    have hstart : Probes (Scripted.connection .plain) 0 1 m ⟨some 0, 1, none⟩ m := by
      have h : Probes (Scripted.connection .plain) 0 1 m (.ofBookmark m.bookmark) m := .start
      rwa [hb] at h
    exact hstart.miss (by decide) (by decide) hmiss rfl
  obtain ⟨-, -, -, hfailed⟩ := hends _ k₁ hprobes
  obtain ⟨hdescribe, hbookmark, hagain⟩ := hfailed (by decide) (by decide) _ k₂ hfail (by decide)
  exact ⟨k, m, k₂, hk, hm, hb, hdescribe, hbookmark, hbookmark ▸ hagain⟩

end Client

end BusManagement
