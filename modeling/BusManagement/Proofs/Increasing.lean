import BusManagement.Proofs.Resumption

/-! Queries that go on. Queries for the positions of one object, none of them for an earlier position than the one
before, share their reads: each goes on from the property that the last one has found, whatever else is asked of the
client in between. So together they read every property id once, up to the id of the property that was found last, in
increasing order. -/

namespace BusManagement

open Simulation (Scripted)

variable {σ : Type}

/-- The queries among these calls ask for positions in one object, and each for no earlier one than those before. -/
structure Call.Increasing (object : UInt16) (calls : List Call) : Prop where
  asks : ∀ o pid index, .describe o pid index ∈ calls → o = object ∧ pid = 0
  sorted : (calls.filterMap Call.position?).Pairwise (· ≤ ·)

theorem Call.Increasing.tail {object : UInt16} {call : Call} {rest : List Call}
    (h : Increasing object (call :: rest)) : Increasing object rest := by
  refine ⟨fun o pid index hmem => h.asks o pid index (List.mem_cons_of_mem call hmem), ?_⟩
  have hsorted := h.sorted
  rw [List.filterMap_cons] at hsorted
  split at hsorted
  · exact hsorted
  · exact hsorted.of_cons

theorem Call.Increasing.le {object : UInt16} {index : UInt16} {rest : List Call}
    (h : Increasing object (.describe object 0 index :: rest)) :
    ∀ later ∈ rest.filterMap Call.position?, index ≤ later :=
  (List.pairwise_cons.mp h.sorted).1

/-- The query is the last one in front of a moment of the run. -/
structure Call.Latest (object index : UInt16) (calls : List Call) (i n : Nat) : Prop where
  lt : i < n
  query : calls[i]? = some (.describe object 0 index)
  last : ∀ l call, i < l → l < n → calls[l]? = some call → call.position? = none

theorem Call.Latest.tail {object index : UInt16} {call : Call} {rest : List Call} {i n : Nat}
    (h : Latest object index (call :: rest) (i + 1) (n + 1)) : Latest object index rest i n := by
  refine ⟨Nat.lt_of_succ_lt_succ h.lt, h.query, fun l later hil hln hl => ?_⟩
  exact h.last (l + 1) later (Nat.succ_lt_succ hil) (Nat.succ_lt_succ hln) hl

theorem Call.Latest.others {object index : UInt16} {call : Call} {rest : List Call} {n : Nat}
    (h : Latest object index (call :: rest) 0 (n + 1)) : ∀ later ∈ rest.take n, later.position? = none := by
  intro later hmem
  obtain ⟨l, hl, hlater⟩ := List.mem_take_iff_getElem.mp hmem
  apply h.last (l + 1) later (Nat.succ_pos l) (by omega)
  rw [List.getElem?_cons_succ, ← hlater]
  exact List.getElem?_eq_getElem (by omega)

namespace Client

/-- What the queries among these calls hand over, one after the other. -/
def asked (c : Connection σ) (k : Client σ) : List Call → List Transmission
  | [] => []
  | call :: rest =>
    let k' := (k.perform c call).2
    (if call.position? = none then []
      else k'.exchange.chronicle.transmissions.drop k.exchange.chronicle.transmissions.length) ++ asked c k' rest

variable {c : Connection σ} {object index : UInt16} {k k₁ k₂ : Client σ} {calls : List Call}

/-! ### One query -/

/-- From the bookmark that a query starts from to the property that it finds, it reads the ids in between. -/
structure Advances (object index : UInt16) (b : Bookmark) (octets : Octets) (a : ObjectAddress) (p : UInt8)
    (k k' : Client σ) : Prop where
  address : k.objects.address object = .ok a
  objects : k'.objects = k.objects
  pid : octets[1]? = some p
  le : b.pid.toNat ≤ p.toNat
  bookmark : k'.bookmark = .found object index p
  fits : k'.bookmark.Fits
  transmissions : k'.exchange.chronicle.transmissions =
    k.exchange.chronicle.transmissions ++ (pidsUpTo b.pid.toNat p.toNat).map a.readFirst

/-- Every query that succeeds advances. One that starts from the beginning reads at least the id of the property that
it finds, so its object is listed. -/
theorem advances_of_describe (hq : c.config.probesWriting = false) {b : Bookmark}
    (hb : k.bookmark.forQuery object 0 index = b) (hf : b.Fits)
    (hknown : b = .start ∨ ∃ a, k.objects.address object = .ok a) {octets : Octets}
    (h : k.describe c object 0 index = (.ok octets, k₂)) : ∃ a p, Advances object index b octets a p k k₂ := by
  have hbookmark : (k.queried object 0 index).bookmark = b := hb
  have hfq : (k.queried object 0 index).bookmark.Fits := hbookmark ▸ hf
  have hsq : (k.queried object 0 index).bookmark.Serves index := k.bookmark.serves_forQuery object 0 index
  obtain ⟨p, v, enabled, k₁, hselect, hflags, rfl⟩ := describe_eq_ok h
  obtain rfl : k₂ = k₁ := by
    cases hflags with
    | unasked _ => rfl
    | confirmed hyes => rw [hq] at hyes; cases hyes
    | refused hyes => rw [hq] at hyes; cases hyes
  rw [select, if_pos rfl] at hselect
  generalize ho : (Except.ok (p, v) : Except Fault (UInt8 × Option Octets)) = o at hselect
  have hlocates := (locates_iff hfq hsq).mpr hselect
  have hfits := hlocates.fits hfq hsq
  cases hlocates with
  | exhausted => cases ho
  | failed => cases ho
  | @found s k₁ hprobes heq =>
      obtain ⟨rfl, -⟩ := Prod.mk.inj (Except.ok.inj ho)
      obtain ⟨present, hreads, hcount⟩ := hprobes.reads
      have hpid : (UInt8.ofNat s.pid).toNat = s.pid := by
        have hle := (hprobes.sound hfq hsq).pid_le
        rw [UInt8.toNat_ofNat', Nat.mod_eq_of_lt (Nat.lt_succ_of_le hle)]
      have hle := hprobes.pid_le
      rw [hbookmark] at hreads hcount hle
      -- A query that goes on may read nothing, and then it does not tell whether the object is listed.
      obtain ⟨a, ha⟩ : ∃ a, (k.queried object 0 index).objects.address object = .ok a := by
        rcases hknown with rfl | ha
        · refine hreads.exists_address ?_
          rintro rfl
          rw [Probe.count, heq] at hcount
          cases hcount
        · exact ha
      have htransmissions := hreads.transmissions ha
      refine ⟨a, UInt8.ofNat s.pid, ha, hreads.keeps.objects, ?_, ?_, rfl, hfits, ?_⟩
      · rw [octets_placeOf]
        rfl
      · rwa [hpid]
      · rwa [hpid]

/-- A query for the position where the bookmark stands does nothing. -/
theorem exchange_describe_of_bookmark (hq : c.config.probesWriting = false) {p : UInt8}
    (hb : k.bookmark = .found object index p) : (k.describe c object 0 index).2.exchange = k.exchange := by
  have hresumes : (k.queried object 0 index).bookmark = .found object index p := by
    apply Bookmark.resumes_iff.mp
    rw [hb]
    exact .onward rfl (UInt16.le_refl index)
  have hselect : (k.queried object 0 index).select c object 0 index =
      (.ok (p, none), { k.queried object 0 index with bookmark := .found object index p }) := by
    rw [select, if_pos rfl, locate, hresumes]
    simp only [Bookmark.count, Bookmark.pid, Nat.sub_self, search]
  have hdescribes := describes c k object 0 index
  generalize k.describe c object 0 index = o at hdescribes ⊢
  cases hdescribes with
  | closed _ => rfl
  | missed h =>
      rw [hselect] at h
      cases h
  | placed _ h =>
      rw [hselect] at h
      cases h
      rfl
  | probed hyes _ =>
      rw [hq] at hyes
      cases hyes

/-! ### Runs -/

/-- All queries among the calls of this run succeed. -/
def Succeeds (c : Connection σ) (k : Client σ) (calls : List Call) : Prop :=
  ∀ (i : Nat) (call : Call), calls[i]? = some call → call.position? ≠ none →
    ∃ r, (k.run c calls).1[i]? = some (.ok r)

theorem Succeeds.tail {call : Call} {rest : List Call} (h : Succeeds c k (call :: rest)) :
    Succeeds c (k.perform c call).2 rest := fun i later hi hp => h (i + 1) later hi hp

theorem Succeeds.head {rest : List Call} {pid : UInt8} (h : Succeeds c k (.describe object pid index :: rest)) :
    ∃ octets k', k.describe c object pid index = (.ok octets, k') := by
  obtain ⟨r, hr⟩ := h 0 _ rfl (by simp [Call.position?])
  have hperform : (k.perform c (.describe object pid index)).1 = .ok r := Option.some.inj hr
  rw [perform] at hperform
  rcases hdescribe : k.describe c object pid index with ⟨e | octets, k'⟩
  · rw [hdescribe] at hperform
    cases hperform
  · exact ⟨octets, k', rfl⟩

theorem asked_cons_of_other {call : Call} (hp : call.position? = none) (rest : List Call) :
    asked c k (call :: rest) = asked c (k.perform c call).2 rest := by
  rw [asked, if_pos hp, List.nil_append]

theorem asked_cons_of_query {ts : List Transmission} {pid : UInt8} {r : Except Fault Octets}
    (h : k.describe c object pid index = (r, k₁))
    (hts : k₁.exchange.chronicle.transmissions = k.exchange.chronicle.transmissions ++ ts) (rest : List Call) :
    asked c k (.describe object pid index :: rest) = ts ++ asked c k₁ rest := by
  have hperform : (k.perform c (.describe object pid index)).2 = k₁ := by
    rw [perform, h]
  rw [asked, if_neg (by simp [Call.position?]), hperform, hts, List.drop_left]

theorem asked_of_others {calls : List Call} (hc : ∀ call ∈ calls, call.position? = none) : asked c k calls = [] := by
  induction calls generalizing k with
  | nil => rfl
  | cons call rest ih =>
      obtain ⟨hcall, hrest⟩ := List.forall_mem_cons.mp hc
      rw [asked_cons_of_other hcall]
      exact ih hrest

/-- What the queries of a run have come to at a moment of it, with the last one of them the one with this index: they
have read the property ids from a bookmark on, and they have found the property where they have come to. -/
structure Arrives (c : Connection σ) (k : Client σ) (object index : UInt16) (b : Bookmark) (calls : List Call)
    (i n : Nat) (a : ObjectAddress) (p : UInt8) : Prop where
  address : k.objects.address object = .ok a
  reply : ∃ octets, (k.run c calls).1[i]? = some (.ok (.data octets)) ∧ octets[1]? = some p
  le : b.pid.toNat ≤ p.toNat
  bookmark : (k.before c calls n).bookmark = .found object index p
  fits : (k.before c calls n).bookmark.Fits
  reads : asked c k (calls.take n) = (pidsUpTo b.pid.toNat p.toNat).map a.readFirst

theorem before_cons (call : Call) (rest : List Call) (n : Nat) :
    k.before c (call :: rest) (n + 1) = (k.perform c call).2.before c rest n := rfl

theorem perform_describe {pid : UInt8} {octets : Octets} (h : k.describe c object pid index = (.ok octets, k₁)) :
    k.perform c (.describe object pid index) = (.ok (.data octets), k₁) := by
  rw [perform, h]
  rfl

section Steps

variable {b : Bookmark} {rest : List Call} {i n : Nat} {a : ObjectAddress} {p : UInt8}

/-- What is asked in front of the queries does not matter to them. -/
theorem Arrives.behind_other {call : Call} (hp : call.position? = none)
    (h : Arrives c (k.perform c call).2 object index b rest i n a p) :
    Arrives c k object index b (call :: rest) (i + 1) (n + 1) a p := by
  have hobjects : (k.perform c call).2.objects = k.objects := (leads_perform c k call).objects
  refine ⟨hobjects ▸ h.address, h.reply, h.le, h.bookmark, h.fits, ?_⟩
  rw [List.take_succ_cons, asked_cons_of_other hp]
  exact h.reads

/-- With no other query behind it, a query has come to the property that it has found. -/
theorem Advances.arrives {octets : Octets} (h : Advances object index b octets a p k k₁)
    (hdescribe : k.describe c object 0 index = (.ok octets, k₁)) (hc : ∀ call ∈ rest.take n, call.position? = none) :
    Arrives c k object index b (.describe object 0 index :: rest) 0 (n + 1) a p := by
  have hperform := perform_describe hdescribe
  have hsame : (k.before c (.describe object 0 index :: rest) (n + 1)).bookmark = k₁.bookmark := by
    rw [before_cons, hperform]
    exact bookmark_run hc
  refine ⟨h.address, ⟨octets, ?_, h.pid⟩, h.le, ?_, ?_, ?_⟩
  · rw [run, hperform]
    rfl
  · rw [hsame, h.bookmark]
  · rw [hsame]
    exact h.fits
  · rw [List.take_succ_cons, asked_cons_of_query hdescribe h.transmissions, asked_of_others hc, List.append_nil]

/-- The queries behind a query read on from the property that it has found. -/
theorem Arrives.behind_query {position : UInt16} {octets : Octets} {q : UInt8}
    (hdescribe : k.describe c object 0 position = (.ok octets, k₁)) (ha : Advances object position b octets a q k k₁)
    (h : Arrives c k₁ object index (.found object position q) rest i n a p) :
    Arrives c k object index b (.describe object 0 position :: rest) (i + 1) (n + 1) a p := by
  have hperform := perform_describe hdescribe
  have hbefore : k.before c (.describe object 0 position :: rest) (n + 1) = k₁.before c rest n := by
    rw [before_cons, hperform]
  refine ⟨ha.address, ?_, Nat.le_trans ha.le h.le, ?_, ?_, ?_⟩
  · rw [run, hperform]
    exact h.reply
  · rw [hbefore]
    exact h.bookmark
  · rw [hbefore]
    exact h.fits
  · have hasked : asked c k₁ (rest.take n) = (pidsUpTo q.toNat p.toNat).map a.readFirst := h.reads
    rw [List.take_succ_cons, asked_cons_of_query hdescribe ha.transmissions, hasked, ← List.map_append,
      pidsUpTo_append ha.le h.le]

end Steps

/-- The queries of a run read the property ids from behind the bookmark that the first of them starts from. -/
theorem arrives_of_increasing (hq : c.config.probesWriting = false) (hi : Call.Increasing object calls)
    (hok : Succeeds c k calls) {b : Bookmark} (hf : b.Fits)
    (hknown : b = .start ∨ ∃ a, k.objects.address object = .ok a)
    (hb : ∀ index, (calls.filterMap Call.position?).head? = some index → k.bookmark.forQuery object 0 index = b)
    {i n : Nat} (hc : Call.Latest object index calls i n) : ∃ a p, Arrives c k object index b calls i n a p := by
  -- The bookmark is that of the first query that is still to come, so it changes with every query.
  induction calls generalizing k b i n with
  | nil => cases hc.query
  | cons call rest ih =>
      obtain ⟨n, rfl⟩ : ∃ m, n = m + 1 := Nat.exists_eq_add_one.mpr (Nat.zero_lt_of_lt hc.lt)
      cases hp : call.position? with
      | none =>
          cases i with
          | zero =>
              obtain rfl : call = .describe object 0 index := Option.some.inj hc.query
              cases hp
          | succ i =>
              have hobjects : (k.perform c call).2.objects = k.objects := (leads_perform c k call).objects
              have hfirst : ∀ index, (rest.filterMap Call.position?).head? = some index →
                  (k.perform c call).2.bookmark.forQuery object 0 index = b := by
                intro later hhead
                rw [bookmark_perform hp]
                apply hb
                rwa [List.filterMap_cons, hp]
              rw [← hobjects] at hknown
              obtain ⟨a, p, h⟩ := ih hi.tail hok.tail hf hknown hfirst hc.tail
              exact ⟨a, p, h.behind_other hp⟩
      | some position =>
          obtain rfl : call = .describe object 0 position := by
            cases call <;> cases hp
            obtain ⟨rfl, rfl⟩ := hi.asks _ _ _ List.mem_cons_self
            rfl
          obtain ⟨octets, k', hdescribe⟩ := hok.head
          obtain ⟨a, p, hadvances⟩ := advances_of_describe hq (hb position rfl) hf hknown hdescribe
          cases i with
          | zero =>
              obtain rfl : position = index := by
                cases hc.query
                rfl
              exact ⟨a, p, hadvances.arrives hdescribe hc.others⟩
          | succ i =>
              have hfirst : ∀ index, (rest.filterMap Call.position?).head? = some index →
                  k'.bookmark.forQuery object 0 index = .found object position p := by
                intro later hhead
                have hlater : position ≤ later := hi.le later (List.mem_of_mem_head? hhead)
                rw [hadvances.bookmark]
                exact Bookmark.resumes_iff.mp (.onward rfl hlater)
              have hsucceeds : Succeeds c k' rest := by
                have htail := hok.tail
                rwa [perform_describe hdescribe] at htail
              have hlisted : k'.objects.address object = .ok a := hadvances.objects ▸ hadvances.address
              obtain ⟨a', p', h⟩ :=
                ih hi.tail hsucceeds (hadvances.bookmark ▸ hadvances.fits) (.inr ⟨a, hlisted⟩) hfirst hc.tail
              obtain rfl : a = a' := Except.ok.inj (hlisted.symm.trans h.address)
              exact ⟨a, p', h.behind_query hdescribe hadvances⟩

/-- Let queries for positions in one object, each for no earlier one than the one before, all succeed, whatever is asked
of the client in between, and let the first of them start from the beginning. At any moment, then, they have read the
property ids from 1 on, each of them once and in increasing order, up to the id that the last of the descriptions tells,
and they have written nothing. If the next query is for the same position, the client does nothing at all. -/
theorem queries_read_once (c : Connection σ) (k : Client σ) (hq : c.config.probesWriting = false) {object : UInt16}
    {calls : List Call} (hi : Call.Increasing object calls) (hok : Succeeds c k calls)
    (hfirst : ∀ index, (calls.filterMap Call.position?).head? = some index →
      k.bookmark.continues object 0 index = false)
    {index : UInt16} {i n : Nat} (hc : Call.Latest object index calls i n) :
    ∃ a octets p, k.objects.address object = .ok a ∧ (k.run c calls).1[i]? = some (.ok (.data octets)) ∧
      octets[1]? = some p ∧
      asked c k (calls.take n) = (List.range' 1 p.toNat).map (fun pid => a.readFirst (UInt8.ofNat pid)) ∧
      (asked c k (calls.take n)).getLast? = some (a.readFirst p) ∧
      (∀ pid, (a.readFirst pid).Carries (.reading a.objectType a.objectInstance pid 1 1)) ∧
      (calls[n]? = some (.describe object 0 index) →
        (k.before c calls (n + 1)).exchange = (k.before c calls n).exchange) := by
  have hb : ∀ index, (calls.filterMap Call.position?).head? = some index →
      k.bookmark.forQuery object 0 index = .start := by
    intro first hhead
    rw [Bookmark.forQuery, hfirst first hhead]
    rfl
  have hfits : Bookmark.start.Fits := trivial
  obtain ⟨a, p, h⟩ := arrives_of_increasing hq hi hok hfits (.inl rfl) hb hc
  obtain ⟨octets, hreply, hpid⟩ := h.reply
  have hread : asked c k (calls.take n) = (pidsUpTo 0 p.toNat).map a.readFirst := h.reads
  refine ⟨a, octets, p, h.address, hreply, hpid, ?all, ?last, a.carries_readFirst, fun hnext => ?again⟩
  case all =>
    rw [hread, pidsUpTo, List.map_map]
    rfl
  case last =>
    have hlt : index.toNat < p.toNat := by
      have hfits := h.fits
      rwa [h.bookmark] at hfits
    obtain ⟨m, hm⟩ : ∃ m, p.toNat = m + 1 := Nat.exists_eq_add_one.mpr (Nat.zero_lt_of_lt hlt)
    rw [hread, hm, pidsUpTo_succ (Nat.zero_le m), List.map_append, List.map_singleton, List.getLast?_concat, ← hm,
      UInt8.ofNat_toNat]
  case again =>
    rw [before_succ hnext]
    exact exchange_describe_of_bookmark hq h.bookmark

/-- Two queries of a device with the properties 1 and 3, a read between them, and the second query once more. -/
def increasing : List Call := [.describe 0 0 0, .get 0 3 1 1, .describe 0 0 1, .describe 0 0 1]

theorem queries_read_once_increasing :
    ∃ k, start (Scripted.connection .plain) firstAndThird = .opened k ∧
      Call.Increasing 0 increasing ∧ Succeeds (Scripted.connection .plain) k increasing ∧
      Call.Latest 0 1 increasing 2 3 ∧
      (∃ a octets p, k.objects.address 0 = .ok a ∧ octets[1]? = some p ∧
        asked (Scripted.connection .plain) k (increasing.take 3) =
          (List.range' 1 p.toNat).map (fun pid => a.readFirst (UInt8.ofNat pid)) ∧
        (k.run (Scripted.connection .plain) increasing).1[2]? = some (.ok (.data octets))) ∧
      (k.before (Scripted.connection .plain) increasing 4).exchange =
        (k.before (Scripted.connection .plain) increasing 3).exchange := by
  have hi : Call.Increasing 0 increasing := by
    refine ⟨fun o pid index hmem => ?_, by decide⟩
    have hquery : o = 0 ∧ pid = 0 ∧ index = 0 ∨ o = 0 ∧ pid = 0 ∧ index = 1 := by simpa [increasing] using hmem
    rcases hquery with ⟨ho, hpid, -⟩ | ⟨ho, hpid, -⟩ <;> exact ⟨ho, hpid⟩
  have hc : Call.Latest 0 1 increasing 2 3 := ⟨by decide, rfl, fun l call hl hn => by omega⟩
  obtain ⟨k, hk, hok⟩ : ∃ k, start (Scripted.connection .plain) firstAndThird = .opened k ∧
      Succeeds (Scripted.connection .plain) k increasing := by
    refine ⟨_, rfl, fun i call hcall _ => ?_⟩
    rcases i with _ | _ | _ | _ | i
    case succ.succ.succ.succ => cases hcall
    all_goals exact ⟨_, rfl⟩
  have hbookmark := bookmark_of_start hk
  have hfirst : ∀ index, (increasing.filterMap Call.position?).head? = some index →
      k.bookmark.continues 0 0 index = false := by
    intro index _
    rw [hbookmark]
    rfl
  obtain ⟨a, octets, p, ha, hreply, hpid, hall, -, -, hagain⟩ :=
    queries_read_once (Scripted.connection .plain) k rfl hi hok hfirst hc
  exact ⟨k, hk, hi, hok, hc, ⟨a, octets, p, ha, hpid, hall, hreply⟩, hagain rfl⟩

end Client

end BusManagement
