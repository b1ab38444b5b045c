import BusManagement.Proofs.Descriptions

/-! The reads that a search makes. A search reads the property ids behind its bookmark one after the other, each of
them once, and what it counts are those that the device has, on top of what the bookmark counts. Every read after which
the search goes on was handed to the link, as long as the object is listed; and if the object is not listed, no property
is ever found. -/

namespace BusManagement

variable {σ : Type}

/-- A read of the first element of a property, as it is handed over. -/
def ObjectAddress.readFirst (a : ObjectAddress) (pid : UInt8) : Transmission :=
  ⟨(Frame.reading a.objectType a.objectInstance pid 1 1).layout, .confirmation⟩

theorem ObjectAddress.encode_reading (a : ObjectAddress) (pid : UInt8) :
    (Frame.reading a.objectType a.objectInstance pid 1 1).encode = .ok (a.readFirst pid).octets := rfl

theorem ObjectAddress.carries_readFirst (a : ObjectAddress) (pid : UInt8) :
    (a.readFirst pid).Carries (.reading a.objectType a.objectInstance pid 1 1) :=
  Transmission.carries_of_encode rfl (a.encode_reading pid)

namespace Client

/-- The property ids behind a number, up to another. -/
def pidsUpTo (i j : Nat) : List UInt8 := (List.range' (i + 1) (j - i)).map UInt8.ofNat

@[simp] theorem pidsUpTo_self (i : Nat) : pidsUpTo i i = [] := by
  simp [pidsUpTo]

theorem pidsUpTo_append {i j l : Nat} (hij : i ≤ j) (hjl : j ≤ l) : pidsUpTo i j ++ pidsUpTo j l = pidsUpTo i l := by
  have hstart : j + 1 = i + 1 + (j - i) := by omega
  have hlength : l - i = (j - i) + (l - j) := by omega
  rw [pidsUpTo, pidsUpTo, pidsUpTo, ← List.map_append, hstart, hlength, List.range'_append_1]

theorem pidsUpTo_succ {i j : Nat} (hij : i ≤ j) : pidsUpTo i (j + 1) = pidsUpTo i j ++ [UInt8.ofNat (j + 1)] := by
  have hlast : pidsUpTo j (j + 1) = [UInt8.ofNat (j + 1)] := by simp [pidsUpTo]
  rw [← pidsUpTo_append hij (Nat.le_succ j), hlast]

/-- These property ids were read one after the other; the device has the second ones among them, and refused to read
the others. -/
inductive Reads (c : Connection σ) (object : UInt16) (k : Client σ) : List UInt8 → List UInt8 → Client σ → Prop
  | none : Reads c object k [] [] k
  | hit {pids present : List UInt8} {k₁ k₂ : Client σ} {pid : UInt8} {value : Octets}
      (h : Reads c object k pids present k₁)
      (hget : k₁.getFirst c object pid = (.ok value, k₂)) : Reads c object k (pids ++ [pid]) (present ++ [pid]) k₂
  | miss {pids present : List UInt8} {k₁ k₂ : Client σ} {pid : UInt8} {e : Fault}
      (h : Reads c object k pids present k₁)
      (hget : k₁.getFirst c object pid = (.error e, k₂)) (he : e.kind = .remote) :
      Reads c object k (pids ++ [pid]) present k₂

variable {c : Connection σ} {object index : UInt16} {k k₁ : Client σ} {s : Probe} {pids present : List UInt8}

theorem Probes.pid_le (h : Probes c object index k s k₁) : k.bookmark.pid.toNat ≤ s.pid := by
  induction h with
  | start => exact Nat.le_refl _
  | hit _ _ _ _ ih => exact Nat.le_succ_of_le ih
  | miss _ _ _ _ _ ih => exact Nat.le_succ_of_le ih

/-- Wherever a search has come to, it has read the property ids from behind the bookmark up to there, and it has
counted those that the device has. -/
theorem Probes.reads (h : Probes c object index k s k₁) :
    ∃ present, Reads c object k (pidsUpTo k.bookmark.pid.toNat s.pid) present k₁ ∧
      s.count = k.bookmark.count + present.length := by
  induction h with
  | start =>
      refine ⟨[], ?_, count_ofBookmark k.bookmark⟩
      have hnone : pidsUpTo k.bookmark.pid.toNat (Probe.ofBookmark k.bookmark).pid = [] := pidsUpTo_self _
      rw [hnone]
      exact .none
  | @hit s k₁ k₂ value h hne hlt hget ih =>
      obtain ⟨present, hreads, hcount⟩ := ih
      refine ⟨present ++ [UInt8.ofNat (s.pid + 1)], ?_, ?_⟩
      · rw [show (s.hit value).pid = s.pid + 1 from rfl, pidsUpTo_succ h.pid_le]
        exact hreads.hit hget
      · rw [show (s.hit value).count = s.count + 1 from rfl, hcount, List.length_append, List.length_singleton,
          Nat.add_assoc]
  | @miss s k₁ k₂ e h hne hlt hget he ih =>
      obtain ⟨present, hreads, hcount⟩ := ih
      refine ⟨present, ?_, hcount⟩
      rw [show s.miss.pid = s.pid + 1 from rfl, pidsUpTo_succ h.pid_le]
      exact hreads.miss hget he

theorem Reads.keeps (h : Reads c object k pids present k₁) : Keeps (fun _ _ => True) k k₁ := by
  have hany : Exchange.Spans (σ := σ) fun _ _ => True := (covers_any c k.objects object).toSpans
  induction h with
  | none => exact .refl hany k
  | hit _ hget ih => exact ih.trans hany (keeps_of_getFirst hget)
  | miss _ hget _ ih => exact ih.trans hany (keeps_of_getFirst hget)

/-! ### What the reads hand over -/

/-- A read that is answered, be it by a refusal, was handed over. -/
theorem transmissions_of_getFirst {a : ObjectAddress} (ha : k.objects.address object = .ok a) {pid : UInt8}
    {r : Except Fault Octets} (h : k.getFirst c object pid = (r, k₁)) (hr : ∀ e, r = .error e → e.kind = .remote) :
    k₁.exchange.chronicle.transmissions = k.exchange.chronicle.transmissions ++ [a.readFirst pid] := by
  cases ho : k.isOpen with
  | true =>
      have hx : k.exchange.isOpen = true := ho
      have hget := access_of_address c (fun o => .reading o.objectType o.objectInstance pid 1 1) .readConfirmation ho ha
      rw [getFirst, get, hget] at h
      obtain ⟨-, rfl⟩ := Prod.mk.inj h
      exact Exchange.transmissions_request hx (a.encode_reading pid) (by decide)
  | false =>
      rw [getFirst, get, access_of_closed c ho] at h
      obtain ⟨rfl, -⟩ := Prod.mk.inj h
      cases hr _ rfl

theorem Reads.transmissions {a : ObjectAddress} (ha : k.objects.address object = .ok a)
    (h : Reads c object k pids present k₁) :
    k₁.exchange.chronicle.transmissions = k.exchange.chronicle.transmissions ++ pids.map a.readFirst := by
  have hnext {pids present : List UInt8} {k₁ k₂ : Client σ} {pid : UInt8} {r : Except Fault Octets}
      (h : Reads c object k pids present k₁) (hget : k₁.getFirst c object pid = (r, k₂))
      (hr : ∀ e, r = .error e → e.kind = .remote)
      (ih : k₁.exchange.chronicle.transmissions = k.exchange.chronicle.transmissions ++ pids.map a.readFirst) :
      k₂.exchange.chronicle.transmissions =
        k.exchange.chronicle.transmissions ++ (pids ++ [pid]).map a.readFirst := by
    have ha₁ : k₁.objects.address object = .ok a := h.keeps.objects ▸ ha
    rw [transmissions_of_getFirst ha₁ hget hr, ih, List.append_assoc, List.map_append, List.map_singleton]
  induction h with
  | none => rw [List.map_nil, List.append_nil]
  | hit h hget ih => exact hnext h hget (by simp) ih
  | @miss _ _ _ _ pid e h hget he ih => exact hnext h hget (fun _ heq => Except.error.inj heq ▸ he) ih

/-- Of an object that is not listed, no property is ever found. -/
theorem Reads.exists_address (h : Reads c object k pids present k₁) (hp : present ≠ []) :
    ∃ a, k.objects.address object = .ok a := by
  induction h with
  | none => exact absurd rfl hp
  | @hit pids present k₁ k₂ pid value h hget _ =>
      rw [getFirst, get, access] at hget
      split_ifs at hget
      · cases ha : k₁.objects.address object with
        | ok a => exact ⟨a, h.keeps.objects ▸ ha⟩
        | error e =>
            rw [ha] at hget
            cases hget
      · cases hget
  | miss _ _ _ ih => exact ih hp

end Client

end BusManagement
