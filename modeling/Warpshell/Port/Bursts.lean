import Warpshell.Cores.Hbicap

/-!
# Bursts

The write programming sequence announces the bursts that its words would be sent in, one after the
other, and sends none of them: its last statement is a `todo!()`, so it panics unless an announcement
has failed before.
-/

namespace Warpshell.Hbicap
open Interaction

/-- The sizes of the bursts that make up `n` words. -/
def bursts (n : Nat) : List UInt32 :=
  List.replicate (n / 256) maxBurstSize ++ if n % 256 = 0 then [] else [UInt32.ofNat (n % 256)]

/-- The number of words in these bursts. -/
def total : List UInt32 → Nat
  | [] => 0
  | size :: sizes => size.toNat + total sizes

/-- A write of Size. -/
def announces (hb : HbicapIf) (r : Except BasedError Unit) (size : UInt32) : CardEvent :=
  ⟨.ctrlWriteU32 (hb.ctrlIf.baseAddr + Reg.size.offset) size, r⟩

/-- The bursts are announced up to the first write that fails. -/
inductive Announced (hb : HbicapIf) (sizes : List UInt32) :
    List CardEvent → Outcome Error Unit → Prop where
  | all : Announced hb sizes (sizes.map (announces hb (.ok ()))) (.ok ())
  | failed {done size rest err} : sizes = done ++ size :: rest →
      Announced hb sizes (done.map (announces hb (.ok ())) ++ [announces hb (.error err) size])
        (.err (.basedError err))

/-! ## Sizes -/

lemma bursts_zero : bursts 0 = [] := rfl

/-- The first burst is as long as it can be. -/
lemma bursts_step {n : Nat} (pos : 0 < n) :
    bursts n = UInt32.ofNat (min 256 n) :: bursts (n - min 256 n) := by
  by_cases le : 256 ≤ n
  · obtain ⟨m, rfl⟩ := Nat.exists_eq_add_of_le' le
    rw [Nat.min_eq_left le, Nat.add_sub_cancel, bursts, bursts, Nat.add_div_right m (by decide),
      Nat.add_mod_right, List.replicate_succ]
    rfl
  · have lt : n < 256 := Nat.not_le.mp le
    rw [Nat.min_eq_right (Nat.le_of_lt lt), Nat.sub_self, bursts, Nat.div_eq_of_lt lt,
      Nat.mod_eq_of_lt lt, if_neg (Nat.ne_of_gt pos)]
    rfl

/-- The bursts are of all the words. -/
lemma total_bursts (n : Nat) : total (bursts n) = n := by
  induction n using Nat.strongRecOn with
  | ind n ih =>
    obtain rfl | pos := Nat.eq_zero_or_pos n
    · rfl
    · have size : (UInt32.ofNat (min 256 n)).toNat = min 256 n :=
        UInt32.toNat_ofNat_of_lt (Nat.lt_of_le_of_lt (Nat.min_le_left 256 n) (by decide))
      rw [bursts_step pos, total, size, ih _ (by omega)]
      omega

/-- No burst is empty or too long. -/
lemma mem_bursts {n : Nat} {size : UInt32} (mem : size ∈ bursts n) :
    0 < size.toNat ∧ size.toNat ≤ maxBurstSize.toNat := by
  rcases List.mem_append.mp mem with mem | mem
  · rw [List.eq_of_mem_replicate mem]
    decide
  · split at mem
    next => cases mem
    next rest =>
      have lt : n % 256 < 256 := Nat.mod_lt n (by decide)
      have size : (UInt32.ofNat (n % 256)).toNat = n % 256 :=
        UInt32.toNat_ofNat_of_lt (Nat.lt_trans lt (by decide))
      rw [List.mem_singleton.mp mem, size]
      exact ⟨Nat.pos_of_ne_zero rest, Nat.le_of_lt lt⟩

/-! ## Runs -/

section
variable {hb : HbicapIf} {len size : UInt32} {sizes : List UInt32} {t : List CardEvent}
  {o : Outcome Error Unit}

lemma announced_nil : Announced hb [] t o ↔ t = [] ∧ o = .ok () := by
  apply Iff.intro
  · intro announced
    cases announced with
    | all => exact ⟨rfl, rfl⟩
    | @failed done size rest err eq => exact absurd eq (by simp)
  · intro parts
    obtain ⟨rfl, rfl⟩ := parts
    exact .all

/-- The first burst is announced and then the others are, or the first write fails. -/
lemma announced_cons : Announced hb (size :: sizes) t o ↔
    (∃ t', t = announces hb (.ok ()) size :: t' ∧ Announced hb sizes t' o) ∨
      ∃ err, t = [announces hb (.error err) size] ∧ o = .err (.basedError err) := by
  apply Iff.intro
  · intro announced
    cases announced with
    | all => exact .inl ⟨_, rfl, .all⟩
    | @failed done _ rest err eq =>
      cases done with
      | nil =>
        cases eq
        exact .inr ⟨err, rfl, rfl⟩
      | cons first done =>
        cases eq
        exact .inl ⟨_, rfl, .failed rfl⟩
  · intro parts
    obtain ⟨t', rfl, announced⟩ | ⟨err, rfl, rfl⟩ := parts
    · cases announced with
      | all => exact .all
      | @failed done _ _ _ eq =>
        exact @Announced.failed hb _ (size :: done) _ _ _ (congrArg (size :: ·) eq)
    · exact @Announced.failed hb _ [] _ _ _ rfl

/-- The runs that start with a write of Size. -/
lemma run_setSize {k : Unit → Driver Error Unit} :
    Run (setHbicapReg hb .size size >>= k : Driver Error Unit) t o ↔
      (∃ t', t = announces hb (.ok ()) size :: t' ∧ Run (k ()) t' o) ∨
        ∃ err, t = [announces hb (.error err) size] ∧ o = .err (.basedError err) := by
  apply Iff.intro
  · intro run
    obtain ⟨r, t', rfl, rest⟩ := run.first
    cases r with
    | ok => exact .inl ⟨t', rfl, rest⟩
    | error err =>
      obtain ⟨rfl, rfl⟩ := run_ret.mp rest
      exact .inr ⟨err, rfl, rfl⟩
  · intro parts
    obtain ⟨t', rfl, run⟩ | ⟨err, rfl, rfl⟩ := parts
    · exact .act run
    · exact .act .ret

/-- The loop announces the bursts of as many words as it is given. -/
lemma run_announceBursts : Run (announceBursts hb len) t o ↔ Announced hb (bursts len.toNat) t o := by
  induction n : len.toNat using Nat.strongRecOn generalizing len t with
  | ind n ih =>
    subst n
    rw [announceBursts]
    split
    next more =>
      have pos : 0 < len.toNat := UInt32.lt_iff_toNat_lt.mp more
      have size : UInt32.ofNat (min 256 len.toNat) = min maxBurstSize len := by
        rw [← toNat_burst]
        exact UInt32.ofNat_toNat
      have rest : ∀ t', Run (announceBursts hb (len - min maxBurstSize len)) t' o ↔
          Announced hb (bursts (len.toNat - min 256 len.toNat)) t' o := by
        intro t'
        rw [← toNat_sub_burst]
        exact ih _ (by rw [toNat_sub_burst]; omega) rfl
      rw [bursts_step pos, size, announced_cons, run_setSize]
      simp only [rest]
    next done =>
      have none : len.toNat = 0 := Nat.eq_zero_of_not_pos fun pos => done (UInt32.lt_iff_toNat_lt.mpr pos)
      rw [none, bursts_zero, announced_nil]
      exact run_ret

end

/-- The runs of the write programming sequence, for any number of words. It announces bursts of at most
    256 words, which together are the number of words modulo `2 ^ 32`; when all of this succeeds it
    panics, when a write fails it returns its error. It never returns normally, and it never transfers a
    word. -/
theorem writeProgramming_announces (hb : HbicapIf) (words : List UInt32) :
    (∀ t o, Run (writeProgramming hb words) t o ↔
      Announced hb (bursts (words.length % 2 ^ 32)) t (.ok ()) ∧ o = .panic ∨
        ∃ e, Announced hb (bursts (words.length % 2 ^ 32)) t (.err e) ∧ o = .err e) ∧
    total (bursts (words.length % 2 ^ 32)) = words.length % 2 ^ 32 ∧
    ∀ size ∈ bursts (words.length % 2 ^ 32), 0 < size.toNat ∧ size.toNat ≤ maxBurstSize.toNat := by
  refine ⟨fun t o => ?_, total_bursts _, fun size => mem_bursts⟩
  have loop : ∀ t o, Run (announceBursts hb (UInt32.ofNat words.length)) t o ↔
      Announced hb (bursts (words.length % 2 ^ 32)) t o := by
    intro t o
    rw [run_announceBursts, UInt32.toNat_ofNat']
  rw [writeProgramming, Io.run_seq]
  simp only [loop]
  apply Iff.intro
  · intro parts
    obtain ⟨t₁, t₂, _, rfl, announced, rest⟩ | ⟨e, rfl, failed⟩ | ⟨_, announced⟩ := parts
    · obtain ⟨rfl, rfl⟩ := run_ret.mp rest
      rw [List.append_nil]
      exact .inl ⟨announced, rfl⟩
    · exact .inr ⟨e, failed, rfl⟩
    · cases announced
  · intro parts
    obtain ⟨announced, rfl⟩ | ⟨e, failed, rfl⟩ := parts
    · exact .inl ⟨t, [], (), (List.append_nil t).symm, announced, run_ret.mpr ⟨rfl, rfl⟩⟩
    · exact .inr (.inl ⟨e, rfl, failed⟩)

end Warpshell.Hbicap
