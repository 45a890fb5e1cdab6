import Mathlib.Order.Bounds.Basic
import Warpshell.Base
import Warpshell.Interaction.Search

/-!
# Polling

What the polling loops of `warpshell/src/lib.rs` do for every sequence of read outcomes: they search
for the first read that matches, read no further, and give up after `n` reads. `run_pollRegMaskSleep`
says it of a trace, `poll_first_match` of the outcomes that a reader has in store.
-/

namespace Warpshell
open Interaction

/-- What a register read may return. -/
abbrev ReadOutcome : Type := Except BasedError UInt32

/-- A read that gave a value, and one that agrees with `expected` under the mask. -/
def Matches (mask expected : UInt32) (r : ReadOutcome) : Prop :=
  ∃ v, r = .ok v ∧ v &&& mask = expected

/-- Reads of one register, with these outcomes. -/
def readsOf (addr : Nat) (rs : List ReadOutcome) : List CardEvent :=
  rs.map fun r => ⟨.ctrlReadU32 addr, r⟩

/-- The first `k` of the outcomes `r 1`, `r 2` and so on. -/
def outcomes (r : Nat → ReadOutcome) (k : Nat) : List ReadOutcome :=
  (List.range k).map fun i => r (i + 1)

/-- The traces of a search: misses, and then a match or the end, with the position of the match. -/
inductive Searched (addr : Nat) (mask expected : UInt32) (n : Nat) :
    List CardEvent → Option Nat → Prop where
  | hit {misses v} : (∀ r ∈ misses, ¬ Matches mask expected r) → misses.length < n →
    v &&& mask = expected →
    Searched addr mask expected n (readsOf addr (misses ++ [.ok v])) (some misses.length)
  | timeout {misses} : (∀ r ∈ misses, ¬ Matches mask expected r) → misses.length = n →
    Searched addr mask expected n (readsOf addr misses) none

/-- A search only reads the polled register. -/
lemma Searched.readsOf {addr n mask expected t found} (searched : Searched addr mask expected n t found) :
    ∃ rs, t = readsOf addr rs := by
  cases searched with
  | hit => exact ⟨_, rfl⟩
  | timeout => exact ⟨_, rfl⟩

/-! ## Runs -/

section
variable {core : BaseParam} {offset n : Nat} {mask expected : UInt32} {d : Duration}
  {t : List CardEvent} {addr : Nat}

/-- A read keeps the poll going exactly if it does not match. -/
lemma maskReady_false {r : ReadOutcome} :
    maskReady mask expected (Except.toOption r) = false ↔ ¬ Matches mask expected r := by
  rw [← Bool.not_eq_true, maskReady_iff, Matches]

/-- Rounds of the poll are reads of the register, with what they return. -/
lemma rounds_pollOnce {vs : List (Option UInt32)} :
    Rounds (pollOnce core offset) t vs ↔
      ∃ rs, t = readsOf (core.baseAddr + offset) rs ∧ vs = rs.map Except.toOption := by
  apply Iff.intro
  · intro rounds
    induction rounds with
    | nil => exact ⟨[], rfl, rfl⟩
    | cons run _ ih =>
      obtain ⟨rs, rfl, rfl⟩ := ih
      obtain ⟨t₁, t₂, r, rfl, read, rest⟩ := run_bind.mp run
      obtain rfl := run_access.mp read
      obtain ⟨rfl, rfl⟩ := run_ret.mp rest
      exact ⟨r :: rs, rfl, rfl⟩
  · intro parts
    obtain ⟨rs, rfl, rfl⟩ := parts
    induction rs with
    | nil => exact .nil
    | cons r rs ih =>
      have run : Run (pollOnce core offset) [⟨.ctrlReadU32 (core.baseAddr + offset), r⟩]
          (Except.toOption r) :=
        run_bind.mpr ⟨_, [], r, rfl, run_access.mpr rfl, .ret⟩
      exact .cons run ih

/-- The runs of the iterator's `position`: the traces of a search. -/
lemma run_search {o : Option Nat} :
    Run ((pollOnce core offset).position (maskReady mask expected) n) t o ↔
      Searched (core.baseAddr + offset) mask expected n t o := by
  apply run_position.trans
  apply Iff.intro
  · intro ⟨vs, all, ends⟩
    have misses : ∀ {rs : List ReadOutcome}, vs = rs.map Except.toOption →
        ∀ r ∈ rs, ¬ Matches mask expected r := by
      rintro rs rfl r mem
      exact maskReady_false.mp (all _ (List.mem_map_of_mem mem))
    obtain ⟨a, hit, lt, rounds, rfl⟩ | ⟨len, rounds, rfl⟩ := ends
    · obtain ⟨rs, rfl, eq⟩ := rounds_pollOnce.mp rounds
      obtain ⟨rs, last, rfl, eqs, eql⟩ := List.map_eq_append_iff.mp eq.symm
      obtain ⟨r, rfl, rfl⟩ := List.map_eq_singleton_iff.mp eql
      obtain ⟨v, rfl, hv⟩ := maskReady_iff.mp hit
      have same : vs.length = rs.length := by rw [← eqs, List.length_map]
      rw [Nat.zero_add, same]
      exact .hit (misses eqs.symm) (same ▸ lt) hv
    · obtain ⟨rs, rfl, eq⟩ := rounds_pollOnce.mp rounds
      exact .timeout (misses eq) (by rw [← len, eq, List.length_map])
  · intro searched
    have all : ∀ {rs : List ReadOutcome}, (∀ r ∈ rs, ¬ Matches mask expected r) →
        ∀ a ∈ rs.map Except.toOption, maskReady mask expected a = false := by
      intro rs misses a mem
      obtain ⟨r, mem', rfl⟩ := List.mem_map.mp mem
      exact maskReady_false.mpr (misses r mem')
    cases searched with
    | @hit rs v misses lt hv =>
      refine ⟨rs.map Except.toOption, all misses, .inl ⟨some v, ?_, ?_, ?_, ?_⟩⟩
      · exact maskReady_iff.mpr ⟨v, rfl, hv⟩
      · rwa [List.length_map]
      · exact rounds_pollOnce.mpr ⟨_, rfl, by rw [List.map_append]; rfl⟩
      · rw [List.length_map, Nat.zero_add]
    | @timeout rs misses len =>
      refine ⟨rs.map Except.toOption, all misses, .inr ⟨?_, ?_, rfl⟩⟩
      · rwa [List.length_map]
      · exact rounds_pollOnce.mpr ⟨rs, rfl, rfl⟩

/-- A poll turns what its search finds into its result. -/
lemma run_poll {α : Type} {f : Option Nat → Outcome BasedError α}
    {k : Option Nat → Prog Access Access.Answer (Outcome BasedError α)}
    {o : Outcome BasedError α} (result : ∀ found, k found = .ret (f found)) :
    Run (((pollOnce core offset).position (maskReady mask expected) n).bind k) t o ↔
      (∃ pos, Searched (core.baseAddr + offset) mask expected n t (some pos) ∧ o = f (some pos)) ∨
      Searched (core.baseAddr + offset) mask expected n t none ∧ o = f none := by
  apply run_bind.trans
  apply Iff.intro
  · intro parts
    obtain ⟨t₁, t₂, found, rfl, search, rest⟩ := parts
    have search := run_search.mp search
    rw [result] at rest
    obtain ⟨rfl, rfl⟩ := run_ret.mp rest
    rw [List.append_nil]
    cases found with
    | some pos => exact .inl ⟨pos, search, rfl⟩
    | none => exact .inr ⟨search, rfl⟩
  · have ends : ∀ {found}, Searched (core.baseAddr + offset) mask expected n t found →
        ∃ t₁ t₂ a, t = t₁ ++ t₂ ∧ Run ((pollOnce core offset).position (maskReady mask expected) n)
          t₁ a ∧ Run (k a) t₂ (f found) := by
      intro found search
      refine ⟨t, [], found, (List.append_nil t).symm, run_search.mpr search, ?_⟩
      rw [result]
      exact .ret
    intro parts
    obtain ⟨pos, search, rfl⟩ | ⟨search, rfl⟩ := parts
    · exact ends search
    · exact ends search

/-- The runs of a sleeping poll: the number of tries up to the match, or the timeout. -/
lemma run_pollRegMaskSleep {o : Outcome BasedError Nat} :
    Run (pollRegMaskSleep core offset mask expected n d) t o ↔
      (∃ pos, Searched (core.baseAddr + offset) mask expected n t (some pos) ∧ o = .ok (pos + 1)) ∨
      Searched (core.baseAddr + offset) mask expected n t none ∧
        o = .err (.regMaskNotAsExpected offset mask expected) := by
  refine run_poll (f := (Option.elim · (.err (.regMaskNotAsExpected offset mask expected))
    fun pos => .ok (pos + 1))) fun found => ?_
  cases found <;> rfl

/-- The runs of a poll without sleeps: a match, or the timeout. -/
lemma run_pollRegMask {o : Outcome BasedError Unit} :
    Run (pollRegMask core offset mask expected n) t o ↔
      (∃ pos, Searched (core.baseAddr + offset) mask expected n t (some pos) ∧ o = .ok ()) ∨
      Searched (core.baseAddr + offset) mask expected n t none ∧
        o = .err (.regMaskNotAsExpected offset mask expected) := by
  refine run_poll (f := (Option.elim · (.err (.regMaskNotAsExpected offset mask expected))
    fun _ => .ok ())) fun found => ?_
  cases found <;> rfl

end

/-! ## Outcomes in store -/

section
variable {r : Nat → ReadOutcome} {addr n : Nat} {mask expected : UInt32} {t : List CardEvent}

@[simp] lemma length_outcomes {k : Nat} : (outcomes r k).length = k := by
  rw [outcomes, List.length_map, List.length_range]

/-- One outcome more, at the end. -/
lemma outcomes_succ {k : Nat} : outcomes r (k + 1) = outcomes r k ++ [r (k + 1)] := by
  rw [outcomes, List.range_succ, List.map_append]
  rfl

/-- The first `k` outcomes are those numbered from 1 to `k`. -/
lemma mem_outcomes {k : Nat} {x : ReadOutcome} :
    x ∈ outcomes r k ↔ ∃ j, 1 ≤ j ∧ j ≤ k ∧ r j = x := by
  rw [outcomes, List.mem_map]
  apply Iff.intro
  · intro parts
    obtain ⟨i, mem, rfl⟩ := parts
    exact ⟨i + 1, Nat.le_add_left 1 i, List.mem_range.mp mem, rfl⟩
  · intro parts
    obtain ⟨j, pos, le, rfl⟩ := parts
    refine ⟨j - 1, List.mem_range.mpr (by omega), ?_⟩
    rw [Nat.sub_add_cancel pos]

/-- The reads with the first `k` outcomes, one by one. -/
lemma mem_readsOf_outcomes {k : Nat} {x : ReadOutcome} :
    ⟨.ctrlReadU32 addr, x⟩ ∈ readsOf addr (outcomes r k) ↔ ∃ j, 1 ≤ j ∧ j ≤ k ∧ r j = x := by
  rw [← mem_outcomes, readsOf, List.mem_map]
  apply Iff.intro
  · intro ⟨y, mem, eq⟩
    cases eq
    exact mem
  · intro mem
    exact ⟨x, mem, rfl⟩

/-- The reads determine their outcomes. -/
lemma readsOf_inj {rs rs' : List ReadOutcome} (eq : readsOf addr rs = readsOf addr rs') :
    rs = rs' := by
  refine (List.map_inj_right ?_).mp eq
  intro r r' eq
  cases eq
  rfl

/-- The first match among the first `n` outcomes. -/
def FirstMatch (r : Nat → ReadOutcome) (mask expected : UInt32) (n k : Nat) : Prop :=
  IsLeast { k | 1 ≤ k ∧ k ≤ n ∧ Matches mask expected (r k) } k

/-- A search that succeeds on these outcomes stops at the first match. -/
lemma searched_hit :
    (∃ pos, Searched addr mask expected n t (some pos) ∧ t = readsOf addr (outcomes r t.length) ∧
      pos + 1 = k) ↔ FirstMatch r mask expected n k ∧ t = readsOf addr (outcomes r k) := by
  apply Iff.intro
  · intro parts
    obtain ⟨pos, searched, eq, rfl⟩ := parts
    -- The trace has both the outcomes in store and the ones of the search, so these are the same.
    generalize same : some pos = p at searched
    cases searched with
    | timeout => cases same
    | @hit misses v all lt hv =>
      cases same
      rw [readsOf, List.length_map, List.length_append, List.length_singleton] at eq
      have eqs := readsOf_inj eq
      rw [outcomes_succ] at eqs
      obtain ⟨eqm, eql⟩ := List.append_inj' eqs rfl
      have found := List.singleton_inj.mp eql
      refine ⟨⟨⟨Nat.succ_pos _, lt, v, found.symm, hv⟩, ?_⟩, eq⟩
      intro j ⟨pos, _, matches_j⟩
      by_contra before
      exact all (r j) (eqm ▸ mem_outcomes.mpr ⟨j, pos, by omega, rfl⟩) matches_j
  · intro parts
    obtain ⟨⟨⟨pos, le, v, found, hv⟩, least⟩, rfl⟩ := parts
    obtain ⟨k, rfl⟩ := Nat.exists_eq_add_of_le' pos
    have all : ∀ x ∈ outcomes r k, ¬ Matches mask expected x := by
      intro x mem hit
      obtain ⟨j, one, lt, rfl⟩ := mem_outcomes.mp mem
      have := least ⟨one, by omega, hit⟩
      omega
    have searched : Searched addr mask expected n (readsOf addr (outcomes r k ++ [.ok v]))
        (some (outcomes r k).length) := .hit all (by rw [length_outcomes]; omega) hv
    rw [← found, ← outcomes_succ, length_outcomes] at searched
    refine ⟨k, searched, ?_, rfl⟩
    rw [readsOf, List.length_map, length_outcomes]
    rfl

/-- A search that fails on these outcomes has seen `n` of them without a match. -/
lemma searched_timeout :
    Searched addr mask expected n t none ∧ t = readsOf addr (outcomes r t.length) ↔
      (∀ k, 1 ≤ k → k ≤ n → ¬ Matches mask expected (r k)) ∧ t = readsOf addr (outcomes r n) := by
  apply Iff.intro
  · intro ⟨searched, eq⟩
    generalize same : none = p at searched
    cases searched with
    | hit => cases same
    | @timeout misses all len =>
      rw [readsOf, List.length_map, len] at eq
      have eqs := readsOf_inj eq
      refine ⟨fun k pos le => ?_, eq⟩
      exact all (r k) (eqs ▸ mem_outcomes.mpr ⟨k, pos, le, rfl⟩)
  · intro parts
    obtain ⟨none, rfl⟩ := parts
    refine ⟨.timeout (fun x mem => ?_) length_outcomes, ?_⟩
    · obtain ⟨j, pos, le, rfl⟩ := mem_outcomes.mp mem
      exact none j pos le
    · rw [readsOf, List.length_map, length_outcomes]
      rfl

end

/-- On a reader with these outcomes in store, the program returns `o`. -/
def ReturnsOn {ε α : Type} (addr : Nat) (r : Nat → ReadOutcome) (p : Driver ε α)
    (o : Outcome ε α) : Prop :=
  ∃ t, Run p t o ∧ t = readsOf addr (outcomes r t.length)

section
variable {n n' : Nat} {mask expected : UInt32}

/-- A first match stays the first among more tries. -/
lemma FirstMatch.mono {r : Nat → ReadOutcome} {k : Nat} (first : FirstMatch r mask expected n k)
    (le : n ≤ n') : FirstMatch r mask expected n' k := by
  obtain ⟨⟨pos, bound, hit⟩, least⟩ := first
  refine ⟨⟨pos, bound.trans le, hit⟩, ?_⟩
  intro j ⟨pos_j, _, hit_j⟩
  by_contra before
  exact before (least ⟨pos_j, by omega, hit_j⟩)

/-- One more try finds what fewer do, and may find what they miss. -/
lemma firstMatch_mono_iff (reachable : expected &&& mask = expected) :
    (∀ r k, FirstMatch r mask expected n k → FirstMatch r mask expected n' k) ↔ n ≤ n' := by
  apply Iff.intro
  · intro mono
    by_contra fewer
    -- A reader that gives nothing until the last of the `n` tries tells the two bounds apart.
    let r : Nat → ReadOutcome := fun j =>
      if j = n then .ok expected else .error (.regMaskNotAsExpected 0 0 0)
    have hit : Matches mask expected (r n) := ⟨expected, if_pos rfl, reachable⟩
    have first : FirstMatch r mask expected n n := by
      refine ⟨⟨by omega, Nat.le_refl n, hit⟩, ?_⟩
      intro j ⟨_, _, v, found, _⟩
      by_contra before
      have other : r j = .error (.regMaskNotAsExpected 0 0 0) := if_neg (by omega)
      rw [other] at found
      cases found
    exact fewer (mono r n first).1.2.1
  · intro le r k first
    exact first.mono le

end

/-- Polling is bounded first-match search. On the outcomes `r`, `poll_reg_mask_sleep` makes `k` reads
    and returns `k` when the `k`-th outcome is the first match among the first `n`, and makes `n`
    reads and fails when there is none; `poll_reg_mask` has the same traces and succeeds on the same
    ones, and the other two polls are instances of it. -/
theorem poll_first_match (core : BaseParam) (offset : Nat) (mask expected : UInt32) (n : Nat)
    (d : Duration) (r : Nat → ReadOutcome) :
    (∀ t o, (Run (pollRegMaskSleep core offset mask expected n d) t o ∧
        t = readsOf (core.baseAddr + offset) (outcomes r t.length)) ↔
      (∃ k, FirstMatch r mask expected n k ∧ t = readsOf (core.baseAddr + offset) (outcomes r k) ∧
        o = .ok k) ∨
      (∀ k, 1 ≤ k → k ≤ n → ¬ Matches mask expected (r k)) ∧
        t = readsOf (core.baseAddr + offset) (outcomes r n) ∧
        o = .err (.regMaskNotAsExpected offset mask expected)) ∧
    (∀ t, (Run (pollRegMask core offset mask expected n) t (.ok ()) ↔
        ∃ k, Run (pollRegMaskSleep core offset mask expected n d) t (.ok k)) ∧
      ∀ e, Run (pollRegMask core offset mask expected n) t (.err e) ↔
        Run (pollRegMaskSleep core offset mask expected n d) t (.err e)) ∧
    pollRegMaskClear core offset mask n = pollRegMask core offset mask 0 n ∧
    pollRegMaskSet core offset mask n = pollRegMask core offset mask mask n := by
  refine ⟨fun t o => ⟨?_, ?_⟩, fun t => ⟨⟨?_, ?_⟩, fun e => ⟨?_, ?_⟩⟩, rfl, rfl⟩
  · intro ⟨run, eq⟩
    obtain ⟨pos, searched, rfl⟩ | ⟨searched, rfl⟩ := run_pollRegMaskSleep.mp run
    · obtain ⟨first, eq⟩ := searched_hit.mp ⟨pos, searched, eq, rfl⟩
      exact .inl ⟨pos + 1, first, eq, rfl⟩
    · obtain ⟨none, eq⟩ := searched_timeout.mp ⟨searched, eq⟩
      exact .inr ⟨none, eq, rfl⟩
  · intro parts
    obtain ⟨k, first, eq, rfl⟩ | ⟨none, eq, rfl⟩ := parts
    · obtain ⟨pos, searched, eq', rfl⟩ := searched_hit.mpr ⟨first, eq⟩
      exact ⟨run_pollRegMaskSleep.mpr (.inl ⟨pos, searched, rfl⟩), eq'⟩
    · obtain ⟨searched, eq'⟩ := searched_timeout.mpr ⟨none, eq⟩
      exact ⟨run_pollRegMaskSleep.mpr (.inr ⟨searched, rfl⟩), eq'⟩
  · intro run
    obtain ⟨pos, searched, _⟩ | ⟨_, eq⟩ := run_pollRegMask.mp run
    · exact ⟨pos + 1, run_pollRegMaskSleep.mpr (.inl ⟨pos, searched, rfl⟩)⟩
    · cases eq
  · intro ⟨k, run⟩
    obtain ⟨pos, searched, _⟩ | ⟨_, eq⟩ := run_pollRegMaskSleep.mp run
    · exact run_pollRegMask.mpr (.inl ⟨pos, searched, rfl⟩)
    · cases eq
  · intro run
    obtain ⟨_, _, eq⟩ | ⟨searched, eq⟩ := run_pollRegMask.mp run
    · cases eq
    · cases eq
      exact run_pollRegMaskSleep.mpr (.inr ⟨searched, rfl⟩)
  · intro run
    obtain ⟨_, _, eq⟩ | ⟨searched, eq⟩ := run_pollRegMaskSleep.mp run
    · cases eq
    · cases eq
      exact run_pollRegMask.mpr (.inr ⟨searched, rfl⟩)

end Warpshell
