import Warpshell.Interaction.Wp

/-!
# Bounded search, run by run

`Rounds p t as` says that the program `p`, run once for each of the answers `as`, leaves the trace
`t`. A run of a bounded search is as many rounds as it takes: up to the first match, or all of them
(`run_position`).
-/

namespace Warpshell.Interaction

variable {E : Type} {R : E → Type} {α : Type} {p : Prog E R α} {q : α → Bool}

inductive Rounds (p : Prog E R α) : List (Event E R) → List α → Prop where
  | nil : Rounds p [] []
  | cons {t t' a as} : Run p t a → Rounds p t' as → Rounds p (t ++ t') (a :: as)

/-- The first round of a search decides: a match ends it, a miss leaves one round less. -/
lemma run_position_succ {n i : Nat} {t : List (Event E R)} {o : Option Nat} :
    Run (p.position q (n + 1) i) t o ↔
      (∃ a, q a = true ∧ Run p t a ∧ o = some i) ∨
      ∃ t₁ t₂ a, t = t₁ ++ t₂ ∧ q a = false ∧ Run p t₁ a ∧ Run (p.position q n (i + 1)) t₂ o := by
  apply run_bind.trans
  apply Iff.intro
  · intro ⟨t₁, t₂, a, eq, run, rest⟩
    split at rest
    next hit =>
      obtain ⟨rfl, rfl⟩ := run_ret.mp rest
      rw [List.append_nil] at eq
      exact .inl ⟨a, hit, eq ▸ run, rfl⟩
    next miss => exact .inr ⟨t₁, t₂, a, eq, Bool.eq_false_iff.mpr miss, run, rest⟩
  · intro ends
    obtain ⟨a, hit, run, rfl⟩ | ⟨t₁, t₂, a, eq, miss, run, rest⟩ := ends
    · refine ⟨t, [], a, (List.append_nil t).symm, run, ?_⟩
      rw [if_pos hit]
      exact .ret
    · refine ⟨t₁, t₂, a, eq, run, ?_⟩
      rwa [if_neg (Bool.eq_false_iff.mp miss)]

/-- A search of one round. -/
lemma rounds_single {t : List (Event E R)} {a : α} : Rounds p t [a] ↔ Run p t a := by
  apply Iff.intro
  · intro rounds
    cases rounds with
    | cons run rounds =>
      cases rounds with
      | nil => rwa [List.append_nil]
  · intro run
    have rounds := Rounds.cons run .nil
    rwa [List.append_nil] at rounds

/-- The runs of a bounded search: misses, and then a match or the end. -/
lemma run_position {n i : Nat} {t : List (Event E R)} {o : Option Nat} :
    Run (p.position q n i) t o ↔
      ∃ misses, (∀ a ∈ misses, q a = false) ∧
        ((∃ a, q a = true ∧ misses.length < n ∧ Rounds p t (misses ++ [a]) ∧
            o = some (i + misses.length)) ∨
          misses.length = n ∧ Rounds p t misses ∧ o = none) := by
  induction n generalizing i t o with
  | zero =>
    apply Iff.intro
    · intro run
      obtain ⟨rfl, rfl⟩ := run_ret.mp run
      exact ⟨[], nofun, .inr ⟨rfl, .nil, rfl⟩⟩
    · intro ⟨misses, _, ends⟩
      obtain ⟨a, _, lt, _⟩ | ⟨none, rounds, rfl⟩ := ends
      · exact absurd lt (Nat.not_lt_zero _)
      · obtain rfl := List.length_eq_zero_iff.mp none
        cases rounds with
        | nil => exact .ret
  | succ n ih =>
    have next : ∀ k, i + (k + 1) = i + 1 + k := fun k => by omega
    rw [run_position_succ]
    apply Iff.intro
    · intro ends
      obtain ⟨a, hit, run, rfl⟩ | ⟨t₁, t₂, a, rfl, miss, run, rest⟩ := ends
      · exact ⟨[], nofun, .inl ⟨a, hit, Nat.succ_pos n, rounds_single.mpr run, rfl⟩⟩
      · obtain ⟨misses, all, ends⟩ := ih.mp rest
        refine ⟨a :: misses, List.forall_mem_cons.mpr ⟨miss, all⟩, ?_⟩
        obtain ⟨b, hit, lt, rounds, rfl⟩ | ⟨len, rounds, rfl⟩ := ends
        · refine .inl ⟨b, hit, Nat.succ_lt_succ lt, .cons run rounds, ?_⟩
          rw [List.length_cons, next misses.length]
        · exact .inr ⟨congrArg (· + 1) len, .cons run rounds, rfl⟩
    · intro ⟨misses, all, ends⟩
      -- The list of misses says what the first round was.
      cases misses with
      | nil =>
        obtain ⟨b, hit, _, rounds, rfl⟩ | ⟨len, _⟩ := ends
        · exact .inl ⟨b, hit, rounds_single.mp rounds, rfl⟩
        · exact absurd len (Nat.succ_ne_zero n).symm
      | cons a misses =>
        obtain ⟨miss, all'⟩ := List.forall_mem_cons.mp all
        obtain ⟨b, hit, lt, rounds, rfl⟩ | ⟨len, rounds, rfl⟩ := ends
        · cases rounds with
          | cons run rounds =>
            refine .inr ⟨_, _, a, rfl, miss, run, ih.mpr ⟨misses, all', .inl ?_⟩⟩
            refine ⟨b, hit, Nat.lt_of_succ_lt_succ lt, rounds, ?_⟩
            rw [List.length_cons, next misses.length]
        · cases rounds with
          | cons run rounds =>
            refine .inr ⟨_, _, a, rfl, miss, run, ih.mpr ⟨misses, all', .inr ?_⟩⟩
            exact ⟨Nat.succ.inj len, rounds, rfl⟩

end Warpshell.Interaction
