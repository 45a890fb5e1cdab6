import Warpshell.Interaction.Prog

/-!
# Scripts

A script is a list of stages; a stage says which traces carry it out and which fail, with which error.
`Performs ss t none` says that the trace `t` carries out the stages one after the other, and
`Performs ss t (some e)` that it carries out some of them and fails in the next with the error `e`.
A program follows a script when these are exactly its runs that return and that fail; the rules build
this from the parts of the program.
-/

namespace Warpshell.Interaction

variable {E : Type} {R : E → Type} {ε ε' α β : Type}

/-- A step of a script. -/
structure Stage (E : Type) (R : E → Type) (ε : Type) where
  done : List (Event E R) → Prop
  failed : List (Event E R) → ε → Prop

inductive Performs : List (Stage E R ε) → List (Event E R) → Option ε → Prop where
  | nil : Performs [] [] none
  | done {s ss t t' r} : s.done t → Performs ss t' r → Performs (s :: ss) (t ++ t') r
  | failed {s ss t e} : s.failed t e → Performs (s :: ss) t (some e)

/-- The program returns when the script is carried out, and fails where the script does. -/
structure Follows (x : Io E R ε α) (ss : List (Stage E R ε)) : Prop where
  ok : ∀ t, (∃ a, Run x t (.ok a)) ↔ Performs ss t none
  err : ∀ t e, Run x t (.err e) ↔ Performs ss t (some e)
  total : ∀ t, ¬ Run x t .panic

section
variable {s : Stage E R ε} {ss ss' : List (Stage E R ε)} {t : List (Event E R)} {r : Option ε} {e : ε}

/-- A script of no stages. -/
lemma performs_nil : Performs ([] : List (Stage E R ε)) t r ↔ t = [] ∧ r = none := by
  apply Iff.intro
  · intro performs
    cases performs
    exact ⟨rfl, rfl⟩
  · intro ⟨eq, eq'⟩
    subst eq eq'
    exact .nil

/-- A script of one stage: it is done, or it fails. -/
lemma performs_single : Performs [s] t r ↔
    (r = none ∧ s.done t) ∨ ∃ e, r = some e ∧ s.failed t e := by
  apply Iff.intro
  · intro performs
    cases performs with
    | done d rest =>
      obtain ⟨rfl, rfl⟩ := performs_nil.mp rest
      rw [List.append_nil]
      exact .inl ⟨rfl, d⟩
    | failed f => exact .inr ⟨_, rfl, f⟩
  · intro performs
    obtain ⟨rfl, d⟩ | ⟨e, rfl, f⟩ := performs
    · have all := Performs.done d .nil
      rwa [List.append_nil] at all
    · exact .failed f

/-- A script in two parts: the first one fails, or it is carried out and then the second one. -/
lemma performs_append : Performs (ss ++ ss') t r ↔
    (∃ t₁ t₂, t = t₁ ++ t₂ ∧ Performs ss t₁ none ∧ Performs ss' t₂ r) ∨
      ∃ e, r = some e ∧ Performs ss t (some e) := by
  apply Iff.intro
  · intro performs
    -- The first script is used up stage by stage, until it is carried out or one stage fails.
    induction ss generalizing t with
    | nil => exact .inl ⟨[], t, rfl, .nil, performs⟩
    | cons s ss ih =>
      cases performs with
      | @done _ _ t₁ t₂ _ d rest =>
        obtain ⟨t₁', t₂', rfl, first, second⟩ | ⟨e, rfl, failed⟩ := ih rest
        · exact .inl ⟨t₁ ++ t₁', t₂', (List.append_assoc ..).symm, .done d first, second⟩
        · exact .inr ⟨e, rfl, .done d failed⟩
      | failed f => exact .inr ⟨_, rfl, .failed f⟩
  · intro parts
    obtain ⟨t₁, t₂, rfl, first, second⟩ | ⟨e, rfl, failed⟩ := parts
    · -- The first script is carried out, which the induction has to remember.
      generalize same : (none : Option ε) = none' at first
      induction first with
      | nil => exact second
      | done d _ ih =>
        rw [List.append_assoc]
        exact .done d (ih same)
      | failed f => cases same
    · generalize same : some e = r at failed
      induction failed with
      | nil => cases same
      | done d _ ih => exact .done d (ih same)
      | failed f => exact .failed f

end

namespace Follows
variable {ss ss' : List (Stage E R ε)}

/-- A program that only returns follows the empty script. -/
lemma pure (a : α) : Follows (Pure.pure a : Io E R ε α) [] := by
  refine ⟨fun t => ?_, fun t e => ?_, fun t run => ?_⟩
  · rw [performs_nil]
    apply Iff.intro
    · intro ⟨b, run⟩
      exact ⟨(run_ret.mp run).1, rfl⟩
    · intro ⟨eq, _⟩
      subst eq
      exact ⟨a, .ret⟩
  · rw [performs_nil]
    apply Iff.intro
    · intro run
      cases (run_ret.mp run).2
    · intro ⟨_, eq⟩
      cases eq
  · cases (run_ret.mp run).2

/-- The script of a sequence is the scripts of its parts, one after the other. -/
lemma bind {x : Io E R ε α} {f : α → Io E R ε β} (first : Follows x ss)
    (rest : ∀ a, Follows (f a) ss') : Follows (x >>= f : Io E R ε β) (ss ++ ss') := by
  refine ⟨fun t => ?_, fun t e => ?_, fun t run => ?_⟩
  · rw [performs_append]
    apply Iff.intro
    · intro ⟨b, run⟩
      -- A run that returns goes through both halves, so the scripts meet where the first one returns.
      obtain ⟨t₁, t₂, a, rfl, run₁, run₂⟩ | ⟨_, eq, _⟩ | ⟨eq, _⟩ := Io.run_seq.mp run
      · exact .inl ⟨t₁, t₂, rfl, (first.ok t₁).mp ⟨a, run₁⟩, ((rest a).ok t₂).mp ⟨b, run₂⟩⟩
      · cases eq
      · cases eq
    · intro parts
      obtain ⟨t₁, t₂, rfl, one, two⟩ | ⟨_, eq, _⟩ := parts
      · obtain ⟨a, run₁⟩ := (first.ok t₁).mpr one
        obtain ⟨b, run₂⟩ := ((rest a).ok t₂).mpr two
        exact ⟨b, Io.run_seq.mpr (.inl ⟨t₁, t₂, a, rfl, run₁, run₂⟩)⟩
      · cases eq
  · rw [performs_append]
    apply Iff.intro
    · intro run
      obtain ⟨t₁, t₂, a, rfl, run₁, run₂⟩ | ⟨e', eq, run⟩ | ⟨eq, _⟩ := Io.run_seq.mp run
      · exact .inl ⟨t₁, t₂, rfl, (first.ok t₁).mp ⟨a, run₁⟩, ((rest a).err t₂ e).mp run₂⟩
      · cases eq
        exact .inr ⟨e, rfl, (first.err t e).mp run⟩
      · cases eq
    · intro parts
      obtain ⟨t₁, t₂, rfl, one, two⟩ | ⟨e', eq, failed⟩ := parts
      · obtain ⟨a, run₁⟩ := (first.ok t₁).mpr one
        exact Io.run_seq.mpr (.inl ⟨t₁, t₂, a, rfl, run₁, ((rest a).err t₂ e).mpr two⟩)
      · cases eq
        exact Io.run_seq.mpr (.inr (.inl ⟨e, rfl, (first.err t e).mpr failed⟩))
  · obtain ⟨t₁, t₂, a, rfl, _, run₂⟩ | ⟨_, eq, _⟩ | ⟨_, run⟩ := Io.run_seq.mp run
    · exact (rest a).total t₂ run₂
    · cases eq
    · exact first.total t run

/-- A program with a single stage. -/
lemma single {x : Io E R ε α} {s : Stage E R ε} (ok : ∀ t, (∃ a, Run x t (.ok a)) ↔ s.done t)
    (err : ∀ t e, Run x t (.err e) ↔ s.failed t e) (total : ∀ t, ¬ Run x t .panic) :
    Follows x [s] := by
  refine ⟨fun t => ?_, fun t e => ?_, total⟩
  · rw [ok t, performs_single]
    apply Iff.intro
    · intro d
      exact .inl ⟨rfl, d⟩
    · intro performs
      obtain ⟨_, d⟩ | ⟨e, eq, _⟩ := performs
      · exact d
      · cases eq
  · rw [err t e, performs_single]
    apply Iff.intro
    · intro f
      exact .inr ⟨e, rfl, f⟩
    · intro performs
      obtain ⟨eq, _⟩ | ⟨e', eq, f⟩ := performs
      · cases eq
      · cases eq
        exact f

/-- A run of a program that follows a script returns exactly when the script was carried out, and
    otherwise fails where the script does. -/
lemma run {x : Io E R ε α} (follows : Follows x ss) {t : List (Event E R)} {o : Outcome ε α}
    (run : Run x t o) : ((∃ a, o = .ok a) ↔ Performs ss t none) ∧
      ((∃ a, o = .ok a) ∨ ∃ e, o = .err e ∧ Performs ss t (some e)) := by
  refine ⟨⟨?_, ?_⟩, ?_⟩
  · intro ⟨a, eq⟩
    subst eq
    exact (follows.ok t).mp ⟨a, run⟩
  · intro performs
    obtain ⟨a, run'⟩ := (follows.ok t).mpr performs
    exact ⟨a, run.result_unique run'⟩
  · cases o with
    | ok a => exact .inl ⟨a, rfl⟩
    | err e => exact .inr ⟨e, rfl, (follows.err t e).mp run⟩
    | panic => exact absurd run (follows.total t)

end Follows

end Warpshell.Interaction
