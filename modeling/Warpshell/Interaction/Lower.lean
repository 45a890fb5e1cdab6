import Warpshell.Interaction.Wp

/-!
# Two levels of accesses

A program whose accesses are themselves carried out by programs of a lower level. These may be loops
that nothing bounds, so a loop is given by its body, and its runs by a relation (`Loop`). `Lowered` are
the runs of the whole: those of the upper program, with every access replaced by a run that carries it
out.

`lowered_iff` is the refinement rule. What the lower runs of one access can do to a state has to be
exactly what the upper world says of this access; then it is so of every program.
-/

namespace Warpshell.Interaction

variable {E F : Type} {R : E → Type} {S : F → Type} {σ ς α : Type}

/-- The runs of a loop: its body ends with the next state of the loop or with what the loop returns. -/
inductive Loop (body : ς → Prog E R (ς ⊕ α)) : ς → List (Event E R) → α → Prop where
  | done {s t a} : Run (body s) t (.inr a) → Loop body s t a
  | again {s s' t t' a} : Run (body s) t (.inl s') → Loop body s' t' a → Loop body s (t ++ t') a

/-- The runs of a program whose access `e` is answered `r` after the events `t` if `carries e r t`. -/
inductive Lowered (carries : (e : E) → R e → List (Event F S) → Prop) :
    Prog E R α → List (Event F S) → α → Prop where
  | ret {a} : Lowered carries (.ret a) [] a
  | act {e k r t t' a} : carries e r t → Lowered carries (k r) t' a →
    Lowered carries (.act e k) (t ++ t') a

namespace World

/-- The events `t`, with no step of the environment in between, lead from `s` to `s'`. -/
inductive Path (W : World E R σ) : σ → List (Event E R) → σ → Prop where
  | nil {s} : Path W s [] s
  | cons {s s' s'' e r t} : W.answers s e r s' → Path W s' t s'' → Path W s (⟨e, r⟩ :: t) s''

variable {W : World E R σ} {V : World F S σ} {s s' : σ} {t t' : List (Event E R)}

/-- No events lead nowhere. -/
lemma path_nil : W.Path s [] s' ↔ s' = s := by
  apply Iff.intro
  · intro path
    cases path
    rfl
  · rintro rfl
    exact .nil

/-- The first event leads to a state from which the others do. -/
lemma path_cons {x : Event E R} :
    W.Path s (x :: t) s' ↔ ∃ s₁, W.answers s x.1 x.2 s₁ ∧ W.Path s₁ t s' := by
  apply Iff.intro
  · intro path
    cases path with
    | cons an path => exact ⟨_, an, path⟩
  · intro parts
    obtain ⟨s₁, an, path⟩ := parts
    exact .cons an path

/-- A path of two parts has a state between them. -/
lemma path_append : W.Path s (t ++ t') s' ↔ ∃ s₁, W.Path s t s₁ ∧ W.Path s₁ t' s' := by
  induction t generalizing s with
  | nil => simp [path_nil]
  | cons x t ih =>
    simp only [List.cons_append, path_cons, ih]
    apply Iff.intro
    · intro parts
      obtain ⟨s₁, an, s₂, path, path'⟩ := parts
      exact ⟨s₂, ⟨s₁, an, path⟩, path'⟩
    · intro parts
      obtain ⟨s₂, ⟨s₁, an, path⟩, path'⟩ := parts
      exact ⟨s₁, an, s₂, path, path'⟩

/-- Refinement: programs do at the lower level what they do at the upper one, if their accesses do. -/
theorem lowered_iff {carries : (e : E) → R e → List (Event F S) → Prop}
    (exact : ∀ s e r s', (∃ t, carries e r t ∧ V.Path s t s') ↔ W.answers s e r s')
    (p : Prog E R α) (s s' : σ) (a : α) :
    (∃ t, Lowered carries p t a ∧ V.Path s t s') ↔ ∃ t, Run p t a ∧ W.Path s t s' := by
  apply Iff.intro
  · intro lower
    obtain ⟨t, run, path⟩ := lower
    induction run generalizing s with
    | ret => exact ⟨[], .ret, path_nil.mpr (path_nil.mp path)⟩
    | act carried _ ih =>
      obtain ⟨s₁, first, rest⟩ := path_append.mp path
      obtain ⟨t, run, path'⟩ := ih s₁ rest
      exact ⟨_, .act run, .cons ((exact s _ _ s₁).mp ⟨_, carried, first⟩) path'⟩
  · intro upper
    obtain ⟨t, run, path⟩ := upper
    induction run generalizing s with
    | ret => exact ⟨[], .ret, path_nil.mpr (path_nil.mp path)⟩
    | act _ ih =>
      obtain ⟨s₁, an, rest⟩ := path_cons.mp path
      obtain ⟨t, run, path'⟩ := ih s₁ rest
      obtain ⟨t₁, carried, first⟩ := (exact s _ _ s₁).mpr an
      exact ⟨t₁ ++ t, .act carried run, path_append.mpr ⟨s₁, first, path'⟩⟩

end World

end Warpshell.Interaction
