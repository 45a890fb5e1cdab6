import Warpshell.Interaction.Triple

/-!
# Worlds side by side

Two worlds that know nothing of each other, as one: an access of either kind moves its own state and
leaves the other. A program of one of them is also one of both (`Io.left`), and what was shown of it
still holds, together with anything the other world keeps (`Triple.left`).
-/

namespace Warpshell.Interaction

variable {E F : Type} {R : E → Type} {S : F → Type} {σ ς α β ε ε' : Type}

namespace Prog

/-- A program over accesses of the first kind. -/
def left : Prog E R α → Prog (E ⊕ F) (Sum.elim R S) α
  | .ret a => .ret a
  | .act e k => .act (.inl e) fun r => (k r).left

end Prog

namespace Io

def left (x : Io E R ε α) : Io (E ⊕ F) (Sum.elim R S) ε α := Prog.left x

/-- An access of the second kind, and what is made of its answer. -/
def right (e : F) (f : S e → Outcome ε α) : Io (E ⊕ F) (Sum.elim R S) ε α :=
  (@Prog.access (E ⊕ F) (Sum.elim R S) (.inr e)).bind fun r => .ret (f r)

end Io

namespace World

def beside (W : World E R σ) (V : World F S ς) : World (E ⊕ F) (Sum.elim R S) (σ × ς) where
  env s s' := (W.env s.1 s'.1 ∧ s'.2 = s.2) ∨ V.env s.2 s'.2 ∧ s'.1 = s.1
  answers s
    | .inl e, r, s' => W.answers s.1 e r s'.1 ∧ s'.2 = s.2
    | .inr e, r, s' => V.answers s.2 e r s'.2 ∧ s'.1 = s.1

variable {W : World E R σ} {V : World F S ς} {P : σ → Prop} {I : ς → Prop}

/-- The environment of both worlds moves each of them. -/
lemma env_beside {s s' : σ × ς} (en : (W.beside V).Env s s') : W.Env s.1 s'.1 ∧ V.Env s.2 s'.2 := by
  induction en with
  | refl => exact ⟨.refl, .refl⟩
  | tail _ step ih =>
    obtain ⟨first, second⟩ := ih
    obtain ⟨step, same⟩ | ⟨step, same⟩ := step
    · exact ⟨first.tail step, same ▸ second⟩
    · exact ⟨same ▸ first, second.tail step⟩

/-- The second world may move by itself. -/
lemma env_right {s : σ} {o o' : ς} (en : V.Env o o') : (W.beside V).Env (s, o) (s, o') :=
  Relation.ReflTransGen.lift (p := (W.beside V).env) (fun o => (s, o)) (fun _ _ e => .inr ⟨e, rfl⟩) _ _ en

/-- Assertions that are stable in their worlds are stable together. -/
lemma Stable.beside (stP : W.Stable P) (stI : V.Stable I) :
    (W.beside V).Stable fun s => P s.1 ∧ I s.2 := by
  intro s s' holds step
  obtain ⟨step, same⟩ | ⟨step, same⟩ := step
  · exact ⟨stP _ _ holds.1 step, same ▸ holds.2⟩
  · exact ⟨same ▸ holds.1, stI _ _ holds.2 step⟩

/-- A weakest precondition holds beside what the other world keeps. -/
lemma wp_left {G : σ → E → Prop} {p : Prog E R α} {Q : α → σ → Prop} {s : σ × ς}
    (h : W.wp G p Q s.1) (stI : V.Stable I) (keeps : I s.2) :
    (W.beside V).wp (fun _ _ => True) p.left (fun a s => Q a s.1 ∧ I s.2) s := by
  induction p generalizing s with
  | ret a =>
    intro s' en
    obtain ⟨first, second⟩ := env_beside en
    exact ⟨h s'.1 first, stI.env keeps second⟩
  | act e k ih =>
    intro s' en
    obtain ⟨first, second⟩ := env_beside en
    refine ⟨trivial, fun r s'' an => ?_⟩
    obtain ⟨answer, same⟩ := an
    exact ih r ((h s'.1 first).2 r s''.1 answer) (same ▸ stI.env keeps second)

/-- A program of the first world makes its steps beside any state of the second. -/
lemma steps_left {p p' : Prog E R α} {s s' : σ} {o : ς} (steps : W.Steps (s, p) (s', p')) :
    (W.beside V).Steps ((s, o), p.left) ((s', o), p'.left) := by
  refine Relation.ReflTransGen.lift (p := (W.beside V).Step)
    (fun c : σ × Prog E R α => ((c.1, o), c.2.left)) ?_ _ _ steps
  intro c c' step
  cases step with
  | env e => exact .env (.inl ⟨e, rfl⟩)
  | act an => exact .act (e := Sum.inl _) ⟨an, rfl⟩

namespace Triple
variable {x : Io E R ε α} {K : α → σ → Prop}

/-- The frame rule. -/
lemma left (t : W.Triple P x K) (stI : V.Stable I) :
    (W.beside V).Triple (fun s => P s.1 ∧ I s.2) x.left fun a s => K a s.1 ∧ I s.2 := by
  apply Triple.mk
  · intro s hs
    refine wp_mono (wp_left (t.holds s.1 hs.1) stI hs.2) fun o s' holds => ?_
    cases o with
    | ok a => exact holds
    | err e => trivial
    | panic => trivial
  · intro s hs
    obtain ⟨a, s', steps⟩ := t.returns s.1 hs.1
    exact ⟨a, (s', s.2), steps_left steps⟩

/-- An access of the second world, while an assertion about the first one is kept. -/
lemma right {e : F} {f : S e → Outcome ε α} {L : α → ς → Prop} (stP : W.Stable P) (stI : V.Stable I)
    (stL : ∀ a, V.Stable (L a)) (answer : ∀ o r o' a, I o → V.answers o e r o' → f r = .ok a → L a o')
    (can : ∀ o, I o → ∃ o₁ r o' a, V.Env o o₁ ∧ V.answers o₁ e r o' ∧ f r = .ok a) :
    (W.beside V).Triple (fun s => P s.1 ∧ I s.2) (Io.right e f : Io (E ⊕ F) (Sum.elim R S) ε α)
      fun a s => P s.1 ∧ L a s.2 := by
  refine access (e := Sum.inr e) (f := f) (stP.beside stI) (fun a => stP.beside (stL a)) ?_ ?_
  · intro s r s' a hs an eq
    obtain ⟨answered, same⟩ := an
    exact ⟨same ▸ hs.1, answer s.2 r s'.2 a hs.2 answered eq⟩
  · intro s hs
    obtain ⟨o₁, r, o', a, en, an, eq⟩ := can s.2 hs.2
    exact ⟨(s.1, o₁), r, (s.1, o'), a, env_right en, ⟨an, rfl⟩, eq⟩

end Triple

end World

end Warpshell.Interaction
