import Warpshell.Interaction.Wp

/-!
# Triples

Pre- and postconditions for fallible programs in a world. `W.Triple P x K` says two things of `x` when
it is started where `P` holds: whatever the environment does and whatever the answers are, a value that
it returns satisfies `K`; and there is a run in which it returns one. An error promises nothing, but a
program that only ever fails has no triple.

The second half needs no postcondition of its own: where the run ends, the first half says what holds.
This is why the rules below compose both halves at once.
-/

namespace Warpshell.Interaction

variable {E : Type} {R : E → Type} {σ α β γ ε ε' : Type}

namespace World
variable {W : World E R σ}

/-- Any number of steps. -/
abbrev Steps (W : World E R σ) : σ × Prog E R α → σ × Prog E R α → Prop :=
  Relation.ReflTransGen W.Step

/-- The environment may move while a program waits. -/
lemma Steps.env {p : Prog E R α} {s s'} (e : W.Env s s') : W.Steps (s, p) (s', p) :=
  Relation.ReflTransGen.lift (p := W.Step) (fun s => (s, p)) (fun _ _ e => .env e) _ _ e

/-- The steps of the first half are steps of the composition. -/
lemma Steps.bind {p p' : Prog E R α} {f : α → Prog E R β} {s s'} (steps : W.Steps (s, p) (s', p')) :
    W.Steps (s, p.bind f) (s', p'.bind f) := by
  refine Relation.ReflTransGen.lift (p := W.Step) (fun c : σ × Prog E R α => (c.1, c.2.bind f)) ?_ _ _
    steps
  intro c c' step
  cases step with
  | env e => exact .env e
  | act an => exact .act an

/-- The weakest precondition is kept on the way. -/
lemma wp_steps {G : σ → E → Prop} {p p' : Prog E R α} {Q : α → σ → Prop} {s s'}
    (h : W.wp G p Q s) (steps : W.Steps (s, p) (s', p')) : W.wp G p' Q s' := by
  have kept : ∀ c : σ × Prog E R α, W.Steps (s, p) c → W.wp G c.2 Q c.1 := by
    intro c steps
    induction steps with
    | refl => exact h
    | tail _ step ih => exact wp_step ih step
  exact kept _ steps

/-- Where no access is refused, what all runs end in is the weakest precondition. -/
lemma wp_of_steps {p : Prog E R α} {Q : α → σ → Prop} {s}
    (all : ∀ a s', W.Steps (s, p) (s', .ret a) → Q a s') : W.wp (fun _ _ => True) p Q s := by
  induction p generalizing s with
  | ret a => exact fun s' en => all a s' (Steps.env en)
  | act e k ih =>
    intro s' en
    exact ⟨trivial, fun r s'' an => ih r fun a s₁ steps => all a s₁ ((Steps.env en).trans
      (.head (.act an) steps))⟩

/-- Two postconditions hold together. -/
lemma wp_and {G : σ → E → Prop} {p : Prog E R α} {Q Q' : α → σ → Prop} {s} (h : W.wp G p Q s)
    (h' : W.wp G p Q' s) : W.wp G p (fun a s => Q a s ∧ Q' a s) s := by
  induction p generalizing s with
  | ret a => exact fun s' e => ⟨h s' e, h' s' e⟩
  | act e k ih =>
    intro s' en
    obtain ⟨g, next⟩ := h s' en
    obtain ⟨_, next'⟩ := h' s' en
    exact ⟨g, fun r s'' an => ih r (next r s'' an) (next' r s'' an)⟩

/-- After the end only the environment moves. -/
lemma Steps.of_ret {a b : α} {s s'} (steps : W.Steps (s, (.ret a : Prog E R α)) (s', .ret b)) :
    b = a ∧ W.Env s s' := by
  have ended : W.wp (fun _ _ => True) (.ret a : Prog E R α) (fun b s' => b = a ∧ W.Env s s') s :=
    fun s' en => ⟨rfl, en⟩
  exact wp_steps ended steps s' .refl

/-- A run of a composition is one of its first half, followed by one of its second half. -/
lemma Steps.split {x : Io E R ε α} {f : α → Io E R ε β} {s s' b}
    (steps : W.Steps (s, (x >>= f : Io E R ε β)) (s', .ret (.ok b))) :
    ∃ a s₁, W.Steps (s, x) (s₁, .ret (.ok a)) ∧ W.Steps (s₁, f a) (s', .ret (.ok b)) := by
  let Q (b : β) (s' : σ) : Prop :=
    ∃ a s₁, W.Steps (s, x) (s₁, .ret (.ok a)) ∧ W.Steps (s₁, f a) (s', .ret (.ok b))
  have halves : W.wp (fun _ _ => True) (x >>= f : Io E R ε β)
      (onOk Q (fun _ _ => True : Outcome ε β → σ → Prop)) s := by
    refine wp_seq.mpr (wp_of_steps fun o s₁ first => ?_)
    cases o with
    | ok a =>
      refine wp_of_steps fun o s' second => ?_
      cases o with
      | ok b => exact ⟨a, s₁, first, second⟩
      | err e => trivial
      | panic => trivial
    | err e => trivial
    | panic => trivial
  exact wp_steps halves steps s' .refl

/-- There is a run in which a value is returned. -/
def Returns (W : World E R σ) (x : Io E R ε α) (s : σ) : Prop :=
  ∃ a s', W.Steps (s, x) (s', .ret (.ok a))

/-- What can return after steps of the environment can return before them. -/
lemma Returns.env {x : Io E R ε α} {s s'} (en : W.Env s s') (h : W.Returns x s') : W.Returns x s := by
  obtain ⟨a, s'', steps⟩ := h
  exact ⟨a, s'', (Steps.env en).trans steps⟩

/-- What can return after an answer can return before the access. -/
lemma Returns.act {e : E} {k : R e → Io E R ε α} {s s'} {r : R e} (an : W.answers s e r s')
    (h : W.Returns (k r) s') : W.Returns (.act e k : Prog E R (Outcome ε α)) s := by
  obtain ⟨a, s'', steps⟩ := h
  exact ⟨a, s'', .head (.act an) steps⟩

/-- A search that is over at the first try. -/
lemma Returns.search {e : E} {f : R e → γ} {q : γ → Bool} {n i : Nat} {k : Option Nat → Io E R ε α}
    {s s'} {r : R e} (an : W.answers s e r s') (hit : q (f r) = true)
    (h : W.Returns (k (some i)) s') :
    W.Returns ((((Prog.access e).bind fun r => .ret (f r)).position q (n + 1) i).bind k) s := by
  refine Returns.act an ?_
  have last : Prog.bind (if q (f r) then .ret (some i) else
      ((Prog.access e).bind fun r => .ret (f r)).position q n (i + 1)) k = k (some i) := by
    rw [if_pos hit]
    rfl
  exact last ▸ h

/-- Started where `P` holds, `x` returns values that satisfy `K`, and it can return one. -/
structure Triple (W : World E R σ) (P : σ → Prop) (x : Io E R ε α) (K : α → σ → Prop) : Prop where
  holds : ∀ s, P s →
    W.wp (fun _ _ => True) x (onOk K (fun _ _ => True : Outcome ε α → σ → Prop)) s
  returns : ∀ s, P s → W.Returns x s

namespace Triple
variable {P P' : σ → Prop} {x : Io E R ε α} {K K' : α → σ → Prop}

/-- What is known of the runs is enough for a triple. -/
lemma of_steps (ends : ∀ s a s', P s → W.Steps (s, x) (s', .ret (.ok a)) → K a s')
    (returns : ∀ s, P s → W.Returns x s) : W.Triple P x K := by
  refine ⟨fun s hs => wp_of_steps fun o s' steps => ?_, returns⟩
  cases o with
  | ok a => exact ends s a s' hs steps
  | err e => trivial
  | panic => trivial

/-- What the value of a run satisfies. -/
lemma ends (t : W.Triple P x K) {s s' a} (hs : P s) (steps : W.Steps (s, x) (s', .ret (.ok a))) :
    K a s' :=
  wp_steps (t.holds s hs) steps s' .refl

/-- Strengthening the precondition. -/
lemma pre (t : W.Triple P x K) (imp : ∀ s, P' s → P s) : W.Triple P' x K :=
  ⟨fun s hs => t.holds s (imp s hs), fun s hs => t.returns s (imp s hs)⟩

/-- Weakening the postcondition. -/
lemma post (t : W.Triple P x K) (imp : ∀ a s, K a s → K' a s) : W.Triple P x K' := by
  refine ⟨fun s hs => wp_mono (t.holds s hs) fun o s h => ?_, t.returns⟩
  cases o with
  | ok a => exact imp a s h
  | err e => trivial
  | panic => trivial

/-- A precondition by cases. -/
lemma cases {ι : Type} {P : ι → σ → Prop} (t : ∀ i, W.Triple (P i) x K) :
    W.Triple (fun s => ∃ i, P i s) x K :=
  ⟨fun s ⟨i, hs⟩ => (t i).holds s hs, fun s ⟨i, hs⟩ => (t i).returns s hs⟩

/-- A precondition that says something which does not depend on the state. -/
lemma given {c : Prop} (t : c → W.Triple P x K) : W.Triple (fun s => c ∧ P s) x K :=
  ⟨fun s ⟨hc, hs⟩ => (t hc).holds s hs, fun s ⟨hc, hs⟩ => (t hc).returns s hs⟩

/-- A program that only returns. -/
lemma pure {a : α} (st : W.Stable (K a)) : W.Triple (K a) (Pure.pure a : Io E R ε α) K :=
  ⟨fun _ hs _ e => st.env hs e, fun s _ => ⟨a, s, .refl⟩⟩

/-- The rule of composition. -/
lemma bind {f : α → Io E R ε β} {L : β → σ → Prop} (t : W.Triple P x K)
    (next : ∀ a, W.Triple (K a) (f a) L) : W.Triple P (x >>= f : Io E R ε β) L := by
  apply Triple.mk
  · intro s hs
    refine wp_seq.mpr (wp_mono (t.holds s hs) fun o s h => ?_)
    cases o with
    | ok a => exact (next a).holds s h
    | err e => trivial
    | panic => trivial
  · intro s hs
    obtain ⟨a, s₁, steps₁⟩ := t.returns s hs
    obtain ⟨b, s₂, steps₂⟩ := (next a).returns s₁ (t.ends hs steps₁)
    exact ⟨b, s₂, (Steps.bind steps₁).trans steps₂⟩

/-- A conversion of errors changes nothing about values. -/
lemma mapErr {f : ε → ε'} (t : W.Triple P x K) : W.Triple P (x.mapErr f) K := by
  apply Triple.mk
  · intro s hs
    refine wp_mapErr.mpr (wp_mono (t.holds s hs) fun o s h => ?_)
    cases o with
    | ok a => exact h
    | err e => trivial
    | panic => trivial
  · intro s hs
    obtain ⟨a, s', steps⟩ := t.returns s hs
    exact ⟨a, s', Steps.bind steps⟩

/-- A value that has to pass a check. -/
lemma check {c : α → Prop} [DecidablePred c] {g : α → ε} {k : α → Io E R ε β} {L : β → σ → Prop}
    (t : W.Triple P x K) (can : ∀ s, P s → ∃ a s', ¬ c a ∧ W.Steps (s, x) (s', .ret (.ok a)))
    (next : ∀ a, ¬ c a → W.Triple (K a) (k a) L) :
    W.Triple P (x >>= fun a => if c a then Io.throw (g a) else k a : Io E R ε β) L := by
  apply Triple.mk
  · intro s hs
    refine wp_seq.mpr (wp_mono (t.holds s hs) fun o s h => ?_)
    cases o with
    | ok a =>
      by_cases refused : c a
      · simp only [onOk, if_pos refused]
        exact fun _ _ => trivial
      · simp only [onOk, if_neg refused]
        exact (next a refused).holds s h
    | err e => trivial
    | panic => trivial
  · intro s hs
    obtain ⟨a, s₁, passed, steps₁⟩ := can s hs
    obtain ⟨b, s₂, steps₂⟩ := (next a passed).returns s₁ (t.ends hs steps₁)
    have same : (if c a then Io.throw (g a) else k a : Io E R ε β) = k a := if_neg passed
    have steps₂ : W.Steps (s₁, (if c a then Io.throw (g a) else k a : Io E R ε β))
        (s₂, .ret (.ok b)) := same.symm ▸ steps₂
    exact ⟨b, s₂, (Steps.bind steps₁).trans steps₂⟩

/-- A program that looks at the result of another one, and goes on after an error of it. -/
lemma attempt {k : Except ε α → Io E R ε' β} {F : ε → σ → Prop} {L : β → σ → Prop}
    (t : W.Triple P x K)
    (fails : ∀ s, P s → W.wp (fun _ _ => True) x (fun o s => ∀ e, o = .err e → F e s) s)
    (next : ∀ a, W.Triple (K a) (k (.ok a)) L)
    (other : ∀ e s, F e s →
      W.wp (fun _ _ => True) (k (.error e)) (onOk L (fun _ _ => True : Outcome ε' β → σ → Prop)) s) :
    W.Triple P (x.attempt >>= k : Io E R ε' β) L := by
  apply Triple.mk
  · intro s hs
    refine wp_seq.mpr (wp_attempt (wp_mono (wp_and (t.holds s hs) (fails s hs)) fun o s h => ?_))
    cases o with
    | ok a => exact (next a).holds s h.1
    | err e => exact other e s (h.2 e rfl)
    | panic => trivial
  · intro s hs
    obtain ⟨a, s₁, steps₁⟩ := t.returns s hs
    obtain ⟨b, s₂, steps₂⟩ := (next a).returns s₁ (t.ends hs steps₁)
    exact ⟨b, s₂, (Steps.bind (Steps.bind steps₁)).trans steps₂⟩

/-- One access. What an answer means may depend on the state it is given in, so both assertions have
    to be ones that the environment keeps. -/
lemma access {e : E} {f : R e → Outcome ε α} (stP : W.Stable P) (stK : ∀ a, W.Stable (K a))
    (answer : ∀ s r s' a, P s → W.answers s e r s' → f r = .ok a → K a s')
    (can : ∀ s, P s → ∃ s₁ r s' a, W.Env s s₁ ∧ W.answers s₁ e r s' ∧ f r = .ok a) :
    W.Triple P ((Prog.access e).bind fun r => .ret (f r) : Io E R ε α) K := by
  apply Triple.mk
  · intro s hs s₁ en
    refine ⟨trivial, fun r s' an s'' en' => ?_⟩
    cases eq : f r with
    | ok a => exact (stK a).env (answer s₁ r s' a (stP.env hs en) an eq) en'
    | err e => trivial
    | panic => trivial
  · intro s hs
    obtain ⟨s₁, r, s', a, en, an, eq⟩ := can s hs
    refine ⟨a, s', (Steps.env en).tail ?_⟩
    rw [← eq]
    exact .act an

/-- An access that is repeated until its answer is the one waited for. All that is known of the
    answers before that one is that they keep the precondition. -/
lemma search {e : E} {f : R e → γ} {q : γ → Bool} {n i : Nat} {k : Option Nat → Io E R ε α}
    {K : σ → Prop} (stP : W.Stable P) (stK : W.Stable K) (timeout : ∃ e, k none = .ret (.err e))
    (found : ∀ j, ∃ a, k (some j) = .ret (.ok a)) (pos : 0 < n)
    (answer : ∀ s r s', P s → W.answers s e r s' → if q (f r) then K s' else P s')
    (can : ∀ s, P s → ∃ s₁ r s', W.Env s s₁ ∧ W.answers s₁ e r s' ∧ q (f r) = true) :
    W.Triple P ((((Prog.access e).bind fun r => .ret (f r)).position q n i).bind k) fun _ => K := by
  apply Triple.mk
  · intro s hs
    refine wp_bind.mpr (wp_position (J := fun _ => P) hs (fun _ => stP) ?_ ?_)
    · intro j s _ _ hs s₁ en
      refine ⟨trivial, fun r s' an s₂ en' => ?_⟩
      have kept := answer s₁ r s' (stP.env hs en) an
      by_cases hit : q (f r) = true
      · rw [if_pos hit] at kept
        simp only [if_pos hit]
        obtain ⟨a, eq⟩ := found j
        rw [eq]
        exact fun s₃ en₃ => stK.env kept (en'.trans en₃)
      · rw [if_neg hit] at kept
        simp only [if_neg hit]
        exact stP.env kept en'
    · intro s _
      obtain ⟨e, eq⟩ := timeout
      rw [eq]
      exact fun _ _ => trivial
  · intro s hs
    obtain ⟨s₁, r, s', en, an, hit⟩ := can s hs
    obtain ⟨n, rfl⟩ := Nat.exists_eq_succ_of_ne_zero (Nat.ne_of_gt pos)
    obtain ⟨a, eq⟩ := found i
    refine Returns.env en (Returns.search an hit ?_)
    rw [eq]
    exact ⟨a, s', .refl⟩

end Triple

end World

end Warpshell.Interaction
