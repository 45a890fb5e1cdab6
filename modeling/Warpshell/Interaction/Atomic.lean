import Warpshell.Interaction.Parallel

/-!
# Operations that look atomic

The operations of a service are programs of several accesses, and the accesses of other clients may
come in between. `Lands` says of such a program that it changes nothing until its last access,
and that this access then is the whole operation, in one step of an atomic service. Clients of the
programs cannot tell the difference: every state that they reach is one that they reach with the atomic
operations, with the same results (`refines_atomic`).

`Absorbs` is what makes an update atomic that is a read and a later write: the update overwrites
whatever the other updates have done since the read.
-/

namespace Warpshell.Interaction

variable {E : Type} {R : E → Type} {Op : Type} {Res : Op → Type} {σ τ α : Type}

/-- The program is one operation, which `whole` describes: whatever is done meanwhile, its accesses
    leave the state alone, up to the last one, which is the operation. -/
def Lands {β : Type} (answers : σ → (e : E) → R e → σ → Prop) (moves : σ → σ → Prop)
    (whole : σ → β → σ → Prop) : Prog E R β → σ → Prop
  | .ret _, _ => False
  | .act e k, s => ∀ s', Relation.ReflTransGen moves s s' → ∀ r s'', answers s' e r s'' →
    (∃ a, k r = .ret a ∧ whole s' a s'') ∨ s'' = s' ∧ Lands answers moves whole (k r) s'

/-- What the others do does not matter to an operation under way. -/
lemma Lands.moves {β : Type} {answers : σ → (e : E) → R e → σ → Prop} {moves : σ → σ → Prop}
    {whole : σ → β → σ → Prop} {p : Prog E R β} {s s' : σ} (l : Lands answers moves whole p s)
    (m : moves s s') : Lands answers moves whole p s' := by
  cases p with
  | ret a => exact l
  | act e k => exact fun s₁ ms r s₂ an => l s₁ (.head m ms) r s₂ an

namespace Shared

/-- Something happens in an atomic service. -/
def Moves (T : Shared Op Res σ τ) (s s' : σ) : Prop :=
  T.env s s' ∨ ∃ i op r, T.answers i s op r s'

/-- What is left of a call of client `i` is the operation `op`. -/
abbrev Lands (S : Shared E R σ τ) (T : Shared Op Res σ τ) (i : τ) (op : Op) :
    Prog E R (Res op) → σ → Prop :=
  Interaction.Lands (S.answers i) T.Moves fun s a s' => T.answers i s op a s'

/-- How far a client with the program `q` over atomic operations has come with its accesses. -/
inductive InCall (S : Shared E R σ τ) (T : Shared Op Res σ τ) (call : ∀ op, Prog E R (Res op)) (i : τ)
    (s : σ) : Prog Op Res α → Prog E R α → Prop where
  | between {q} : InCall S T call i s q (q.expand call)
  | during {op k p} : S.Lands T i op p s →
    InCall S T call i s (.act op k) (p.bind fun r => (k r).expand call)

section
variable {S : Shared E R σ τ} {T : Shared Op Res σ τ} {call : ∀ op, Prog E R (Res op)} {i : τ}
  {op : Op} {s s' : σ} {q : Prog Op Res α} {p : Prog E R α}

/-- What the others do does not matter to a client. -/
lemma InCall.moves (c : InCall S T call i s q p) (m : T.Moves s s') : InCall S T call i s' q p := by
  cases c with
  | between => exact .between
  | during l => exact .during (Lands.moves l m)

/-- An access of a client is an operation, or it changes nothing. -/
lemma InCall.access {e : E} {k : R e → Prog E R α} {r : R e}
    (lands : ∀ op s, S.Lands T i op (call op) s) (c : InCall S T call i s q (.act e k))
    (an : S.answers i s e r s') :
    (∃ op k' a, q = .act op k' ∧ T.answers i s op a s' ∧ InCall S T call i s' (k' a) (k r)) ∨
      s' = s ∧ InCall S T call i s q (k r) := by
  -- A client between two calls is at the start of the next one.
  have start : ∃ op k' p, q = .act op k' ∧ S.Lands T i op p s ∧
      Prog.act e k = p.bind fun r => (k' r).expand call := by
    generalize eq : Prog.act e k = p at c
    cases c with
    | between =>
      cases q with
      | ret a => cases eq
      | act op k' => exact ⟨op, k', call op, rfl, lands op s, rfl⟩
    | @during op k' p l => exact ⟨op, k', p, rfl, l, rfl⟩
  obtain ⟨op, k', p, rfl, l, eq⟩ := start
  cases p with
  | ret a => exact l.elim
  | act e' k₀ =>
    cases eq
    obtain ⟨a, done, an'⟩ | ⟨rfl, rest⟩ := l s .refl r s' an
    · refine .inl ⟨op, k', a, rfl, an', ?_⟩
      show InCall S T call i s' (k' a) ((k₀ r).bind fun r => (k' r).expand call)
      rw [done]
      exact .between
    · exact .inr ⟨rfl, .during rest⟩

/-- A client that has returned has done so with atomic operations. -/
lemma InCall.ret {a : α} (lands : ∀ op s, S.Lands T i op (call op) s)
    (c : InCall S T call i s q (.ret a)) : q = .ret a := by
  have none : ∀ {op} {k : Res op → Prog Op Res α} {p : Prog E R (Res op)}, S.Lands T i op p s →
      Prog.ret a ≠ p.bind fun r => (k r).expand call := by
    intro op k p l eq
    cases p with
    | ret b => exact l
    | act e k => cases eq
  generalize eq : Prog.ret a = p at c
  cases c with
  | between =>
    cases q with
    | ret b =>
      cases eq
      rfl
    | act op k => exact absurd eq (none (lands op s))
  | during l => exact absurd eq (none l)

end

variable [DecidableEq τ] {S : Shared E R σ τ} {T : Shared Op Res σ τ} {s : σ}
  {call : ∀ op, Prog E R (Res op)} {cs : τ → Prog Op Res α} {P P' : Pool E R σ τ α}
  {A : Pool Op Res σ τ α}

/-- One step of the clients is at most one operation. -/
lemma step_atomic (env : ∀ s s', S.env s s' → T.env s s')
    (lands : ∀ i op s, S.Lands T i op (call op) s) (same : A.state = P.state)
    (calls : ∀ i, InCall S T call i P.state (A.prog i) (P.prog i)) (step : S.Step P P') :
    ∃ A', T.Reachable A A' ∧ A'.state = P'.state ∧
      ∀ i, InCall S T call i P'.state (A'.prog i) (P'.prog i) := by
  obtain ⟨s, qs⟩ := A
  obtain rfl : s = P.state := same
  cases step with
  | @env s s' ps e =>
    refine ⟨⟨s', qs⟩, .single (.env (env s s' e)), rfl, fun i => ?_⟩
    exact (calls i).moves (.inl (env s s' e))
  | @access s s' ps j e k r eq an =>
    have mover : InCall S T call j s (qs j) (.act e k) := eq ▸ calls j
    obtain ⟨op, k', a, next, an', call'⟩ | ⟨rfl, call'⟩ := mover.access (lands j) an
    · refine ⟨⟨s', Function.update qs j (k' a)⟩, .single (.access next an'), rfl, fun i => ?_⟩
      show InCall S T call i s' (Function.update qs j (k' a) i) (Function.update ps j (k r) i)
      by_cases eqi : i = j
      · subst eqi
        rw [Function.update_self, Function.update_self]
        exact call'
      · rw [Function.update_of_ne eqi, Function.update_of_ne eqi]
        exact (calls i).moves (.inr ⟨j, op, a, an'⟩)
    · refine ⟨⟨s', qs⟩, .refl, rfl, fun i => ?_⟩
      show InCall S T call i s' (qs i) (Function.update ps j (k r) i)
      by_cases eqi : i = j
      · subst eqi
        rw [Function.update_self]
        exact call'
      · rw [Function.update_of_ne eqi]
        exact calls i

/-- What clients reach with the programs, they reach with the atomic operations. -/
theorem refines_atomic (env : ∀ s s', S.env s s' → T.env s s')
    (lands : ∀ i op s, S.Lands T i op (call op) s)
    (reach : S.Reachable ⟨s, fun i => (cs i).expand call⟩ P) :
    ∃ A, T.Reachable ⟨s, cs⟩ A ∧ A.state = P.state ∧ ∀ i a, P.prog i = .ret a → A.prog i = .ret a := by
  have sim : ∃ A, T.Reachable ⟨s, cs⟩ A ∧ A.state = P.state ∧
      ∀ i, InCall S T call i P.state (A.prog i) (P.prog i) := by
    induction reach with
    | refl => exact ⟨⟨s, cs⟩, .refl, rfl, fun i => .between⟩
    | tail _ step ih =>
      obtain ⟨A, reach, same, calls⟩ := ih
      obtain ⟨A', more, same', calls'⟩ := step_atomic env lands same calls step
      exact ⟨A', reach.trans more, same', calls'⟩
  obtain ⟨A, reach, same, calls⟩ := sim
  refine ⟨A, reach, same, fun i a done => ?_⟩
  have c := calls i
  rw [done] at c
  exact c.ret (lands i)

end Shared

/-! ## Updates -/

section
variable {ι V : Type} {f : ι → V → V}

/-- Each update overwrites what the others have done. -/
def Absorbs (f : ι → V → V) : Prop := ∀ i j v, f i (f j v) = f i v

/-- An update of an old value is the update of the present one. -/
lemma Absorbs.updated (absorbs : Absorbs f) (i : ι) {v v' : V}
    (updates : Relation.ReflTransGen (fun v v' => v' = v ∨ ∃ j, v' = f j v) v v') :
    f i v' = f i v := by
  induction updates with
  | refl => rfl
  | tail _ update ih =>
    obtain rfl | ⟨j, rfl⟩ := update
    · exact ih
    · rw [absorbs]
      exact ih

end

end Warpshell.Interaction
