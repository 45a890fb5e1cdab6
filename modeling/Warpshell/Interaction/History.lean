import Warpshell.Interaction.Parallel
import Warpshell.Interaction.Session
import Warpshell.Interaction.Triple

/-!
# Sessions with failures

What a call leaves behind when it fails, and what holds of a session from the history of its calls.

A triple says nothing about errors. `W.Leaves P x F` does: a run of `x` that returns no value ends
where `F` holds. Its rule for composition needs the triple of the first half, since what the second
half fails from is what the first one has returned in.

`Recorded` is the invariant of a session that remembers: it may speak of what all the calls so far have
returned, and every call has to account for itself, whichever way it ends.
-/

namespace Warpshell.Interaction

variable {E : Type} {R : E → Type} {σ α β ε ε' : Type}

namespace World
variable {W : World E R σ} {P F F' : σ → Prop} {x : Io E R ε α}

/-- Started where `P` holds, a run of `x` that returns no value ends where `F` holds. -/
def Leaves (W : World E R σ) (P : σ → Prop) (x : Io E R ε α) (F : σ → Prop) : Prop :=
  ∀ s, P s → W.wp (fun _ _ => True) x (onOk (fun _ _ => True) (fun _ => F : Outcome ε α → σ → Prop)) s

namespace Leaves

/-- Weakening what holds after an error. -/
lemma post (l : W.Leaves P x F) (imp : ∀ s, F s → F' s) : W.Leaves P x F' := by
  intro s hs
  refine wp_mono (l s hs) fun o s h => ?_
  cases o with
  | ok a => trivial
  | err e => exact imp s h
  | panic => exact imp s h

/-- A precondition by cases. -/
lemma cases {ι : Type} {P : ι → σ → Prop} (l : ∀ i, W.Leaves (P i) x F) :
    W.Leaves (fun s => ∃ i, P i s) x F := fun s ⟨i, hs⟩ => l i s hs

/-- A precondition that says something which does not depend on the state. -/
lemma given {c : Prop} (l : c → W.Leaves P x F) : W.Leaves (fun s => c ∧ P s) x F :=
  fun s ⟨hc, hs⟩ => l hc s hs

/-- Both ways in which a run can end. -/
lemma ends {K : α → σ → Prop} (l : W.Leaves P x F) (t : W.Triple P x K) {s : σ} (hs : P s) :
    W.wp (fun _ _ => True) x (onOk K (fun _ => F : Outcome ε α → σ → Prop)) s := by
  refine wp_mono (wp_and (t.holds s hs) (l s hs)) fun o s h => ?_
  cases o with
  | ok a => exact h.1
  | err e => exact h.2
  | panic => exact h.2

/-- An error of a composition is one of its halves; the second half starts where the first one has
    returned. -/
lemma bind {K : α → σ → Prop} {f : α → Io E R ε β} (l : W.Leaves P x F) (t : W.Triple P x K)
    (next : ∀ a, W.Leaves (K a) (f a) F) : W.Leaves P (x >>= f : Io E R ε β) F := by
  intro s hs
  refine wp_seq.mpr (wp_mono (l.ends t hs) fun o s h => ?_)
  cases o with
  | ok a => exact next a s h
  | err e => exact h
  | panic => exact h

/-- A conversion of errors leaves the state as it is. -/
lemma mapErr {f : ε → ε'} (l : W.Leaves P x F) : W.Leaves P (x.mapErr f) F := by
  intro s hs
  refine wp_mapErr.mpr (wp_mono (l s hs) fun o s h => ?_)
  cases o with
  | ok a => trivial
  | err e => exact h
  | panic => exact h

/-- A single access that fails ends where its answer has led. -/
lemma access {e : E} {f : R e → Outcome ε α} (stP : W.Stable P) (stF : W.Stable F)
    (answer : ∀ s r s', P s → W.answers s e r s' → F s') :
    W.Leaves P ((Prog.access e).bind fun r => .ret (f r) : Io E R ε α) F := by
  intro s hs s₁ en
  refine ⟨trivial, fun r s' an s'' en' => ?_⟩
  have left : F s'' := stF.env (answer s₁ r s' (stP.env hs en) an) en'
  cases f r with
  | ok a => trivial
  | err e => exact left
  | panic => exact left

/-- A program all accesses of which keep `F` cannot but leave it behind. -/
lemma of_only {A : E → Prop} (only : Only (fun _ => True) A x) (st : W.Stable F)
    (keeps : ∀ s e r s', A e → F s → W.answers s e r s' → F s') (start : ∀ s, P s → F s) :
    W.Leaves P x F := by
  have kept : ∀ {p : Prog E R (Outcome ε α)} {s}, Only (fun _ => True) A p → F s →
      W.wp (fun _ _ => True) p (fun _ => F) s := by
    intro p
    induction p with
    | ret o => exact fun _ hs s' en => st.env hs en
    | act e k ih =>
      intro s only hs s' en
      refine ⟨trivial, fun r s'' an => ?_⟩
      obtain ⟨holds, rest⟩ := only.act (r := r) trivial
      exact ih r rest (keeps s' e r s'' holds (st.env hs en) an)
  intro s hs
  refine wp_mono (kept only (start s hs)) fun o s h => ?_
  cases o with
  | ok a => trivial
  | err e => exact h
  | panic => exact h

end Leaves

end World

/-! ## Histories -/

namespace Service
variable {C : Type} {Res : C → Type} {T : Service E R σ C Res}
  {Inv : List (Returned σ C Res) → σ → Prop} {S S' : Session E R σ C Res}

/-- What holds between the calls, given what they have returned. -/
structure Recorded (T : Service E R σ C Res) (Inv : List (Returned σ C Res) → σ → Prop) : Prop where
  stable : ∀ ds, (∀ s s', Inv ds s → T.env s s' → Inv ds s')
  call : ∀ ds c s, Inv ds s →
    (T.world c).wp (fun _ _ => True) (T.prog c) (fun a s' => Inv (ds ++ [⟨c, s, a, s'⟩]) s') s

/-- A session that goes by its record. -/
structure Kept (T : Service E R σ C Res) (Inv : List (Returned σ C Res) → σ → Prop)
    (S : Session E R σ C Res) : Prop where
  idle : S.current = none → Inv S.returned S.world
  running : ∀ r, S.current = some r → (T.world r.call).wp (fun _ _ => True) r.prog
    (fun a s' => Inv (S.returned ++ [⟨r.call, r.start, a, s'⟩]) s') S.world

/-- Every step of a session keeps to its history. -/
lemma Recorded.step (rec : T.Recorded Inv) (kept : T.Kept Inv S) (st : T.Step S S') :
    T.Kept Inv S' := by
  obtain ⟨idle, running⟩ := kept
  cases st with
  | @env s s' cur rets e =>
    refine ⟨fun none => rec.stable rets s s' (idle none) e, fun r some => ?_⟩
    exact World.wp_env (W := T.world r.call) (running r some) (.single e)
  | @call s rets c =>
    refine ⟨fun none => (by cases none), fun r some => ?_⟩
    cases some
    exact rec.call rets c s (idle rfl)
  | @access s s' rets c s₀ e r k an =>
    refine ⟨fun none => (by cases none), fun r' some => ?_⟩
    cases some
    exact World.wp_step (W := T.world c) (running ⟨c, s₀, .act e k⟩ rfl) (.act an)
  | @ret s rets c s₀ a =>
    refine ⟨fun _ => running ⟨c, s₀, .ret a⟩ rfl s .refl, fun r some => ?_⟩
    cases some

/-- Every session that is reached keeps to its history. -/
theorem Recorded.reachable (rec : T.Recorded Inv) {s : σ} (start : Inv [] s)
    (reach : Relation.ReflTransGen T.Step (Session.start s) S) : T.Kept Inv S := by
  induction reach with
  | refl =>
    refine ⟨fun _ => start, fun r some => ?_⟩
    cases some
  | tail _ st ih => exact rec.step ih st

/-- A call in progress takes the steps of its program. -/
lemma step_running {c : C} {p p' : Prog E R (Res c)} {s₀ s s' : σ} (rets : List (Returned σ C Res))
    (steps : (T.world c).Steps (s, p) (s', p')) :
    Relation.ReflTransGen T.Step ⟨s, some ⟨c, s₀, p⟩, rets⟩ ⟨s', some ⟨c, s₀, p'⟩, rets⟩ := by
  refine Relation.ReflTransGen.lift (p := T.Step)
    (fun x : σ × Prog E R (Res c) => ⟨x.1, some ⟨c, s₀, x.2⟩, rets⟩) ?_ _ _ steps
  intro x x' step
  cases step with
  | env e => exact .env e
  | act an => exact .access an

/-- A call that can be run to its end. -/
lemma step_completes {c : C} {s s' : σ} {a : Res c} (rets : List (Returned σ C Res))
    (steps : (T.world c).Steps (s, T.prog c) (s', .ret a)) :
    Relation.ReflTransGen T.Step ⟨s, none, rets⟩ ⟨s', none, rets ++ [⟨c, s, a, s'⟩]⟩ :=
  .head (.call c) ((step_running rets steps).tail .ret)

end Service

end Warpshell.Interaction
