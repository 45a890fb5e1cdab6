import Warpshell.Interaction.Prog

/-!
# Weakest preconditions under interference

A `World` says how the state moves: by itself between two accesses (`env`), and when an access is
answered (`answers`). `W.wp G p Q s` is the weakest precondition of the program `p`: from state `s`,
whatever the environment does and whatever the answers are, every access is issued in a state where
the guard `G` allows it, and `p` returns in a state that satisfies `Q`. It is defined by recursion on
the program; the rules below are the ones of the usual program logic.

`World.Step` is the small-step semantics. Preservation (`World.wp_step`) plays the part of subject
reduction: a step, of the program or of the environment, keeps the weakest precondition.

`history` is the world that answers anything and only remembers; with it the weakest precondition
speaks about traces (`wp_run`).
-/

namespace Warpshell.Interaction

variable {E : Type} {R : E → Type} {σ α β ε ε' : Type}

/-- A world the accesses of a program act on. -/
structure World (E : Type) (R : E → Type) (σ : Type) where
  /-- One step of the environment. -/
  env : σ → σ → Prop
  /-- `answers s e r s'`: in state `s` the access `e` may be answered `r`, which leads to `s'`. -/
  answers : σ → (e : E) → R e → σ → Prop

namespace World
variable {W : World E R σ} {G : σ → E → Prop}

/-- Any number of steps of the environment. -/
abbrev Env (W : World E R σ) : σ → σ → Prop := Relation.ReflTransGen W.env

/-- An assertion the environment does not invalidate. -/
def Stable (W : World E R σ) (P : σ → Prop) : Prop := ∀ s s', P s → W.env s s' → P s'

/-- A stable assertion survives any number of steps of the environment. -/
lemma Stable.env {P : σ → Prop} (st : W.Stable P) {s s'} (h : P s) (e : W.Env s s') : P s' := by
  induction e with
  | refl => exact h
  | tail _ e ih => exact st _ _ ih e

/-- The weakest precondition of a program, with a guard on every access it issues. -/
def wp (W : World E R σ) (G : σ → E → Prop) : Prog E R α → (α → σ → Prop) → σ → Prop
  | .ret a, Q, s => ∀ s', W.Env s s' → Q a s'
  | .act e k, Q, s =>
    ∀ s', W.Env s s' → G s' e ∧ ∀ r s'', W.answers s' e r s'' → W.wp G (k r) Q s''

/-- The environment keeps the weakest precondition. -/
lemma wp_env {p : Prog E R α} {Q : α → σ → Prop} {s s'}
    (h : W.wp G p Q s) (e : W.Env s s') : W.wp G p Q s' := by
  cases p with
  | ret a => exact fun s'' e' => h s'' (e.trans e')
  | act a k => exact fun s'' e' => h s'' (e.trans e')

/-- The rule of consequence for postconditions. -/
lemma wp_mono {p : Prog E R α} {Q Q' : α → σ → Prop} {s}
    (h : W.wp G p Q s) (imp : ∀ a s, Q a s → Q' a s) : W.wp G p Q' s := by
  induction p generalizing s with
  | ret a => exact fun s' e => imp a s' (h s' e)
  | act a k ih =>
    intro s' e
    obtain ⟨g, next⟩ := h s' e
    exact ⟨g, fun r s'' an => ih r (next r s'' an)⟩

/-- The rule of consequence for guards. -/
lemma wp_guard {p : Prog E R α} {G' : σ → E → Prop} {Q : α → σ → Prop} {s}
    (h : W.wp G p Q s) (imp : ∀ s e, G s e → G' s e) : W.wp G' p Q s := by
  induction p generalizing s with
  | ret a => exact h
  | act a k ih =>
    intro s' e
    obtain ⟨g, next⟩ := h s' e
    exact ⟨imp _ _ g, fun r s'' an => ih r (next r s'' an)⟩

/-- A world with fewer steps asks for less. -/
lemma wp_world {W' : World E R σ} {p : Prog E R α} {Q : α → σ → Prop} {s}
    (env : ∀ s s', W'.env s s' → W.env s s')
    (answers : ∀ s e r s', W'.answers s e r s' → W.answers s e r s')
    (h : W.wp G p Q s) : W'.wp G p Q s := by
  have Env : ∀ {s s'}, W'.Env s s' → W.Env s s' := fun e => Relation.ReflTransGen.mono env _ _ e
  induction p generalizing s with
  | ret a => exact fun s' e => h s' (Env e)
  | act a k ih =>
    intro s' e
    obtain ⟨g, next⟩ := h s' (Env e)
    exact ⟨g, fun r s'' an => ih r (next r s'' (answers _ _ _ _ an))⟩

/-- The postcondition may be read after further steps of the environment. -/
lemma wp_closed {p : Prog E R α} {Q : α → σ → Prop} {s}
    (h : W.wp G p Q s) : W.wp G p (fun a s => ∀ s', W.Env s s' → Q a s') s := by
  induction p generalizing s with
  | ret a => exact fun s' e s'' e' => h s'' (e.trans e')
  | act a k ih =>
    intro s' e
    obtain ⟨g, next⟩ := h s' e
    exact ⟨g, fun r s'' an => ih r (next r s'' an)⟩

/-- The rule of composition. -/
lemma wp_bind {p : Prog E R α} {f : α → Prog E R β} {Q : β → σ → Prop} {s} :
    W.wp G (p.bind f) Q s ↔ W.wp G p (fun a => W.wp G (f a) Q) s := by
  induction p generalizing s with
  | ret a =>
    apply Iff.intro
    · intro h s' e; exact wp_env h e
    · intro h; exact h s .refl
  | act e k ih =>
    apply Iff.intro
    · intro h s' en
      obtain ⟨g, next⟩ := h s' en
      exact ⟨g, fun r s'' an => (ih r).mp (next r s'' an)⟩
    · intro h s' en
      obtain ⟨g, next⟩ := h s' en
      exact ⟨g, fun r s'' an => (ih r).mpr (next r s'' an)⟩

/-! ## Rules for fallible programs -/

/-- The postcondition of the first half of a composition: `K` for the value it goes on with, the
    postcondition `Q` of the whole for an error or a panic. -/
def onOk (K : α → σ → Prop) (Q : Outcome ε β → σ → Prop) : Outcome ε α → σ → Prop
  | .ok a, s => K a s
  | .err e, s => Q (.err e) s
  | .panic, s => Q .panic s

/-- The rule of composition for fallible programs: an error ends the whole. -/
lemma wp_seq {x : Io E R ε α} {f : α → Io E R ε β} {Q : Outcome ε β → σ → Prop} {s} :
    W.wp G (x >>= f : Io E R ε β) Q s ↔ W.wp G x (onOk (fun a => W.wp G (f a) Q) Q) s := by
  refine wp_bind.trans ⟨fun h => ?_, fun h => ?_⟩
  · apply wp_mono h
    intro o s h
    cases o with
    | ok a => exact h
    | err e => exact h s .refl
    | panic => exact h s .refl
  · apply wp_mono (wp_closed h)
    intro o s h
    cases o with
    | ok a => exact h s .refl
    | err e => exact h
    | panic => exact h

/-- A conversion of errors is one of the postcondition. -/
lemma wp_mapErr {x : Io E R ε α} {f : ε → ε'} {Q : Outcome ε' α → σ → Prop} {s} :
    W.wp G (x.mapErr f) Q s ↔ W.wp G x (fun o => Q (o.mapErr f)) s := by
  refine wp_bind.trans ⟨fun h => ?_, fun h => ?_⟩
  · exact wp_mono h fun o s h => h s .refl
  · exact wp_mono (wp_closed h) fun o s h => h

/-- A caught error is a value. -/
lemma wp_attempt {x : Io E R ε α} {Q : Outcome ε' (Except ε α) → σ → Prop} {s}
    (h : W.wp G x (fun
      | .ok a, s => Q (.ok (.ok a)) s
      | .err e, s => Q (.ok (.error e)) s
      | .panic, s => Q .panic s) s) :
    W.wp G (x.attempt) Q s := by
  refine wp_bind.mpr (wp_mono (wp_closed h) fun o s h => ?_)
  cases o with
  | ok a => exact h
  | err e => exact h
  | panic => exact h

/-- The rule for a single access, from an assertion that is stable. -/
lemma wp_access {e : E} {Q : R e → σ → Prop} {s} {P : σ → Prop} (hs : P s) (st : W.Stable P)
    (stQ : ∀ r, W.Stable (Q r))
    (h : ∀ s, P s → G s e ∧ ∀ r s', W.answers s e r s' → Q r s') :
    W.wp G (.access e) Q s := by
  intro s' en
  obtain ⟨g, next⟩ := h s' (st.env hs en)
  exact ⟨g, fun r s'' an s₃ en' => (stQ r).env (next r s'' an) en'⟩

/-! ## Small steps -/

/-- A step of the environment, or of the program. -/
inductive Step (W : World E R σ) : σ × Prog E R α → σ × Prog E R α → Prop where
  | env {s s' p} : W.env s s' → Step W (s, p) (s', p)
  | act {s s' e r k} : W.answers s e r s' → Step W (s, .act e k) (s', k r)

/-- Preservation: a step keeps the weakest precondition. -/
lemma wp_step {p p' : Prog E R α} {Q : α → σ → Prop} {s s'}
    (h : W.wp G p Q s) (st : W.Step (s, p) (s', p')) : W.wp G p' Q s' := by
  cases st with
  | env e => exact wp_env h (.single e)
  | act an => exact (h s .refl).2 _ _ an

/-- Safety: an access about to be issued is one the guard allows. -/
lemma wp_safe {e : E} {k : R e → Prog E R α} {Q : α → σ → Prop} {s}
    (h : W.wp G (.act e k) Q s) : G s e :=
  (h s .refl).1

end World

/-! ## Bounded search -/

/-- Run `p` at most `n` times, until its result satisfies `q`, and return the position of the match,
    counted from `i`: the lazily evaluated `repeat_with(p).take(n).position(q)`. -/
def Prog.position (p : Prog E R α) (q : α → Bool) : (n : Nat) → (i : Nat := 0) → Prog E R (Option Nat)
  | 0, _ => .ret none
  | n + 1, i => p.bind fun a => if q a then .ret (some i) else p.position q n (i + 1)

/-- The invariant rule for bounded search: `J i` holds after `i` rounds without a match. -/
lemma World.wp_position {W : World E R σ} {G : σ → E → Prop} {p : Prog E R α} {q : α → Bool}
    {Q : Option Nat → σ → Prop} {J : Nat → σ → Prop} {n i : Nat} {s}
    (h : J i s) (st : ∀ j, W.Stable (J j))
    (step : ∀ j s, i ≤ j → j < i + n → J j s →
      W.wp G p (fun a s' => if q a then Q (some j) s' else J (j + 1) s') s)
    (done : ∀ s, J (i + n) s → Q none s) :
    W.wp G (p.position q n i) Q s := by
  induction n generalizing i s with
  | zero => exact fun s' e => done s' ((st i).env h e)
  | succ n ih =>
    refine World.wp_bind.mpr (World.wp_mono (World.wp_closed (step i s (Nat.le_refl i) (by omega) h)) ?_)
    intro a s' ha
    split
    next hq => intro s'' e; simpa [hq] using ha s'' e
    next hq =>
      apply ih (by simpa [hq] using ha s' .refl) (fun j s hj hn => step j s (by omega) (by omega))
      intro s hJ
      exact done s (by rwa [show i + (n + 1) = i + 1 + n by omega])

/-! ## Traces -/

/-- The world that gives any answer and remembers what happened. -/
def history (E : Type) (R : E → Type) : World E R (List (Event E R)) where
  env _ _ := False
  answers h e r h' := h' = h ++ [⟨e, r⟩]

/-- The history does not change between two accesses. -/
@[simp] lemma history_env {h h' : List (Event E R)} : (history E R).Env h h' ↔ h' = h := by
  apply Iff.intro
  · intro e
    cases e with
    | refl => rfl
    | tail _ e => exact e.elim
  · rintro rfl; exact .refl

/-- Every assertion about the history is stable. -/
lemma history_stable {P : List (Event E R) → Prop} : (history E R).Stable P :=
  fun _ _ _ e => e.elim

/-- Any answer may be given, and is remembered. -/
@[simp] lemma history_access {G : List (Event E R) → E → Prop} {e : E}
    {Q : R e → List (Event E R) → Prop} {h} :
    (history E R).wp G (.access e) Q h ↔ G h e ∧ ∀ r, Q r (h ++ [⟨e, r⟩]) := by
  apply Iff.intro
  · intro w
    obtain ⟨g, next⟩ := w h .refl
    exact ⟨g, fun r => next r _ rfl _ .refl⟩
  · intro ⟨g, next⟩ h' e
    obtain rfl := history_env.mp e
    refine ⟨g, ?_⟩
    rintro r _ rfl h'' e'
    obtain rfl := history_env.mp e'
    exact next r

/-- A program that returns adds nothing to the history. -/
@[simp] lemma history_ret {G : List (Event E R) → E → Prop} {a : α}
    {Q : α → List (Event E R) → Prop} {h} :
    (history E R).wp G (.ret a) Q h ↔ Q a h := by
  simp [World.wp]

/-- Over histories, what the guard asks of every access is known of all the accesses so far. -/
lemma history_past {P : E → Prop} {p : Prog E R α} {Q : α → List (Event E R) → Prop}
    {h : List (Event E R)} (w : (history E R).wp (fun _ e => P e) p Q h) :
    (history E R).wp (fun h' _ => ∃ t, h' = h ++ t ∧ ∀ x ∈ t, P x.1) p Q h := by
  have since : ∀ {p : Prog E R α} {t : List (Event E R)}, (∀ x ∈ t, P x.1) →
      (history E R).wp (fun _ e => P e) p Q (h ++ t) →
      (history E R).wp (fun h' _ => ∃ t, h' = h ++ t ∧ ∀ x ∈ t, P x.1) p Q (h ++ t) := by
    intro p
    induction p with
    | ret a => exact fun _ w => w
    | act e k ih =>
      intro t past w h' en
      obtain rfl := history_env.mp en
      refine ⟨⟨t, rfl, past⟩, ?_⟩
      rintro r _ rfl
      obtain ⟨holds, next⟩ := w _ .refl
      have rest := next r _ rfl
      rw [List.append_assoc] at rest ⊢
      refine ih r (fun x mem => ?_) rest
      rcases List.mem_append.mp mem with mem | mem
      · exact past x mem
      · exact List.mem_singleton.mp mem ▸ holds
  have w' := since (t := []) (fun _ mem => absurd mem List.not_mem_nil) (by rwa [List.append_nil])
  rwa [List.append_nil] at w'

/-- The weakest precondition over histories is about the runs: the postcondition holds at the end of
    each run, and each access of it was issued where the guard allows it. -/
theorem wp_run {G : List (Event E R) → E → Prop} {p : Prog E R α}
    {Q : α → List (Event E R) → Prop} {h t a}
    (w : (history E R).wp G p Q h) (run : Run p t a) :
    Q a (h ++ t) ∧ ∀ pre e r post, t = pre ++ ⟨e, r⟩ :: post → G (h ++ pre) e := by
  induction run generalizing h with
  | ret =>
    refine ⟨by simpa using w h .refl, fun pre e r post eq => ?_⟩
    simp at eq
  | @act e k r t a run ih =>
    obtain ⟨g, next⟩ := w h .refl
    obtain ⟨q, guards⟩ := ih (next r _ rfl)
    refine ⟨by simpa using q, fun pre e' r' post eq => ?_⟩
    cases pre with
    | nil =>
      cases eq
      simpa using g
    | cons x pre =>
      cases eq
      simpa using guards pre e' r' post rfl

end Warpshell.Interaction
