import Mathlib.Data.List.Forall2
import Mathlib.Data.List.Induction
import Mathlib.Tactic.Common

/-!
# Statements about the past

What a history (a list of events, the latest one last) contains: `Since P A h`, the past-time "since"
of temporal logic (something satisfied `P`, and nothing has satisfied `A` after it), `Never P h`, and
`InOrder Ps h` (the milestones `Ps` were passed one after the other, whatever happened in between).
The lemmas say how each moves when an event is appended.
-/

namespace Warpshell.Interaction

variable {τ : Type} {P A : τ → Prop} {Ps : List (τ → Prop)} {h t : List τ} {x : τ}

/-- Some event satisfied `P`, and no event after it satisfied `A`. -/
def Since (P A : τ → Prop) (h : List τ) : Prop :=
  ∃ h₁ x h₂, h = h₁ ++ x :: h₂ ∧ P x ∧ ∀ y ∈ h₂, ¬ A y

/-- Nothing has happened in an empty history. -/
@[simp] lemma since_nil : ¬ Since P A [] := by
  intro ⟨h₁, x, h₂, eq, _⟩
  simp at eq

/-- One more event: it is the one asked for, or not one that ends the time since. -/
lemma since_concat : Since P A (h ++ [x]) ↔ P x ∨ ¬ A x ∧ Since P A h := by
  apply Iff.intro
  · intro ⟨h₁, y, h₂, eq, py, quiet⟩
    rcases h₂.eq_nil_or_concat with rfl | ⟨h₂', z, rfl⟩
    · obtain ⟨rfl, rfl⟩ : h = h₁ ∧ x = y := by simpa using eq
      exact .inl py
    · have eq' : h ++ [x] = (h₁ ++ y :: h₂') ++ [z] := by simpa using eq
      obtain ⟨rfl, eqx⟩ := List.append_inj' eq' rfl
      obtain rfl : x = z := by simpa using eqx
      exact .inr ⟨quiet x (by simp), h₁, y, h₂', rfl, py, fun w hw => quiet w (by simp [hw])⟩
  · intro parts
    obtain px | ⟨ax, h₁, y, h₂, rfl, py, quiet⟩ := parts
    · exact ⟨h, x, [], rfl, px, by simp⟩
    · refine ⟨h₁, y, h₂ ++ [x], by simp, py, fun w hw => ?_⟩
      rcases List.mem_append.mp hw with hw | hw
      · exact quiet w hw
      · obtain rfl : w = x := by simpa using hw
        exact ax

/-- Events that satisfy neither predicate do not matter. -/
lemma since_append (quiet : ∀ y ∈ t, ¬ P y ∧ ¬ A y) : Since P A (h ++ t) ↔ Since P A h := by
  induction t using List.reverseRecOn with
  | nil => simp
  | append_singleton t x ih =>
    have hx := quiet x (by simp)
    rw [← List.append_assoc, since_concat, ih (fun y hy => quiet y (by simp [hy]))]
    simp [hx]

/-- Going back over events that do not satisfy `P`. -/
lemma Since.of_append (s : Since P A (h ++ t)) (quiet : ∀ y ∈ t, ¬ P y) : Since P A h := by
  induction t using List.reverseRecOn with
  | nil => rwa [List.append_nil] at s
  | append_singleton t x ih =>
    rw [← List.append_assoc] at s
    rcases since_concat.mp s with px | ⟨_, s⟩
    · exact absurd px (quiet x List.mem_concat_self)
    · exact ih s fun y mem => quiet y (List.mem_append_left _ mem)

def Never (P : τ → Prop) (h : List τ) : Prop := ∀ x ∈ h, ¬ P x

/-- What has never happened in two parts has not happened in the whole. -/
lemma Never.append (n : Never P h) (m : Never P t) : Never P (h ++ t) := by
  intro x mem
  rcases List.mem_append.mp mem with mem | mem
  · exact n x mem
  · exact m x mem

/-- One more event that is not the one. -/
lemma Never.concat (n : Never P h) (px : ¬ P x) : Never P (h ++ [x]) :=
  n.append fun _ mem => List.mem_singleton.mp mem ▸ px

/-- Events satisfying the predicates `Ps` happened, in this order. -/
def InOrder (Ps : List (τ → Prop)) (h : List τ) : Prop :=
  ∃ l, l.Sublist h ∧ List.Forall₂ (fun P x => P x) Ps l

/-- No events are in any history in order. -/
lemma InOrder.nil : InOrder [] h := ⟨[], List.nil_sublist h, .nil⟩

/-- An event of a history, as a sequence of one. -/
lemma InOrder.single (mem : x ∈ h) (px : P x) : InOrder [P] h :=
  ⟨[x], List.singleton_sublist.mpr mem, .cons px .nil⟩

/-- The next event of a sequence may be the last one of the history. -/
lemma InOrder.concat (o : InOrder Ps h) (px : P x) : InOrder (Ps ++ [P]) (h ++ [x]) := by
  obtain ⟨l, sub, all⟩ := o
  exact ⟨l ++ [x], sub.append (List.Sublist.refl [x]), List.rel_append all (.cons px .nil)⟩

/-- A longer history has the same events in order. -/
lemma InOrder.append (o : InOrder Ps h) (t : List τ) : InOrder Ps (h ++ t) := by
  obtain ⟨l, sub, all⟩ := o
  exact ⟨l, sub.trans (List.sublist_append_left h t), all⟩

/-- All but the first of the events. -/
lemma InOrder.tail (o : InOrder (P :: Ps) h) : InOrder Ps h := by
  obtain ⟨l, sub, all⟩ := o
  cases all with
  | @cons _ y _ l _ all => exact ⟨l, (List.sublist_cons_self y l).trans sub, all⟩

/-- Each event of a sequence has happened. -/
lemma InOrder.mem (o : InOrder Ps h) (mem : P ∈ Ps) : ∃ x ∈ h, P x := by
  obtain ⟨l, sub, all⟩ := o
  induction all generalizing h with
  | nil => cases mem
  | @cons Q y Ps l qy all ih =>
    rcases List.mem_cons.mp mem with rfl | mem
    · exact ⟨y, sub.subset (by simp), qy⟩
    · exact ih mem ((List.sublist_cons_self y l).trans sub)

/-! ## Guarded traces -/

variable {G : List τ → τ → Prop} {t' : List τ}

/-- Continuing the history `h`, every event of `t` comes when `G` allows it. -/
def Guarded (G : List τ → τ → Prop) (h t : List τ) : Prop :=
  ∀ pre x post, t = pre ++ x :: post → G (h ++ pre) x

/-- No event needs to be allowed. -/
lemma guarded_nil : Guarded G h [] := by
  intro pre x post eq
  cases pre <;> cases eq

/-- The first event is allowed by the past, the others by the past and it. -/
lemma guarded_cons : Guarded G h (x :: t) ↔ G h x ∧ Guarded G (h ++ [x]) t := by
  apply Iff.intro
  · intro g
    refine ⟨?_, fun pre y post eq => ?_⟩
    · have first := g [] x t rfl
      rwa [List.append_nil] at first
    · have later := g (x :: pre) y post (by rw [eq, List.cons_append])
      rwa [List.append_assoc]
  · intro ⟨first, later⟩ pre y post eq
    cases pre with
    | nil =>
      cases eq
      rwa [List.append_nil]
    | cons z pre =>
      cases eq
      have g := later pre y post rfl
      rwa [List.append_assoc] at g

/-- The second part of a trace is allowed by the past and the first part. -/
lemma guarded_append : Guarded G h (t ++ t') ↔ Guarded G h t ∧ Guarded G (h ++ t) t' := by
  induction t generalizing h with
  | nil =>
    rw [List.nil_append, List.append_nil]
    exact ⟨fun g => ⟨guarded_nil, g⟩, fun g => g.2⟩
  | cons x t ih =>
    rw [List.cons_append, guarded_cons, guarded_cons, ih, List.append_assoc, and_assoc]
    rfl

/-- The trace of a sequence of calls is guarded when the trace of each call is. -/
lemma guarded_flatMap {C : Type} {trace : C → List τ} {calls : List C} :
    Guarded G h (calls.flatMap trace) ↔ ∀ before c after, calls = before ++ c :: after →
      Guarded G (h ++ before.flatMap trace) (trace c) := by
  induction calls generalizing h with
  | nil =>
    refine ⟨fun _ before c after eq => ?_, fun _ => guarded_nil⟩
    cases before <;> cases eq
  | cons d calls ih =>
    rw [List.flatMap_cons, guarded_append, ih]
    apply Iff.intro
    · intro ⟨first, later⟩ before c after eq
      cases before with
      | nil =>
        cases eq
        rwa [List.flatMap_nil, List.append_nil]
      | cons b before =>
        cases eq
        rw [List.flatMap_cons, ← List.append_assoc]
        exact later before c after rfl
    · intro all
      refine ⟨?_, fun before c after eq => ?_⟩
      · have first := all [] d calls rfl
        rwa [List.flatMap_nil, List.append_nil] at first
      · have later := all (d :: before) c after (by rw [eq, List.cons_append])
        rwa [List.flatMap_cons, ← List.append_assoc] at later

end Warpshell.Interaction
