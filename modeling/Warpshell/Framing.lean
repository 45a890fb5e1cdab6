import Mathlib.Data.List.Forall2
import Mathlib.Tactic.Common

/-!
# Sequences of frames

A stream cut into frames, each of which is accepted as an item. `Split accept s is r` says that `s`
is a sequence of accepted frames with the items `is`, followed by `r`. When no frame is a proper
prefix of another, two ways to split a stream agree as far as both go (`Split.compare`).
-/

namespace Warpshell.Framing

variable {τ ι : Type} {accept : List τ → ι → Prop}

/-- No frame is a proper prefix of another. -/
def PrefixFree (accept : List τ → ι → Prop) : Prop :=
  ∀ ⦃b b' s s' i i'⦄, accept b i → accept b' i' → b ++ s = b' ++ s' → b = b'

/-- A stream that starts with accepted frames, the items of these frames, and what follows them. -/
inductive Split (accept : List τ → ι → Prop) : List τ → List ι → List τ → Prop where
  | nil {r} : Split accept r [] r
  | cons {b i s is r} : accept b i → Split accept s is r → Split accept (b ++ s) (i :: is) r

/-- A split, with its frames written out. -/
lemma split_iff {s r : List τ} {is : List ι} :
    Split accept s is r ↔ ∃ frames, s = frames.flatten ++ r ∧ List.Forall₂ accept frames is := by
  apply Iff.intro
  · intro sp
    induction sp with
    | nil => exact ⟨[], rfl, .nil⟩
    | @cons b i s is r acc _ ih =>
      obtain ⟨frames, rfl, all⟩ := ih
      exact ⟨b :: frames, by simp, .cons acc all⟩
  · intro ⟨frames, eq, all⟩
    subst eq
    induction all with
    | nil => exact .nil
    | @cons b i frames is acc _ ih =>
      rw [List.flatten_cons, List.append_assoc]
      exact .cons acc ih

/-- Of two splits of one stream, one goes on where the other stops. -/
lemma Split.compare (free : PrefixFree accept) {s r r' : List τ} {is is' : List ι}
    (sp : Split accept s is r) (sp' : Split accept s is' r') :
    (∃ js, Split accept r js r') ∨ ∃ js, Split accept r' js r := by
  induction sp generalizing is' with
  | nil => exact .inl ⟨is', sp'⟩
  | @cons b i s is r acc sp ih =>
    generalize e : b ++ s = t at sp'
    cases sp' with
    | nil => subst e; exact .inr ⟨i :: is, .cons acc sp⟩
    | @cons b' i' s' is' r' acc' sp' =>
      have eqb : b = b' := free acc acc' e
      subst eqb
      have eqs : s = s' := List.append_cancel_left e
      subst eqs
      exact ih sp'

end Warpshell.Framing
