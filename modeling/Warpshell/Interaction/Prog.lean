import Mathlib.Logic.Relation
import Mathlib.Tactic.Common

/-!
# Interaction programs

A program that talks to an outside world: it returns a value, or issues an access `e` and goes on
with the answer it gets. The accesses `E` and their answers `R` are parameters, so nothing here
knows what is accessed.

`Io` is the monad of fallible code over such programs: a computation ends with a value, with an
error that is passed on to its caller, or with a panic that no caller sees as an error. `Run` is the
trace semantics (the accesses with their answers, in order), and `Prog.runWith` the run that one
particular deterministic world gives.
-/

namespace Warpshell.Interaction

/-- How fallible code ends. -/
inductive Outcome (ε α : Type) where
  | ok (a : α)
  | err (e : ε)
  | panic
  deriving DecidableEq, Repr

namespace Outcome
variable {ε ε' α β : Type}

/-- Go on after a value; errors and panics pass through. -/
def bind : Outcome ε α → (α → Outcome ε β) → Outcome ε β
  | .ok a, f => f a
  | .err e, _ => .err e
  | .panic, _ => .panic

instance : Monad (Outcome ε) where
  pure := .ok
  bind := .bind

/-- Convert the error. -/
def mapErr (f : ε → ε') : Outcome ε α → Outcome ε' α
  | .ok a => .ok a
  | .err e => .err (f e)
  | .panic => .panic

def ofExcept : Except ε α → Outcome ε α
  | .ok a => .ok a
  | .error e => .err e

@[simp] lemma ok_bind (a : α) (f : α → Outcome ε β) : (Outcome.ok a >>= f) = f a := rfl
@[simp] lemma panic_bind (f : α → Outcome ε β) : (Outcome.panic >>= f) = .panic := rfl

end Outcome

/-- A program that issues accesses in `E`, each answered in `R`, and returns an `α`. -/
inductive Prog (E : Type) (R : E → Type) (α : Type) where
  | ret (a : α)
  | act (e : E) (k : R e → Prog E R α)

variable {E : Type} {R : E → Type} {α β γ ε ε' : Type}

namespace Prog

/-- Run `p`, then `f` on what it returned. -/
def bind : Prog E R α → (α → Prog E R β) → Prog E R β
  | .ret a, f => f a
  | .act e k, f => .act e (fun r => (k r).bind f)

/-- Issue one access and return its answer. -/
def access (e : E) : Prog E R (R e) := .act e .ret

/-- Returning what a program returns changes nothing. -/
lemma bind_ret (p : Prog E R α) : p.bind .ret = p := by
  induction p with
  | ret a => rfl
  | act e k ih => exact congrArg (Prog.act e) (funext ih)

/-- Composition is associative. -/
lemma bind_bind (p : Prog E R α) (f : α → Prog E R β) (g : β → Prog E R γ) :
    (p.bind f).bind g = p.bind (fun a => (f a).bind g) := by
  induction p with
  | ret a => rfl
  | act e k ih => exact congrArg (Prog.act e) (funext ih)

end Prog

/-! ## Fallible programs -/

/-- Programs that may fail or panic. -/
def Io (E : Type) (R : E → Type) (ε α : Type) : Type := Prog E R (Outcome ε α)

namespace Io

/-- What follows an outcome: `f` after a value, nothing after an error or a panic. -/
def next (f : α → Io E R ε β) : Outcome ε α → Io E R ε β
  | .ok a => f a
  | .err e => .ret (.err e)
  | .panic => .ret .panic

instance : Monad (Io E R ε) where
  pure a := .ret (.ok a)
  bind x f := Prog.bind x (next f)

def throw (e : ε) : Io E R ε α := .ret (.err e)

/-- Lift the outcome of pure code. -/
def ofOutcome (o : Outcome ε α) : Io E R ε α := .ret o

/-- Convert the error, as a call site does before it passes the error on. -/
def mapErr (f : ε → ε') (x : Io E R ε α) : Io E R ε' α :=
  Prog.bind x (fun o => .ret (o.mapErr f))

/-- Look at the result of `x` instead of passing its error on; a panic still passes. -/
def attempt (x : Io E R ε α) : Io E R ε' (Except ε α) :=
  Prog.bind x fun
    | .ok a => .ret (.ok (.ok a))
    | .err e => .ret (.ok (.error e))
    | .panic => .ret .panic

/-- Returning the value of a fallible program changes nothing. -/
lemma bind_pure (x : Io E R ε α) : (x >>= pure : Io E R ε α) = x := by
  refine Eq.trans (congrArg (Prog.bind x) (funext fun o => ?_)) (Prog.bind_ret x)
  cases o <;> rfl

/-- Composition of fallible programs is associative. -/
lemma bind_assoc (x : Io E R ε α) (f : α → Io E R ε β) (g : β → Io E R ε γ) :
    (x >>= f >>= g : Io E R ε γ) = x >>= fun a => f a >>= g := by
  refine (Prog.bind_bind x _ _).trans (congrArg (Prog.bind x) (funext fun o => ?_))
  cases o <;> rfl

/-- A value is handed to what follows. -/
lemma pure_bind (a : α) (f : α → Io E R ε β) : (pure a >>= f : Io E R ε β) = f a := rfl

/-- Nothing follows an error. -/
lemma throw_bind (e : ε) (f : α → Io E R ε β) : (throw e >>= f : Io E R ε β) = throw e := rfl

/-- What follows a case distinction follows both of its cases. -/
lemma ite_bind {c : Prop} [Decidable c] (x y : Io E R ε α) (f : α → Io E R ε β) :
    ((if c then x else y) >>= f : Io E R ε β) = if c then x >>= f else y >>= f := by
  split <;> rfl

/-- Two conversions of the errors are one. -/
lemma mapErr_mapErr {ε'' : Type} (x : Io E R ε α) (f : ε → ε') (g : ε' → ε'') :
    (x.mapErr f).mapErr g = x.mapErr (g ∘ f) := by
  refine (Prog.bind_bind x _ _).trans (congrArg (Prog.bind x) (funext fun o => ?_))
  cases o <;> rfl

/-- The errors of a composition are those of its halves. -/
lemma mapErr_bind (x : Io E R ε α) (f : α → Io E R ε β) (g : ε → ε') :
    (x >>= f : Io E R ε β).mapErr g = x.mapErr g >>= fun a => (f a).mapErr g := by
  refine (Prog.bind_bind x _ _).trans (Eq.trans ?_ (Prog.bind_bind x _ _).symm)
  refine congrArg (Prog.bind x) (funext fun o => ?_)
  cases o <;> rfl

end Io

/-! ## Traces -/

/-- An access with the answer it got. -/
abbrev Event (E : Type) (R : E → Type) : Type := (e : E) × R e

/-- `Run p t a`: answered as in the trace `t`, the program `p` issues exactly the accesses of `t`
    and returns `a`. -/
inductive Run : Prog E R α → List (Event E R) → α → Prop where
  | ret {a} : Run (.ret a) [] a
  | act {e k r t a} : Run (k r) t a → Run (.act e k) (⟨e, r⟩ :: t) a

/-- The run of a program that only returns. -/
lemma run_ret {a b : α} {t : List (Event E R)} : Run (.ret a) t b ↔ t = [] ∧ b = a := by
  apply Iff.intro
  · intro run
    cases run with
    | ret => exact ⟨rfl, rfl⟩
  · intro parts
    obtain ⟨rfl, rfl⟩ := parts
    exact .ret

/-- A run of a composition is a run of its first half, and then one of what follows. -/
lemma run_bind {p : Prog E R α} {f : α → Prog E R β} {t : List (Event E R)} {b : β} :
    Run (p.bind f) t b ↔ ∃ t₁ t₂ a, t = t₁ ++ t₂ ∧ Run p t₁ a ∧ Run (f a) t₂ b := by
  induction p generalizing t with
  | ret a =>
    apply Iff.intro
    · intro run
      exact ⟨[], t, a, rfl, .ret, run⟩
    · intro parts
      obtain ⟨t₁, t₂, a', rfl, run, run'⟩ := parts
      obtain ⟨rfl, rfl⟩ := run_ret.mp run
      exact run'
  | act e k ih =>
    apply Iff.intro
    · intro run
      cases run with
      | act run =>
        obtain ⟨t₁, t₂, a, rfl, run₁, run₂⟩ := (ih _).mp run
        exact ⟨_ :: t₁, t₂, a, rfl, .act run₁, run₂⟩
    · intro parts
      obtain ⟨t₁, t₂, a, rfl, run₁, run₂⟩ := parts
      cases run₁ with
      | act run₁ => exact .act ((ih _).mpr ⟨_, _, _, rfl, run₁, run₂⟩)

/-- The runs of a single access: any answer, which is returned. -/
lemma run_access {e : E} {t : List (Event E R)} {r : R e} :
    Run (.access e) t r ↔ t = [⟨e, r⟩] := by
  apply Iff.intro
  · intro run
    cases run with
    | act run =>
      obtain ⟨rfl, rfl⟩ := run_ret.mp run
      rfl
  · rintro rfl
    exact .act .ret

/-- A trace leaves no choice of the result. -/
lemma Run.result_unique {p : Prog E R α} {t : List (Event E R)} {a b : α} (run : Run p t a)
    (run' : Run p t b) : a = b := by
  induction run with
  | ret =>
    obtain ⟨_, eq⟩ := run_ret.mp run'
    exact eq.symm
  | act _ ih =>
    cases run' with
    | act run' => exact ih run'

/-- The first event of a run is the first access, with some answer. -/
lemma Run.first {e : E} {k : R e → Prog E R α} {t a} (run : Run (.act e k) t a) :
    ∃ r t', t = ⟨e, r⟩ :: t' ∧ Run (k r) t' a := by
  cases run with
  | act run => exact ⟨_, _, rfl, run⟩

namespace Io

/-- The runs of a composition: both halves, or a first half that returns no value. -/
lemma run_seq {x : Io E R ε α} {f : α → Io E R ε β} {t : List (Event E R)} {o : Outcome ε β} :
    Run (x >>= f : Io E R ε β) t o ↔
      (∃ t₁ t₂ a, t = t₁ ++ t₂ ∧ Run x t₁ (.ok a) ∧ Run (f a) t₂ o) ∨
      (∃ e, o = .err e ∧ Run x t (.err e)) ∨ o = .panic ∧ Run x t .panic := by
  apply run_bind.trans
  apply Iff.intro
  · intro parts
    obtain ⟨t₁, t₂, r, rfl, run₁, run₂⟩ := parts
    cases r with
    | ok a => exact .inl ⟨t₁, t₂, a, rfl, run₁, run₂⟩
    | err e =>
      obtain ⟨rfl, rfl⟩ := run_ret.mp run₂
      exact .inr (.inl ⟨e, rfl, by rwa [List.append_nil]⟩)
    | panic =>
      obtain ⟨rfl, rfl⟩ := run_ret.mp run₂
      exact .inr (.inr ⟨rfl, by rwa [List.append_nil]⟩)
  · intro parts
    obtain ⟨t₁, t₂, a, eq, run₁, run₂⟩ | ⟨e, rfl, run⟩ | ⟨rfl, run⟩ := parts
    · exact ⟨t₁, t₂, _, eq, run₁, run₂⟩
    · exact ⟨t, [], _, (List.append_nil t).symm, run, .ret⟩
    · exact ⟨t, [], _, (List.append_nil t).symm, run, .ret⟩

/-- The runs with converted errors. -/
lemma run_mapErr {x : Io E R ε α} {f : ε → ε'} {t : List (Event E R)} {o : Outcome ε' α} :
    Run (x.mapErr f) t o ↔ ∃ o', Run x t o' ∧ o = o'.mapErr f := by
  apply run_bind.trans
  apply Iff.intro
  · intro parts
    obtain ⟨t₁, t₂, o', rfl, run₁, run₂⟩ := parts
    obtain ⟨rfl, rfl⟩ := run_ret.mp run₂
    exact ⟨o', by rwa [List.append_nil], rfl⟩
  · intro parts
    obtain ⟨o', run, rfl⟩ := parts
    exact ⟨t, [], o', (List.append_nil t).symm, run, .ret⟩

/-- The runs of a program whose errors are caught: the same, with errors as values. -/
lemma run_attempt {x : Io E R ε α} {t : List (Event E R)} {o : Outcome ε' (Except ε α)} :
    Run (x.attempt : Io E R ε' (Except ε α)) t o ↔
      (∃ a, o = .ok (.ok a) ∧ Run x t (.ok a)) ∨ (∃ e, o = .ok (.error e) ∧ Run x t (.err e)) ∨
        o = .panic ∧ Run x t .panic := by
  apply run_bind.trans
  apply Iff.intro
  · intro parts
    obtain ⟨t₁, t₂, r, rfl, run₁, run₂⟩ := parts
    cases r with
    | ok a =>
      obtain ⟨rfl, rfl⟩ := run_ret.mp run₂
      exact .inl ⟨a, rfl, by rwa [List.append_nil]⟩
    | err e =>
      obtain ⟨rfl, rfl⟩ := run_ret.mp run₂
      exact .inr (.inl ⟨e, rfl, by rwa [List.append_nil]⟩)
    | panic =>
      obtain ⟨rfl, rfl⟩ := run_ret.mp run₂
      exact .inr (.inr ⟨rfl, by rwa [List.append_nil]⟩)
  · intro parts
    obtain ⟨a, rfl, run⟩ | ⟨e, rfl, run⟩ | ⟨rfl, run⟩ := parts
    all_goals exact ⟨t, [], _, (List.append_nil t).symm, run, .ret⟩

end Io

/-- The run of `p` after history `h` in the world whose answer to an access is given by `dev` from
    the history so far: the events it adds, and the result. -/
def Prog.runWith (dev : List (Event E R) → (e : E) → R e) :
    Prog E R α → List (Event E R) → List (Event E R) × α
  | .ret a, _ => ([], a)
  | .act e k, h =>
    let r := dev h e
    let (t, a) := (k r).runWith dev (h ++ [⟨e, r⟩])
    (⟨e, r⟩ :: t, a)

/-- The run against a device that is a function of the history. -/
lemma run_runWith (dev : List (Event E R) → (e : E) → R e) (p : Prog E R α) (h) :
    Run p (p.runWith dev h).1 (p.runWith dev h).2 := by
  induction p generalizing h with
  | ret a => exact .ret
  | act e k ih => exact .act (ih _ _)

end Warpshell.Interaction
