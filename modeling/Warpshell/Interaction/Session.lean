import Warpshell.Interaction.Wp

/-!
# Sessions

A client makes calls, one after the other and in any order, while its environment takes steps
anywhere between the accesses. Each call `c` is a program that returns a `Res c`; the world may tell
apart which call an access comes from. A session remembers what the calls returned, with the states
they started and finished in.

`Verified` asks for one triple for each call, from an invariant to the invariant, and
`reachable_sound` gives from it what holds in every state of every run.
-/

namespace Warpshell.Interaction

variable {E : Type} {R : E → Type} {σ C : Type} {Res : C → Type}

/-- The calls a client can make, and the world it makes them in. -/
structure Service (E : Type) (R : E → Type) (σ C : Type) (Res : C → Type) where
  /-- The program of each call. -/
  prog : ∀ c, Prog E R (Res c)
  /-- One step of the environment. -/
  env : σ → σ → Prop
  /-- How an access of a given call is answered. -/
  answers : C → σ → (e : E) → R e → σ → Prop

/-- The world as one call sees it. -/
def Service.world (T : Service E R σ C Res) (c : C) : World E R σ where
  env := T.env
  answers := T.answers c

/-- A call in progress: the state it started in, and what is left of its program. -/
structure Running (E : Type) (R : E → Type) (σ C : Type) (Res : C → Type) where
  call : C
  start : σ
  prog : Prog E R (Res call)

structure Returned (σ C : Type) (Res : C → Type) where
  call : C
  start : σ
  result : Res call
  finish : σ

/-- The state of a session. -/
structure Session (E : Type) (R : E → Type) (σ C : Type) (Res : C → Type) where
  world : σ
  current : Option (Running E R σ C Res)
  returned : List (Returned σ C Res)

def Session.start (s : σ) : Session E R σ C Res := ⟨s, none, []⟩

namespace Service
variable {T : Service E R σ C Res}

/-- One step of a session. -/
inductive Step (T : Service E R σ C Res) : Session E R σ C Res → Session E R σ C Res → Prop where
  | env {s s' cur rets} : T.env s s' → Step T ⟨s, cur, rets⟩ ⟨s', cur, rets⟩
  | call {s rets} (c : C) : Step T ⟨s, none, rets⟩ ⟨s, some ⟨c, s, T.prog c⟩, rets⟩
  | access {s s' rets c s₀ e r k} : T.answers c s e r s' →
    Step T ⟨s, some ⟨c, s₀, .act e k⟩, rets⟩ ⟨s', some ⟨c, s₀, k r⟩, rets⟩
  | ret {s rets c s₀ a} :
    Step T ⟨s, some ⟨c, s₀, .ret a⟩, rets⟩ ⟨s, none, rets ++ [⟨c, s₀, a, s⟩]⟩

/-- Every call keeps the invariant, issues accesses its guard allows, and returns as promised. -/
structure Verified (T : Service E R σ C Res) (Inv : σ → Prop) (G : C → σ → E → Prop)
    (Post : ∀ c, σ → Res c → σ → Prop) : Prop where
  stable : ∀ s s', Inv s → T.env s s' → Inv s'
  call : ∀ c s, Inv s →
    (T.world c).wp (G c) (T.prog c) (fun a s' => Inv s' ∧ Post c s a s') s

/-- What holds in every state of a verified session. -/
structure Sound (T : Service E R σ C Res) (Inv : σ → Prop) (G : C → σ → E → Prop)
    (Post : ∀ c, σ → Res c → σ → Prop) (S : Session E R σ C Res) : Prop where
  idle : S.current = none → Inv S.world
  running : ∀ r, S.current = some r → (T.world r.call).wp (G r.call) r.prog
    (fun a s' => Inv s' ∧ Post r.call r.start a s') S.world
  returned : ∀ d ∈ S.returned, Post d.call d.start d.result d.finish

variable {Inv : σ → Prop} {G : C → σ → E → Prop} {Post : ∀ c, σ → Res c → σ → Prop}
  {S S' : Session E R σ C Res}

/-- Every step of a session keeps it sound. -/
lemma Verified.step (v : T.Verified Inv G Post) (sound : T.Sound Inv G Post S) (st : T.Step S S') :
    T.Sound Inv G Post S' := by
  obtain ⟨idle, running, returned⟩ := sound
  cases st with
  | env e =>
    refine ⟨fun h => v.stable _ _ (idle h) e, fun r h => ?_, returned⟩
    exact World.wp_env (running r h) (.single e)
  | call c =>
    refine ⟨nofun, fun r h => ?_, returned⟩
    cases h
    exact v.call c _ (idle rfl)
  | @access s s' rets c s₀ e r k an =>
    refine ⟨nofun, fun r h => ?_, returned⟩
    cases h
    have w := running ⟨c, s₀, .act e k⟩ rfl
    exact World.wp_step w (World.Step.act (W := T.world c) an)
  | @ret s rets c s₀ a =>
    obtain ⟨inv, post⟩ := running ⟨c, s₀, .ret a⟩ rfl s .refl
    refine ⟨fun _ => inv, nofun, fun d hd => ?_⟩
    rcases List.mem_append.mp hd with hd | hd
    · exact returned d hd
    · obtain rfl := List.mem_singleton.mp hd
      exact post

/-- Every reachable state of a verified session is sound. -/
theorem Verified.reachable_sound (v : T.Verified Inv G Post) {s} (inv : Inv s)
    (reach : Relation.ReflTransGen T.Step (Session.start s) S) : T.Sound Inv G Post S := by
  induction reach with
  | refl => exact ⟨fun _ => inv, nofun, nofun⟩
  | tail _ st ih => exact v.step ih st

/-- In a sound state, an access about to be issued is one the guard of its call allows. -/
lemma Sound.guard (sound : T.Sound Inv G Post S) {c s₀ e k}
    (cur : S.current = some ⟨c, s₀, .act e k⟩) : G c S.world e :=
  World.wp_safe (sound.running _ cur)

/-! ## Runs without interruption -/

/-- What a program has returned. -/
def result {α : Type} : Prog E R α → Option α
  | .ret a => some a
  | .act _ _ => none

def issues {α : Type} : Prog E R α → Option E
  | .ret _ => none
  | .act e _ => some e

/-- A program with a result has returned it. -/
lemma result_eq {α : Type} {p : Prog E R α} {a : α} (h : result p = some a) : p = .ret a := by
  cases p with
  | ret b => injection h with h; rw [h]
  | act e k => cases h

/-- A program that issues an access is at this access. -/
lemma issues_eq {α : Type} {p : Prog E R α} {e : E} (h : issues p = some e) :
    ∃ k, p = .act e k := by
  cases p with
  | ret b => cases h
  | act e' k => injection h with h; subst h; exact ⟨k, rfl⟩

/-- The first `n` accesses of a program, answered by `respond`. -/
def advance (respond : σ → (e : E) → R e × σ) {α : Type} :
    Nat → Prog E R α → σ → Prog E R α × σ
  | n + 1, .act e k, s => advance respond n (k (respond s e).1) (respond s e).2
  | _, p, s => (p, s)

/-- One access leads where its answer leads. -/
lemma advance_one {α : Type} {respond : σ → (e : E) → R e × σ} {p : Prog E R α} {e : E} (s : σ)
    (h : issues p = some e) : (advance respond 1 p s).2 = (respond s e).2 := by
  obtain ⟨k, rfl⟩ := issues_eq h
  rfl

variable {c : C} {respond : σ → (e : E) → R e × σ} (rets : List (Returned σ C Res))

/-- A call in progress may go on by itself, in steps of any kind that its accesses are. -/
lemma reach_advance {Rel : Session E R σ C Res → Session E R σ C Res → Prop} {s₀ : σ}
    (access : ∀ s e k, Rel ⟨s, some ⟨c, s₀, .act e k⟩, rets⟩
      ⟨(respond s e).2, some ⟨c, s₀, k (respond s e).1⟩, rets⟩)
    (n : Nat) (p : Prog E R (Res c)) (s : σ) :
    Relation.ReflTransGen Rel ⟨s, some ⟨c, s₀, p⟩, rets⟩
      ⟨(advance respond n p s).2, some ⟨c, s₀, (advance respond n p s).1⟩, rets⟩ := by
  induction n generalizing p s with
  | zero => cases p <;> exact .refl
  | succ n ih =>
    cases p with
    | ret a => exact .refl
    | act e k => exact .head (access s e k) (ih _ _)

/-- A session moves with its environment. -/
lemma step_env {s s' : σ} (cur) (e : Relation.ReflTransGen T.env s s') :
    Relation.ReflTransGen T.Step ⟨s, cur, rets⟩ ⟨s', cur, rets⟩ :=
  Relation.ReflTransGen.lift (p := T.Step) (fun s => ⟨s, cur, rets⟩) (fun _ _ e => .env e) _ _ e

/-- A call is begun, and its first accesses are answered. -/
lemma step_begin (answers : ∀ s e, T.answers c s e (respond s e).1 (respond s e).2) (n : Nat) (s : σ) :
    Relation.ReflTransGen T.Step ⟨s, none, rets⟩
      ⟨(advance respond n (T.prog c) s).2, some ⟨c, s, (advance respond n (T.prog c) s).1⟩, rets⟩ :=
  .head (.call c) (reach_advance rets (fun s e _ => .access (answers s e)) n _ s)

/-- A call in progress may go on until it returns. -/
lemma step_finish (answers : ∀ s e, T.answers c s e (respond s e).1 (respond s e).2) (n : Nat)
    (p : Prog E R (Res c)) (s₀ s : σ) {a : Res c} (returns : result (advance respond n p s).1 = some a) :
    Relation.ReflTransGen T.Step ⟨s, some ⟨c, s₀, p⟩, rets⟩
      ⟨(advance respond n p s).2, none, rets ++ [⟨c, s₀, a, (advance respond n p s).2⟩]⟩ := by
  have steps : Relation.ReflTransGen T.Step ⟨s, some ⟨c, s₀, p⟩, rets⟩
      ⟨(advance respond n p s).2, some ⟨c, s₀, (advance respond n p s).1⟩, rets⟩ :=
    reach_advance rets (fun s e _ => .access (answers s e)) n p s
  rw [result_eq returns] at steps
  exact .tail steps .ret

/-- A call from its beginning to its end. -/
lemma step_whole (answers : ∀ s e, T.answers c s e (respond s e).1 (respond s e).2) (n : Nat) (s : σ)
    {a : Res c} (returns : result (advance respond n (T.prog c) s).1 = some a) :
    Relation.ReflTransGen T.Step ⟨s, none, rets⟩
      ⟨(advance respond n (T.prog c) s).2, none,
        rets ++ [⟨c, s, a, (advance respond n (T.prog c) s).2⟩]⟩ :=
  .head (.call c) (step_finish rets answers n _ s s returns)

end Service

end Warpshell.Interaction
