import Mathlib.Data.List.Induction
import Mathlib.Logic.Function.Basic
import Warpshell.Interaction.Wp

/-!
# Programs side by side

Any number of clients, each with a program of its own, over one state. A step moves the environment,
or answers the next access of one of the clients; nothing says whose turn it is.

The rule for clients of which nothing is assumed is `log_reachable`: the reachable logs are exactly those
in which every client finds a partial run of its own program (`Leads`), so what is known of a single run
carries over.
-/

namespace Warpshell.Interaction

variable {E : Type} {R : E → Type} {σ τ α : Type}

/-! ## Partial runs -/

/-- `Leads p t q`: answered as in `t`, the program `p` issues the accesses of `t`, and then `q` is what
    is left of it. -/
inductive Leads : Prog E R α → List (Event E R) → Prog E R α → Prop where
  | refl {p} : Leads p [] p
  | act {e k r t q} : Leads (k r) t q → Leads (.act e k) (⟨e, r⟩ :: t) q

section
variable {p q : Prog E R α} {t h : List (Event E R)} {a : α} {e : E} {k : R e → Prog E R α} {r : R e}
  {G : List (Event E R) → E → Prop} {Q : α → List (Event E R) → Prop}

/-- No events lead to the program itself. -/
lemma leads_nil : Leads p [] q ↔ q = p := by
  apply Iff.intro
  · intro leads
    cases leads
    rfl
  · rintro rfl
    exact .refl

/-- A run is a partial run with nothing left. -/
lemma leads_ret : Leads p t (.ret a) ↔ Run p t a := by
  apply Iff.intro
  · intro leads
    generalize eq : Prog.ret a = q at leads
    induction leads with
    | refl => exact eq ▸ .ret
    | act _ ih => exact .act (ih eq)
  · intro run
    induction run with
    | ret => exact .refl
    | act _ ih => exact .act ih

/-- A partial run goes on with any answer to the next access. -/
lemma Leads.concat (l : Leads p t (.act e k)) (r : R e) : Leads p (t ++ [⟨e, r⟩]) (k r) := by
  generalize eq : Prog.act e k = q at l
  induction l with
  | refl =>
    subst eq
    exact .act .refl
  | act _ ih => exact .act (ih eq)

/-- The last access of a partial run. -/
lemma Leads.last {x : Event E R} (l : Leads p (t ++ [x]) q) :
    ∃ k, Leads p t (.act x.1 k) ∧ q = k x.2 := by
  induction t generalizing p with
  | nil =>
    cases l with
    | @act e k r _ _ l => exact ⟨k, .refl, leads_nil.mp l⟩
  | cons y t ih =>
    cases l with
    | @act e k r _ _ l =>
      obtain ⟨k', leads, eq⟩ := ih l
      exact ⟨k', .act leads, eq⟩

/-- The weakest precondition over histories holds of what is left. -/
lemma wp_leads (w : (history E R).wp G p Q h) (l : Leads p t q) :
    (history E R).wp G q Q (h ++ t) := by
  induction l generalizing h with
  | refl => rwa [List.append_nil]
  | @act e k r t q _ ih =>
    have next := ih ((w h .refl).2 r _ rfl)
    rwa [List.append_assoc] at next

/-- What holds whenever an access is issued, and at the end, holds all the way. -/
lemma Leads.invariant {Inv : List (Event E R) → Prop}
    (w : (history E R).wp (fun h _ => Inv h) p (fun a h => Inv h ∧ Q a h) h) (l : Leads p t q) :
    Inv (h ++ t) ∧ ∀ a, q = .ret a → Q a (h ++ t) := by
  have left := wp_leads w l
  cases q with
  | ret a =>
    obtain ⟨inv, post⟩ := history_ret.mp left
    refine ⟨inv, fun b eq => ?_⟩
    cases eq
    exact post
  | act e k => exact ⟨World.wp_safe left, nofun⟩

end

/-! ## Clients of a service -/

section
variable {β C : Type} {Res : C → Type} {p q : Prog E R α} {t t' : List (Event E R)} {a : α}
  {A : Event E R → Prop} {P : E → Prop}

/-- A client of a service, which is a program over its calls, with each call replaced by the program
    that carries it out. -/
def Prog.expand (call : ∀ c, Prog E R (Res c)) : Prog C Res α → Prog E R α
  | .ret a => .ret a
  | .act c k => (call c).bind fun r => (k r).expand call

/-- A client that has no accesses of its own. -/
def Uses (call : ∀ c, Prog E R (Res c)) (p : Prog E R α) : Prop :=
  ∃ client : Prog C Res α, p = client.expand call

/-- The accesses of `p` satisfy `P`, as long as the answers satisfy `A`. -/
def Only (A : Event E R → Prop) (P : E → Prop) (p : Prog E R α) : Prop :=
  ∀ t q, Leads p t q → (∀ x ∈ t, A x) → ∀ x ∈ t, P x.1

/-- A partial run of a composition is one of its first half, or a run of it and one of what follows. -/
lemma leads_bind {f : α → Prog E R β} {q : Prog E R β} (l : Leads (p.bind f) t q) :
    (∃ p', Leads p t p' ∧ q = p'.bind f) ∨
      ∃ t₁ t₂ a, t = t₁ ++ t₂ ∧ Run p t₁ a ∧ Leads (f a) t₂ q := by
  induction p generalizing t with
  | ret a => exact .inr ⟨[], t, a, rfl, .ret, l⟩
  | act e k ih =>
    cases l with
    | refl => exact .inl ⟨_, .refl, rfl⟩
    | act l =>
      obtain ⟨p', leads, eq⟩ | ⟨t₁, t₂, a, rfl, run, leads⟩ := ih _ l
      · exact .inl ⟨p', .act leads, eq⟩
      · exact .inr ⟨_ :: t₁, t₂, a, rfl, .act run, leads⟩

/-- A partial run and a run of what is left of the program are a run. -/
lemma Leads.run (l : Leads p t q) (run : Run q t' a) : Run p (t ++ t') a := by
  induction l with
  | refl => exact run
  | act _ ih => exact .act (ih run)

/-- Where every access has an answer that satisfies `A`, a program can be run to its end. -/
lemma exists_run (answer : ∀ e, ∃ r, A ⟨e, r⟩) (p : Prog E R α) :
    ∃ t a, Run p t a ∧ ∀ x ∈ t, A x := by
  induction p with
  | ret a => exact ⟨[], a, .ret, fun x mem => absurd mem List.not_mem_nil⟩
  | act e k ih =>
    obtain ⟨r, fine⟩ := answer e
    obtain ⟨t, a, run, all⟩ := ih r
    exact ⟨_, a, .act run, List.forall_mem_cons.mpr ⟨fine, all⟩⟩

/-- A program that only returns issues nothing. -/
lemma only_ret : Only A P (.ret a : Prog E R α) := by
  intro t q leads _ x mem
  cases leads
  cases mem

/-- A single access of the kind. -/
lemma only_access {e : E} (holds : P e) : Only A P (.access e : Prog E R (R e)) := by
  intro t q leads _ x mem
  cases leads with
  | refl => cases mem
  | act leads =>
    cases leads
    rw [List.mem_singleton.mp mem]
    exact holds

/-- What is known of a program is known of what follows an access of it. -/
lemma Only.act {e : E} {k : R e → Prog E R α} {r : R e} (only : Only A P (.act e k)) (fine : A ⟨e, r⟩) :
    P e ∧ Only A P (k r) := by
  apply And.intro
  · exact only [⟨e, r⟩] (k r) (.act .refl) (fun x mem => List.mem_singleton.mp mem ▸ fine) _
      List.mem_cons_self
  · intro t q leads answers x mem
    exact only (⟨e, r⟩ :: t) q (.act leads) (List.forall_mem_cons.mpr ⟨fine, answers⟩) x
      (List.mem_cons_of_mem _ mem)

/-- Both halves of a composition. -/
lemma Only.bind {f : α → Prog E R β} (first : Only A P p) (rest : ∀ a, Only A P (f a)) :
    Only A P (p.bind f) := by
  intro t q leads answers
  obtain ⟨p', leads, _⟩ | ⟨t₁, t₂, a, rfl, run, leads⟩ := leads_bind leads
  · exact first t p' leads answers
  · intro x mem
    rcases List.mem_append.mp mem with mem' | mem'
    · exact first t₁ _ (leads_ret.mpr run) (fun y m => answers y (List.mem_append_left _ m)) x mem'
    · exact rest a t₂ q leads (fun y m => answers y (List.mem_append_right _ m)) x mem'

/-- What holds of the accesses of every run holds of the accesses of every partial run. -/
lemma only_of_runs (answer : ∀ e, ∃ r, A ⟨e, r⟩)
    (runs : ∀ t a, Run p t a → (∀ x ∈ t, A x) → ∀ x ∈ t, P x.1) : Only A P p := by
  intro t q leads answers x mem
  obtain ⟨t', a, run, all⟩ := exists_run answer q
  refine runs (t ++ t') a (leads.run run) (fun y m => ?_) x (List.mem_append_left _ mem)
  rcases List.mem_append.mp m with m | m
  · exact answers y m
  · exact all y m

/-- A client issues what the calls issue that it is made of. -/
lemma only_expand {call : ∀ c, Prog E R (Res c)} (calls : ∀ c, Only A P (call c))
    (client : Prog C Res α) : Only A P (client.expand call) := by
  induction client with
  | ret a => exact only_ret
  | act c k ih => exact (calls c).bind ih

/-- A client stays within what the calls of its service stay within. -/
lemma Uses.only {call : ∀ c, Prog E R (Res c)} (calls : ∀ c, Only A P (call c))
    (uses : Uses call p) : Only A P p := by
  obtain ⟨client, rfl⟩ := uses
  exact only_expand calls client

end

namespace Io
variable {ε ε' β : Type} {A : Event E R → Prop} {P : E → Prop}

/-- Both halves of a composition of fallible programs. -/
lemma only_seq {x : Io E R ε α} {f : α → Io E R ε β} (first : Only A P x)
    (rest : ∀ a, Only A P (f a)) : Only A P (x >>= f : Io E R ε β) := by
  refine Only.bind first fun o => ?_
  cases o with
  | ok a => exact rest a
  | err e => exact only_ret
  | panic => exact only_ret

/-- A conversion of errors issues nothing. -/
lemma only_mapErr {x : Io E R ε α} {f : ε → ε'} (only : Only A P x) : Only A P (x.mapErr f) :=
  Only.bind only fun _ => only_ret

end Io

/-- A search issues what its rounds issue. -/
lemma only_position {A : Event E R → Prop} {P : E → Prop} {p : Prog E R α} {q : α → Bool} {n i : Nat}
    (only : Only A P p) : Only A P (p.position q n i) := by
  induction n generalizing i with
  | zero => exact only_ret
  | succ n ih =>
    refine Only.bind only fun a => ?_
    split
    · exact only_ret
    · exact ih

/-! ## Pools -/

/-- A state that clients share: how it moves by itself, and how it answers the access of a client. -/
structure Shared (E : Type) (R : E → Type) (σ τ : Type) where
  env : σ → σ → Prop
  answers : τ → σ → (e : E) → R e → σ → Prop

/-- The shared state, and what is left of the programs of the clients. -/
structure Pool (E : Type) (R : E → Type) (σ τ α : Type) where
  state : σ
  prog : τ → Prog E R α

namespace Shared

variable [DecidableEq τ]

/-- One step, of the environment or of a client. -/
inductive Step (S : Shared E R σ τ) : Pool E R σ τ α → Pool E R σ τ α → Prop where
  | env {s s' ps} : S.env s s' → Step S ⟨s, ps⟩ ⟨s', ps⟩
  | access {s s' ps i e k r} : ps i = .act e k → S.answers i s e r s' →
    Step S ⟨s, ps⟩ ⟨s', Function.update ps i (k r)⟩

abbrev Reachable (S : Shared E R σ τ) : Pool E R σ τ α → Pool E R σ τ α → Prop :=
  Relation.ReflTransGen S.Step

end Shared

/-! ## Logs -/

/-- A state that gives any answer, and remembers who got which. -/
def Shared.log (E : Type) (R : E → Type) (τ : Type) : Shared E R (List (τ × Event E R)) τ where
  env _ _ := False
  answers i h e r h' := h' = h ++ [(i, ⟨e, r⟩)]

section
variable [DecidableEq τ] {h h' : List (τ × Event E R)} {i j : τ} {x : Event E R}
  {ps : τ → Prog E R α} {P : Pool E R (List (τ × Event E R)) τ α}

/-- The events of one client. -/
def own (i : τ) (h : List (τ × Event E R)) : List (Event E R) :=
  (h.filter fun x => x.1 = i).map Prod.snd

/-- The events of a client in two parts of a log. -/
lemma own_append : own i (h ++ h') = own i h ++ own i h' := by
  rw [own, List.filter_append, List.map_append, own, own]

/-- The log grows by an event of the client. -/
lemma own_concat_self : own i (h ++ [(i, x)]) = own i h ++ [x] := by
  rw [own_append]
  simp [own]

/-- The log grows by an event of another client. -/
lemma own_concat_other (other : j ≠ i) : own i (h ++ [(j, x)]) = own i h := by
  rw [own_append]
  simp [own, other]

/-- The events of a client are those that the log has under its name. -/
lemma mem_own : x ∈ own i h ↔ (i, x) ∈ h := by
  simp [own]

/-- The reachable logs are the interleavings of partial runs, one of each program. -/
theorem log_reachable : (Shared.log E R τ).Reachable ⟨[], ps⟩ P ↔
    ∀ i, Leads (ps i) (own i P.state) (P.prog i) := by
  apply Iff.intro
  · intro reach
    induction reach with
    | refl => exact fun i => .refl
    | @tail P P' _ step ih =>
      intro i
      cases step with
      | env e => exact e.elim
      | @access s s' ps' j e k r eq an =>
        have an : s' = s ++ [(j, ⟨e, r⟩)] := an
        subst an
        show Leads (ps i) (own i (s ++ [(j, ⟨e, r⟩)])) (Function.update ps' j (k r) i)
        by_cases same : i = j
        · subst same
          rw [own_concat_self, Function.update_self]
          have before : Leads (ps i) (own i s) (ps' i) := ih i
          rw [eq] at before
          exact before.concat r
        · rw [own_concat_other fun eq => same eq.symm, Function.update_of_ne same]
          exact ih i
  · intro leads
    obtain ⟨h, qs⟩ := P
    -- Take the last event off the log, and give its client the access back.
    induction h using List.reverseRecOn generalizing qs with
    | nil =>
      have same : qs = ps := funext fun i => leads_nil.mp (leads i)
      rw [same]
    | append_singleton h x ih =>
      obtain ⟨j, x⟩ := x
      have last : Leads (ps j) (own j h ++ [x]) (qs j) := own_concat_self (i := j) ▸ leads j
      obtain ⟨k, before, eq⟩ := last.last
      have reach := ih (Function.update qs j (.act x.1 k)) fun i => by
        by_cases same : i = j
        · subst same
          show Leads (ps i) (own i h) (Function.update qs i (.act x.1 k) i)
          rwa [Function.update_self]
        · show Leads (ps i) (own i h) (Function.update qs j (.act x.1 k) i)
          rw [Function.update_of_ne same]
          have after := leads i
          rwa [own_concat_other fun eq => same eq.symm] at after
      have step : (Shared.log E R τ).Step (α := α) ⟨h, Function.update qs j (.act x.1 k)⟩
          ⟨h ++ [(j, ⟨x.1, x.2⟩)], Function.update (Function.update qs j (.act x.1 k)) j (k x.2)⟩ :=
        .access (Function.update_self ..) rfl
      rw [Function.update_idem, ← eq, Function.update_eq_self] at step
      exact .tail reach step

/-- A state that the others' events leave alone depends on the client's own events only. -/
lemma foldl_own {f : σ → Event E R → σ} (quiet : ∀ x ∈ h, x.1 ≠ i → ∀ s, f s x.2 = s) (s : σ) :
    h.foldl (fun s x => f s x.2) s = (own i h).foldl f s := by
  induction h using List.reverseRecOn with
  | nil => rfl
  | append_singleton h x ih =>
    obtain ⟨j, x⟩ := x
    have before := ih fun y mem => quiet y (List.mem_append_left _ mem)
    rw [List.foldl_append, before]
    by_cases same : j = i
    · subst same
      rw [own_concat_self, List.foldl_append]
      rfl
    · rw [own_concat_other same]
      exact quiet (j, x) List.mem_concat_self same _

end

end Warpshell.Interaction
