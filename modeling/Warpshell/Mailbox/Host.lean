import Warpshell.Mailbox.Exchange

/-!
# Clients that share a card

Any number of clients, each with its own copy of the driver: it runs `init` and, when that succeeds,
`get_card_info`, as an invocation of the command line tool does. The accesses of the clients and the
steps of the firmware interleave in any order; nothing in the driver keeps two clients apart.

`Owned` is what each client would want of its exchange, over the runs whose steps meet a condition. The
conditions are `Exclusive`, that no two exchanges are under way at once, and `Fresh`, that no `init`
writes Control back with another status bit than it has.
-/

namespace Warpshell.Cms
open Interaction

variable {τ : Type}

/-- How far a client has come. -/
inductive Client (τ : Type) where
  | initialising (p : Prog Access Access.Answer (Outcome Error Unit))
  | stopped (o : Outcome Error Unit)
  | exchanging (start : Card τ) (p : Prog Access Access.Answer (Outcome Error CardInfo))
  | finished (start : Card τ) (r : Outcome Error CardInfo)

/-- One step of a client, and what it does to the card. -/
inductive Client.Step (m : Map) (i : τ) : Client τ → Card τ → Client τ → Card τ → Prop where
  | init {e k r s s'} : Card.Answers m i s e r s' →
    Step m i (.initialising (.act e k)) s (.initialising (k r)) s'
  | stop {o s} : o ≠ .ok () → Step m i (.initialising (.ret o)) s (.stopped o) s
  | start {s} : Step m i (.initialising (.ret (.ok ()))) s (.exchanging s (getCardInfo m.core)) s
  | exchange {s₀ e k r s s'} : Card.Answers m i s e r s' →
    Step m i (.exchanging s₀ (.act e k)) s (.exchanging s₀ (k r)) s'
  | finish {s₀ r s} : Step m i (.exchanging s₀ (.ret r)) s (.finished s₀ r) s

/-- The client has found the mailbox free, and `get_card_info` has not returned yet. -/
def Client.Underway [DecidableEq τ] (m : Map) (i : τ) (c : Client τ) (s : Card τ) : Prop :=
  ∃ s₀ p, c = .exchanging s₀ p ∧ Engaged m i s₀.log s.log

/-- `init` is about to write Control back with another status bit than it has. -/
def Client.Stale (m : Map) (c : Client τ) (s : Card τ) : Prop :=
  ∃ v k, c = .initialising (.act (.ctrlWriteU32 (m.reg .control) v) k) ∧ ¬ (Busy v ↔ s.busy)

/-- The card and its clients. -/
structure Host (τ : Type) where
  card : Card τ
  client : τ → Client τ

namespace Host

def start (m : Map) (s : Card τ) : Host τ := ⟨s, fun _ => .initialising (init m.core)⟩

variable [DecidableEq τ]

/-- One step, of the firmware or of a client. -/
inductive Step (m : Map) : Option τ → Host τ → Host τ → Prop where
  | firmware {s s' cs} : Card.Firmware s s' → Step m none ⟨s, cs⟩ ⟨s', cs⟩
  | client {s s' cs i c} : Client.Step m i (cs i) s c s' →
    Step m (some i) ⟨s, cs⟩ ⟨s', Function.update cs i c⟩

def Underway (m : Map) (i : τ) (S : Host τ) : Prop := (S.client i).Underway m i S.card

/-- At most one exchange is under way. -/
def Exclusive (m : Map) (S : Host τ) : Prop := ∀ i j, S.Underway m i → S.Underway m j → i = j

/-- The client that moves does not write back an old status bit. -/
def Fresh (m : Map) (who : Option τ) (S : Host τ) : Prop :=
  ∀ i, who = some i → ¬ (S.client i).Stale m S.card

def Run (m : Map) (cond : Option τ → Host τ → Host τ → Prop) : Host τ → Host τ → Prop :=
  Relation.ReflTransGen fun S S' => ∃ who, Step m who S S' ∧ cond who S S'

/-- In the runs that meet a condition: while an exchange is under way, no other client writes into the
    mailbox or clears the status bit, and each card info is the payload of a response to the request
    of its client. -/
def Owned (m : Map) (s : Card τ) (cond : Option τ → Host τ → Host τ → Prop) : Prop :=
  ∀ S, Run m cond (start m s) S →
    (∀ i j S', S.Underway m i → j ≠ i → Step m (some j) S S' → cond (some j) S S' →
      S'.card.mailbox = S.card.mailbox ∧ (S.card.busy → S'.card.busy)) ∧
    ∀ i s₀ r, S.client i = .finished s₀ r → ∃ es, S.card.log = s₀.log ++ es ∧ Report m i r es

variable {m : Map} {who : Option τ} {S S' : Host τ}

/-- What holds of each client with the card: it has to survive the client's own steps, and what the
    others do to the card. -/
lemma Step.each {P : τ → Client τ → Card τ → Prop} (step : Step m who S S')
    (all : ∀ i, P i (S.client i) S.card)
    (own : ∀ i c s, who = some i → Client.Step m i (S.client i) S.card c s → P i c s)
    (others : ∀ i, who ≠ some i → P i (S.client i) S.card → P i (S.client i) S'.card) :
    ∀ i, P i (S'.client i) S'.card := by
  intro i
  cases step with
  | firmware fw => exact others i nofun (all i)
  | @client s s' cs j c step =>
    by_cases eq : i = j
    · subst eq
      show P i (Function.update cs i c i) s'
      rw [Function.update_self]
      exact own i c s' rfl step
    · show P i (Function.update cs j c i) s'
      rw [Function.update_of_ne eq]
      exact others i (fun same => eq (Option.some.inj same).symm) (all i)

/-- What holds of more runs holds of fewer. -/
lemma Owned.mono {s : Card τ} {cond cond' : Option τ → Host τ → Host τ → Prop}
    (owned : Owned m s cond) (imp : ∀ who S S', cond' who S S' → cond who S S') :
    Owned m s cond' := by
  intro S run
  have run' : Run m cond (start m s) S := by
    refine Relation.ReflTransGen.mono ?_ _ _ run
    intro S S' ⟨who, step, h⟩
    exact ⟨who, step, imp _ _ _ h⟩
  obtain ⟨undisturbed, reports⟩ := owned S run'
  exact ⟨fun i j S' under ne step h => undisturbed i j S' under ne step (imp _ _ _ h), reports⟩

end Host

end Warpshell.Cms
