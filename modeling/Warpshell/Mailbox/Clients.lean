import Warpshell.Mailbox.Schedule
import Warpshell.Mailbox.Monitor

/-!
# Who owns the mailbox

Without anything that keeps them apart, two clients disturb each other, and a client may take a request
header for a response (`clients_disturb`). Where exchanges do not overlap and no `init` writes back an
old status bit, each exchange is its client's alone (`clients_own`); and whatever the interleaving, the
HBM temperature monitor stays enabled once a client has passed `init`.
-/

namespace Warpshell.Cms
open Interaction

variable {τ : Type} {m : Map} {i : τ} {s s' : Card τ}

/-! ## What one access does -/

/-- The accesses of `init` that write: Control, and registers that are not modelled. -/
def InitAccess (m : Map) (_ : Card τ) (e : Access) : Prop :=
  ∀ addr v, e = .ctrlWriteU32 addr v → addr = m.reg .control ∨ m.locate addr = .other

/-- `init` writes nothing into the mailbox, whatever the others do. -/
lemma wp_initAccess : (Card.world m i fun _ _ => True).wp (InitAccess m) (init m.core)
    (fun _ _ => True) s := by
  have stable : (Card.world m i fun _ _ => True).Stable fun _ => True := fun _ _ _ _ => trivial
  apply card_init trivial stable (fun _ => stable)
  · exact fun _ _ _ => trivial
  · exact fun _ _ _ => nofun
  · intro s _ addr v eq
    injection eq with eq
    exact .inr (eq ▸ m.locate_other (.inl rfl))
  · exact fun _ _ _ => trivial
  · intro s _
    apply card_setControlBit trivial stable (J := fun _ _ => True) (fun _ => stable) (fun _ => stable)
    · exact fun _ _ => ⟨nofun, fun _ => trivial, trivial⟩
    · refine fun s v _ => ⟨fun addr v eq => ?_, fun _ => trivial, fun _ => trivial⟩
      injection eq with eq
      exact .inl eq.symm

lemma Undisturbed.refl (s : Card τ) : Undisturbed s s := ⟨.rfl, rfl, rfl, rfl⟩

/-- What is undisturbed stays consistent. -/
lemma Undisturbed.consistent (u : Undisturbed s s') (c : s.Consistent) : s'.Consistent := by
  intro phase
  rw [u.phase] at phase
  exact u.busy.mpr (c phase)

/-- An access of `init` that is not stale disturbs no exchange. -/
lemma InitAccess.undisturbed {e : Access} {r : e.Answer} (g : InitAccess m s e)
    (fresh : ∀ v, e = .ctrlWriteU32 (m.reg .control) v → (Busy v ↔ s.busy))
    (an : Card.Answers m i s e r s') : Undisturbed s s' := by
  obtain rfl | ⟨addr, v, rfl⟩ | ⟨addr, v, rfl, rfl⟩ := an.effect
  · exact .refl _
  · exact ⟨.rfl, rfl, rfl, rfl⟩
  · obtain rfl | other := g addr v rfl
    · have same : (s.write m i (m.reg .control) v).busy ↔ s.busy := by
        rw [Card.busy, Card.write_control]
        exact fresh v rfl
      rw [Card.write_located m.locate_control] at same ⊢
      exact ⟨same, rfl, rfl, rfl⟩
    · rw [Card.write_located other]
      exact ⟨.rfl, rfl, rfl, rfl⟩

variable [DecidableEq τ] {log₀ : List (Entry τ)}

/-- An access of `get_card_info` disturbs nobody before its exchange has begun. -/
lemma Polite.undisturbed {e : Access} {r : e.Answer} (g : Polite m i log₀ s e)
    (an : Card.Answers m i s e r s') : Undisturbed s s' ∨ Engaged m i log₀ s.log := by
  obtain rfl | ⟨addr, v, rfl⟩ | ⟨addr, v, rfl, rfl⟩ := an.effect
  · exact .inl (.refl _)
  · exact .inl ⟨.rfl, rfl, rfl, rfl⟩
  · exact .inr (g.engaged addr v rfl)

/-- An access of `get_card_info` takes no request from the firmware. -/
lemma Polite.consistent {e : Access} {r : e.Answer} (g : Polite m i log₀ s e) (c : s.Consistent)
    (an : Card.Answers m i s e r s') : s'.Consistent := by
  obtain rfl | ⟨addr, v, rfl⟩ | ⟨addr, v, rfl, rfl⟩ := an.effect
  · exact c
  · exact c
  · intro phase
    rw [Card.write_phase] at phase
    by_cases eq : addr = m.reg .control
    · subst eq
      exact absurd (c phase) (g.control v rfl).1
    · rw [Card.busy, Card.write_elsewhere eq]
      exact c phase

/-- A client only logs entries of its own. -/
lemma foreign_entries {e : Access} {r : e.Answer} (an : Card.Answers m i s e r s') :
    ∃ es, s'.log = s.log ++ es ∧ ∀ j, j ≠ i → own j es = [] := by
  have single : ∀ e : Entry τ, e.party = some i → ∀ j, j ≠ i → own j [e] = [] := by
    intro e party j ne
    simp [own, party, ne.symm]
  obtain rfl | ⟨addr, v, rfl⟩ | ⟨addr, v, rfl, rfl⟩ := an.effect
  · exact ⟨[], (List.append_nil _).symm, fun _ _ => rfl⟩
  · exact ⟨_, rfl, single _ rfl⟩
  · exact ⟨_, Card.write_log, single _ rfl⟩

/-! ## What each client does -/

/-- What a client keeps to while the others leave its exchange alone. -/
def Client.Safe (m : Map) (i : τ) : Client τ → Card τ → Prop
  | .initialising p, s => (Card.world m i fun _ _ => True).wp (InitAccess m) p (fun _ _ => True) s
  | .stopped _, _ => True
  | .exchanging s₀ p, s => (callWorld m i s₀).wp (Polite m i s₀.log) p (Reported m i s₀) s
  | .finished s₀ r, s => ∃ es, s.log = s₀.log ++ es ∧ Report m i r es

/-- A step of a client that is not stale keeps its invariant and the exchanges of the others. -/
lemma Client.Safe.step {c c' : Client τ} (safe : c.Safe m i s) (consistent : s.Consistent)
    (fresh : ¬ c.Stale m s) (step : Client.Step m i c s c' s') :
    c'.Safe m i s' ∧ s'.Consistent ∧ (Undisturbed s s' ∨ c.Underway m i s) ∧
      ∃ es, s'.log = s.log ++ es ∧ ∀ j, j ≠ i → own j es = [] := by
  have still : ∃ es, s.log = s.log ++ es ∧ ∀ j, j ≠ i → own j es = [] :=
    ⟨[], (List.append_nil _).symm, fun _ _ => rfl⟩
  cases step with
  | @init e k r _ _ an =>
    have same : Undisturbed s s' := by
      refine InitAccess.undisturbed (World.wp_safe safe) (fun v eq => ?_) an
      by_contra stale
      subst eq
      exact fresh ⟨v, k, rfl, stale⟩
    exact ⟨World.wp_step safe (.act an), same.consistent consistent, .inl same, foreign_entries an⟩
  | stop => exact ⟨trivial, consistent, .inl (.refl s), still⟩
  | start => exact ⟨wp_getCardInfo consistent, consistent, .inl (.refl s), still⟩
  | @exchange s₀ e k r _ _ an =>
    have polite : Polite m i s₀.log s e := World.wp_safe safe
    refine ⟨World.wp_step safe (.act an), polite.consistent consistent an, ?_, foreign_entries an⟩
    exact (polite.undisturbed an).imp_right fun engaged => ⟨s₀, _, rfl, engaged⟩
  | finish =>
    have reported : Reported m i _ _ s := safe s .refl
    exact ⟨reported.report, consistent, .inl (.refl s), still⟩

/-- What others do keeps a client's invariant if its exchange may rely on it. -/
lemma Client.Safe.others {c : Client τ} (safe : c.Safe m i s)
    (rely : ∀ log₀, (∃ p, ∃ s₀ : Card τ, s₀.log = log₀ ∧ c = .exchanging s₀ p) → Rely m i log₀ s s')
    (foreign : ∃ es, s'.log = s.log ++ es ∧ own i es = []) : c.Safe m i s' := by
  cases c with
  | initialising p => exact World.wp_env safe (.single trivial)
  | stopped o => trivial
  | exchanging s₀ p => exact World.wp_env safe (.single (rely _ ⟨p, s₀, rfl, rfl⟩))
  | finished s₀ r =>
    obtain ⟨es, eq, report⟩ := safe
    obtain ⟨es', eq', quiet⟩ := foreign
    exact ⟨es ++ es', by rw [eq', eq, List.append_assoc], report.foreign quiet⟩

/-! ## Orderly runs -/

namespace Host
variable {S S' : Host τ} {who : Option τ}

/-- What holds in every state of an orderly run. -/
structure Orderly (m : Map) (S : Host τ) : Prop where
  consistent : S.card.Consistent
  safe : ∀ i, (S.client i).Safe m i S.card
  exclusive : S.Exclusive m

/-- A host starts in order. -/
lemma Orderly.start (c : s.Consistent) : (start m s).Orderly m := by
  refine ⟨c, fun i => wp_initAccess, fun i j hi _ => ?_⟩
  obtain ⟨s₀, p, eq, _⟩ := hi
  cases eq

/-- The step of a client leaves an exchange of another client alone. -/
lemma Orderly.undisturbed {i j : τ} (o : S.Orderly m) (fresh : S.Fresh m (some j))
    (step : Step m (some j) S S') (ne : i ≠ j) (under : S.Underway m i) :
    Undisturbed S.card S'.card := by
  cases step with
  | client step =>
    obtain ⟨_, _, calm, _⟩ := (o.safe j).step o.consistent (fresh j rfl) step
    exact calm.resolve_right fun own => ne (o.exclusive i j under own)

/-- A fresh and exclusive step keeps the order. -/
lemma Orderly.step (o : S.Orderly m) (step : Step m who S S') (fresh : S.Fresh m who)
    (exclusive : S'.Exclusive m) : S'.Orderly m := by
  cases step with
  | @firmware s s' cs fw =>
    refine ⟨fw.consistent, fun i => (o.safe i).others ?_ ?_, exclusive⟩
    · exact fun log₀ _ => .firmware fw
    · exact fw.foreign
  | @client s s' cs j c step =>
    have moved : Step m (some j) ⟨s, cs⟩ ⟨s', Function.update cs j c⟩ := .client step
    obtain ⟨_, consistent, _, es, log, quiet⟩ := (o.safe j).step o.consistent (fresh j rfl) step
    refine ⟨consistent, ?_, exclusive⟩
    apply moved.each (P := fun i c s => c.Safe m i s) o.safe
    · intro i c s eq step
      cases eq
      exact ((o.safe j).step o.consistent (fresh j rfl) step).1
    · intro i ne safe
      have other : i ≠ j := fun eq => ne (congrArg some eq.symm)
      refine safe.others (fun log₀ exchanging => ?_) ⟨es, log, quiet i other⟩
      obtain ⟨p, s₀, rfl, client⟩ := exchanging
      refine .others log (quiet i other) (fun _ => consistent) fun engaged => ?_
      exact o.undisturbed fresh moved other ⟨s₀, p, client, engaged⟩

/-- The conditions of an orderly step: one exchange at a time, and no old status bit written back. -/
def orderly (m : Map) (who : Option τ) (S S' : Host τ) : Prop := S.Fresh m who ∧ S'.Exclusive m

/-- A run of fresh and exclusive steps keeps the order. -/
lemma Orderly.run (c : s.Consistent) (run : Run m (orderly m) (Host.start m s) S) :
    S.Orderly m := by
  induction run with
  | refl => exact .start c
  | tail _ step ih =>
    obtain ⟨who, step, fresh, exclusive⟩ := step
    exact ih.step step fresh exclusive

end Host

/-- Clients that share a card. In the orderly runs, while an exchange is under way no other client writes
    into the mailbox or clears the status bit, and each card info is the payload of a response to the
    request of its client. In all runs, the HBM temperature monitor is enabled once a client has
    passed `init`. -/
theorem clients_own (m : Map) {s : Card τ} (consistent : s.Consistent) :
    Host.Owned m s (Host.orderly m) ∧
    ∀ S, Host.Run m (fun _ _ _ => True) (Host.start m s) S →
      ∀ i, (S.client i).Initialised → HbmEnabled S.card.control := by
  refine ⟨fun S run => ⟨fun i j S' under ne step orderly => ?_, fun i s₀ r finished => ?_⟩, ?_⟩
  · have calm := (Host.Orderly.run consistent run).undisturbed orderly.1 step ne.symm under
    exact ⟨calm.mailbox, calm.busy.mpr⟩
  · have safe := (Host.Orderly.run consistent run).safe i
    rw [finished] at safe
    exact safe
  · exact fun S run i past => (run_monitored run i).enabled past

/-! Schedules of two clients; each ends with the return of the first. -/

def steps (i : Bool) (n : Nat) : List (Move Bool) := List.replicate n (.client i)

/-- The firmware answers with a card info of one item. -/
def serving : List (Move Bool) :=
  [.post fun i => if i = 0 then 3 else 0x121, .setError 0, .clear]

def inTurn : List (Move Bool) :=
  steps false 11 ++ serving ++ steps false 5 ++ steps true 11 ++ serving ++ steps true 5

/-- The second client reads Control for `init` before the request of the first, and writes it back
    after it. -/
def staleInit : List (Move Bool) :=
  steps true 10 ++ steps false 4 ++ steps true 1 ++ steps false 1 ++ steps true 4

/-- Both clients find the mailbox free, and the header of the second overwrites the response to the
    first. -/
def overlapping : List (Move Bool) :=
  steps true 6 ++ steps false 6 ++ steps true 4 ++ steps false 2 ++ steps true 1 ++ serving ++
    steps false 1 ++ steps true 4

/-- The check for an orderly run of two clients. -/
def orderlyCheck (who : Option Bool) (S S' : Host Bool) : Bool :=
  S.fresh shellMap who && S'.exclusive

/-- What the check accepts is a fresh and exclusive step. -/
lemma orderlyCheck_decides (who : Option Bool) (S S' : Host Bool)
    (h : orderlyCheck who S S' = true) : Host.orderly shellMap who S S' := by
  rw [orderlyCheck, Bool.and_eq_true] at h
  exact ⟨Host.fresh_decides h.1, Host.exclusive_decides h.2⟩

/-- One client after the other, in an orderly run: each returns the card info of a response to its own
    request. -/
theorem clients_own_inTurn : ∃ S : Host Bool,
    Host.play shellMap orderlyCheck inTurn (Host.start shellMap idleCard) = some S ∧
    Host.Run shellMap (Host.orderly shellMap) (Host.start shellMap idleCard) S ∧
    HbmEnabled S.card.control ∧
    (∃ s₀ es, S.client false = .finished s₀ (.ok ⟨[.serialNumber ⟨[]⟩]⟩) ∧
      S.card.log = s₀.log ++ es ∧ Report shellMap false (.ok ⟨[.serialNumber ⟨[]⟩]⟩) es) ∧
    ∃ s₀ es, S.client true = .finished s₀ (.ok ⟨[.serialNumber ⟨[]⟩]⟩) ∧
      S.card.log = s₀.log ++ es ∧ Report shellMap true (.ok ⟨[.serialNumber ⟨[]⟩]⟩) es := by
  have played : (Host.play shellMap orderlyCheck inTurn (Host.start shellMap idleCard)).any
      (fun S => S.returned false = some (.ok ⟨[.serialNumber ⟨[]⟩]⟩) &&
        S.returned true = some (.ok ⟨[.serialNumber ⟨[]⟩]⟩)) = true := by
    decide +kernel
  obtain ⟨S, play, returned⟩ := (Option.any_eq_true _ _).mp played
  rw [Bool.and_eq_true, decide_eq_true_eq, decide_eq_true_eq] at returned
  have run := Host.play_run orderlyCheck_decides play
  obtain ⟨own, monitored⟩ := clients_own shellMap (idleCard_consistent (τ := Bool))
  have reports : ∀ i, S.returned i = some (.ok ⟨[.serialNumber ⟨[]⟩]⟩) →
      ∃ s₀ es, S.client i = .finished s₀ (.ok ⟨[.serialNumber ⟨[]⟩]⟩) ∧
        S.card.log = s₀.log ++ es ∧ Report shellMap i (.ok ⟨[.serialNumber ⟨[]⟩]⟩) es := by
    intro i returned
    obtain ⟨s₀, finished⟩ := Host.returned_eq returned
    obtain ⟨es, log, report⟩ := (own S run).2 i s₀ _ finished
    exact ⟨s₀, es, finished, log, report⟩
  refine ⟨S, play, run, monitored S ?_ true ?_, reports false returned.1, reports true returned.2⟩
  · exact Host.play_run (fun _ _ _ _ => trivial) play
  · obtain ⟨s₀, finished⟩ := Host.returned_eq returned.2
    rw [finished]
    exact trivial

/-- The service answers with this card info. -/
def Entry.answers (info : CardInfo) : Entry τ → Bool
  | .served _ response _ => CardInfo.tryFrom (responseBytes response) = .ok info
  | _ => false

/-- In some run a client returns a card info that no service answered with. -/
def Host.Invents (m : Map) (s : Card τ) (cond : Option τ → Host τ → Host τ → Prop) (i : τ)
    (info : CardInfo) : Prop :=
  ∃ S, Host.Run m cond (Host.start m s) S ∧ S.returned i = some (.ok info) ∧
    ∀ e ∈ S.card.log, e.answers info = false

/-- A schedule, played, that returns information nobody posted. -/
lemma invents_of_play {cond : Option τ → Host τ → Host τ → Prop} {i : τ} {info : CardInfo}
    (check : Option τ → Host τ → Host τ → Bool) (moves : List (Move τ))
    (decides : ∀ who S S', check who S S' = true → cond who S S')
    (played : (Host.play m check moves (Host.start m s)).any (fun S =>
      S.returned i = some (.ok info) && S.card.log.all fun e => !e.answers info) = true) :
    Host.Invents m s cond i info := by
  obtain ⟨S, play, ends⟩ := (Option.any_eq_true _ _).mp played
  rw [Bool.and_eq_true, decide_eq_true_eq] at ends
  obtain ⟨returned, unanswered⟩ := ends
  refine ⟨S, Host.play_run decides play, returned, fun e mem => ?_⟩
  exact (Bool.not_eq_true' _).mp (List.all_eq_true.mp unanswered e mem)

/-- Information that nobody posted is not the client's own. -/
lemma Host.Invents.not_owned {cond : Option τ → Host τ → Host τ → Prop} {i : τ} {info : CardInfo}
    (invents : Host.Invents m s cond i info) : ¬ Host.Owned m s cond := by
  intro owned
  obtain ⟨S, run, returned, unanswered⟩ := invents
  obtain ⟨s₀, finished⟩ := Host.returned_eq returned
  obtain ⟨es, log, report⟩ := (owned S run).2 i s₀ _ finished
  obtain ⟨response, order, parsed⟩ := report.answer info rfl
  have served : (· = Entry.served cardInfoRequest response 0) ∈ exchange m i response 0 :=
    List.mem_append_right _ (List.mem_cons_of_mem _ List.mem_cons_self)
  obtain ⟨e, mem, eq⟩ := order.mem served
  have entry : e ∈ S.card.log := log ▸ List.mem_append_right _ mem
  have answers : e.answers info = true := by
    rw [eq, Entry.answers, decide_eq_true_eq]
    exact parsed
  have none := unanswered e entry
  rw [answers] at none
  cases none

/-- Two clients disturb each other: it is not enough that exchanges do not overlap, and not enough that
    no `init` writes back an old status bit. Either way a client returns an empty card info that the
    firmware has never sent. -/
theorem clients_disturb :
    ¬ Host.Owned shellMap (idleCard : Card Bool) (fun _ _ _ => True) ∧
    ¬ Host.Owned shellMap (idleCard : Card Bool) (fun _ _ S' => S'.Exclusive shellMap) ∧
    ¬ Host.Owned shellMap (idleCard : Card Bool) (fun who S _ => S.Fresh shellMap who) ∧
    Host.Invents shellMap (idleCard : Card Bool) (fun _ _ S' => S'.Exclusive shellMap) true ⟨[]⟩ ∧
    Host.Invents shellMap (idleCard : Card Bool) (fun who S _ => S.Fresh shellMap who) true ⟨[]⟩ := by
  have stale : Host.Invents shellMap (idleCard : Card Bool) (fun _ _ S' => S'.Exclusive shellMap)
      true ⟨[]⟩ := by
    refine invents_of_play (fun _ _ S' => S'.exclusive) staleInit
      (fun _ _ _ h => Host.exclusive_decides h) ?_
    decide +kernel
  have overlap : Host.Invents shellMap (idleCard : Card Bool) (fun who S _ => S.Fresh shellMap who)
      true ⟨[]⟩ := by
    refine invents_of_play (fun who S _ => S.fresh shellMap who) overlapping
      (fun _ _ _ h => Host.fresh_decides h) ?_
    decide +kernel
  refine ⟨fun owned => ?_, stale.not_owned, overlap.not_owned, stale, overlap⟩
  exact stale.not_owned (owned.mono fun _ _ _ _ => trivial)

end Warpshell.Cms
