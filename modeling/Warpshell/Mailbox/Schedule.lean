import Warpshell.Mailbox.Host

/-!
# Schedules

Runs of a host as lists of moves: which client accesses the card next, or what the firmware does. The
card answers every access, and the core is ready. A schedule is played with a check on each step, and
what it plays is a run whose steps meet the condition that the check decides (`play_run`).
-/

namespace Warpshell.Cms
open Interaction

variable {τ : Type}

inductive Move (τ : Type) where
  | client (i : τ)
  | post (response : Nat → UInt32)
  | setError (error : UInt32)
  | clear

def Move.who : Move τ → Option τ
  | .client i => some i
  | _ => none

/-- The registers of a core that is ready. -/
def readyRegs (m : Map) (addr : Nat) : UInt32 :=
  if addr = m.reg .regMapId then supportedRegMapId else 1

def Client.next (m : Map) (i : τ) : Client τ → Card τ → Option (Client τ × Card τ)
  | .initialising (.act e k), s =>
    let (r, s') := s.respond m i (readyRegs m) e
    some (.initialising (k r), s')
  | .initialising (.ret (.ok ())), s => some (.exchanging s (getCardInfo m.core), s)
  | .exchanging s₀ (.act e k), s =>
    let (r, s') := s.respond m i (readyRegs m) e
    some (.exchanging s₀ (k r), s')
  | .exchanging s₀ (.ret r), s => some (.finished s₀ r, s)
  | _, _ => none

/-- The executable step of a client is one of its steps. -/
lemma Client.next_step {m : Map} {i : τ} {c c' : Client τ} {s s' : Card τ}
    (next : c.next m i s = some (c', s')) : Client.Step m i c s c' s' := by
  cases c with
  | initialising p =>
    cases p with
    | act e k =>
      cases next
      exact .init (Card.respond_answers m i _ s e)
    | ret o =>
      cases o with
      | ok _ =>
        cases next
        exact .start
      | err _ => cases next
      | panic => cases next
  | stopped o => cases next
  | exchanging s₀ p =>
    cases p with
    | act e k =>
      cases next
      exact .exchange (Card.respond_answers m i _ s e)
    | ret r =>
      cases next
      exact .finish
  | finished s₀ r => cases next

def Card.nextFirmware (s : Card τ) : Move τ → Option (Card τ)
  | .post response =>
    match s.phase with
    | .idle => some
      { s with
        mailbox := response
        phase := .posted (s.mailbox 0) response
        log := s.log ++ [.posted (s.mailbox 0) response] }
    | _ => none
  | .setError error =>
    match s.phase with
    | .posted header response =>
      some { s with hostMsgError := error, phase := .answered header response error }
    | _ => none
  | .clear =>
    match s.phase with
    | .answered header response error => some
      { s with
        control := s.control &&& ~~~ControlRegBit.mailboxStatus.mask
        phase := .idle
        log := s.log ++ [.served header response error] }
    | _ => none
  | .client _ => none

/-- The executable step of the firmware is one of its steps. -/
lemma Card.nextFirmware_step {s s' : Card τ} {move : Move τ} (busy : s.busy)
    (next : s.nextFirmware move = some s') : Card.Firmware s s' := by
  cases move with
  | client i => cases next
  | post response =>
    rw [nextFirmware] at next
    split at next
    next idle => cases next; exact .post response busy idle
    next => cases next
  | setError error =>
    rw [nextFirmware] at next
    split at next
    next posted => cases next; exact .setError error busy posted
    next => cases next
  | clear =>
    rw [nextFirmware] at next
    split at next
    next answered => cases next; exact .clear busy answered
    next => cases next

namespace Host
variable {m : Map} {S S' : Host τ} {move : Move τ}

/-- The client is in `get_card_info`. -/
def exchanges (i : τ) (S : Host τ) : Bool :=
  match S.client i with
  | .exchanging _ _ => true
  | _ => false

def returned (i : τ) (S : Host τ) : Option (Outcome Error CardInfo) :=
  match S.client i with
  | .finished _ r => some r
  | _ => none

/-- A client that has returned is finished. -/
lemma returned_eq {i : τ} {r : Outcome Error CardInfo} (h : S.returned i = some r) :
    ∃ s₀, S.client i = .finished s₀ r := by
  rw [returned] at h
  split at h
  next s₀ r' eq => cases h; exact ⟨s₀, eq⟩
  next => cases h

/-- The client that moves does not write back an old status bit. -/
def fresh (m : Map) (who : Option τ) (S : Host τ) : Bool :=
  match who with
  | none => true
  | some i =>
    match S.client i with
    | .initialising (.act (.ctrlWriteU32 addr v) _) =>
      addr != m.reg .control || decide (Busy v ↔ S.card.busy)
    | _ => true

/-- What the executable check calls fresh is fresh. -/
lemma fresh_decides {who : Option τ} (h : S.fresh m who = true) : S.Fresh m who := by
  intro i eq ⟨v, k, client, stale⟩
  subst eq
  rw [fresh] at h
  simp [client, stale] at h

variable [DecidableEq τ]

def next (m : Map) (S : Host τ) : Move τ → Option (Host τ)
  | .client i => ((S.client i).next m i S.card).map fun (c, s) => ⟨s, Function.update S.client i c⟩
  | move => if S.card.busy then (S.card.nextFirmware move).map fun s => ⟨s, S.client⟩ else none

/-- The executable step of a host is one of its steps. -/
lemma next_step (next : S.next m move = some S') : Step m move.who S S' := by
  obtain ⟨s, cs⟩ := S
  have firmware : ∀ fw : Move τ, fw.who = none → (if s.busy then (s.nextFirmware fw).map
      fun s => (⟨s, cs⟩ : Host τ) else none) = some S' → Step m fw.who ⟨s, cs⟩ S' := by
    intro fw who eq
    split at eq
    next busy =>
      obtain ⟨s', step, rfl⟩ := Option.map_eq_some_iff.mp eq
      rw [who]
      exact .firmware (Card.nextFirmware_step busy step)
    next => cases eq
  cases move with
  | client i =>
    obtain ⟨⟨c, s'⟩, step, rfl⟩ := Option.map_eq_some_iff.mp next
    exact .client (Client.next_step step)
  | post response => exact firmware _ rfl next
  | setError error => exact firmware _ rfl next
  | clear => exact firmware _ rfl next

/-- The host after a schedule, if every step passes the check. -/
def play (m : Map) (check : Option τ → Host τ → Host τ → Bool) :
    List (Move τ) → Host τ → Option (Host τ)
  | [], S => some S
  | move :: moves, S =>
    match S.next m move with
    | none => none
    | some S' => if check move.who S S' then play m check moves S' else none

/-- A schedule that plays to its end is a run. -/
lemma play_run {check : Option τ → Host τ → Host τ → Bool}
    {cond : Option τ → Host τ → Host τ → Prop} {moves : List (Move τ)}
    (decides : ∀ who S S', check who S S' = true → cond who S S')
    (played : play m check moves S = some S') : Run m cond S S' := by
  induction moves generalizing S with
  | nil => cases played; exact .refl
  | cons move moves ih =>
    rw [play] at played
    split at played
    next => cases played
    next S₁ next =>
      split at played
      next ok => exact .head ⟨_, next_step next, decides _ _ _ ok⟩ (ih played)
      next => cases played

/-- A client whose exchange is under way is found exchanging. -/
lemma exchanges_of_underway {i : τ} (under : S.Underway m i) : S.exchanges i = true := by
  obtain ⟨s₀, p, eq, _⟩ := under
  rw [exchanges, eq]

/-- Of two clients, at most one is in `get_card_info`. -/
def exclusive (S : Host Bool) : Bool := !(S.exchanges true && S.exchanges false)

/-- What the executable check calls exclusive is exclusive. -/
lemma exclusive_decides {S : Host Bool} (h : S.exclusive = true) : S.Exclusive m := by
  intro i j hi hj
  have ei := exchanges_of_underway hi
  have ej := exchanges_of_underway hj
  by_contra ne
  cases i <;> cases j <;> simp_all [exclusive]

end Host

end Warpshell.Cms
