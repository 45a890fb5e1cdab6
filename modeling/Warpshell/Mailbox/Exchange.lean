import Warpshell.Mailbox.Rules

/-!
# One exchange

What `get_card_info` does to the card and what it returns, under interference: the firmware acts
between its accesses, and so do other parties, which leave the mailbox and its status bit alone once
the call has found the mailbox free (`Rely`). The assertions `Free`, `Waiting` and `Answered`
link the status bit, the mailbox and the firmware to how far the call has come; `wp_getCardInfo` goes
from one to the next.
-/

namespace Warpshell.Cms
open Interaction

variable {τ : Type}

/-- The party of an entry; the firmware is none. -/
def Entry.party : Entry τ → Option τ
  | .read who _ _ => some who
  | .wrote who _ _ => some who
  | .posted _ _ => none
  | .served _ _ _ => none

/-- The entries of one party. -/
def own [DecidableEq τ] (who : τ) (es : List (Entry τ)) : List (Entry τ) :=
  es.filter fun e => e.party = some who

/-- Since `log₀`, the party has found the mailbox free: its exchange has begun. -/
def Engaged [DecidableEq τ] (m : Map) (who : τ) (log₀ log : List (Entry τ)) : Prop :=
  ∃ es v rest, log = log₀ ++ es ∧ own who es = .read who (m.reg .control) v :: rest ∧ ¬ Busy v

/-- A step that leaves the mailbox and its status bit alone. -/
structure Undisturbed (s s' : Card τ) : Prop where
  busy : s'.busy ↔ s.busy
  phase : s'.phase = s.phase
  mailbox : s'.mailbox = s.mailbox
  hostMsgError : s'.hostMsgError = s.hostMsgError

/-- What a call that started with `log₀` relies on between its accesses. -/
inductive Rely [DecidableEq τ] (m : Map) (who : τ) (log₀ : List (Entry τ)) :
    Card τ → Card τ → Prop where
  | firmware {s s'} : Card.Firmware s s' → Rely m who log₀ s s'
  | others {s s' es} : s'.log = s.log ++ es → own who es = [] → (s.Consistent → s'.Consistent) →
    (Engaged m who log₀ s.log → Undisturbed s s') → Rely m who log₀ s s'

/-- The request of an exchange: the header, and the status bit. -/
def requests (m : Map) (who : τ) : List (Entry τ → Prop) :=
  [(· = .wrote who (m.word 0) cardInfoRequest),
    fun e => ∃ v, e = .wrote who (m.reg .control) v ∧ Busy v]

/-- An exchange: the request, and the service of this request by the firmware. -/
def exchange (m : Map) (who : τ) (response : Nat → UInt32) (error : UInt32) :
    List (Entry τ → Prop) :=
  requests m who ++
    [(· = .posted cardInfoRequest response), (· = .served cardInfoRequest response error)]

/-- The first `n` bytes of the words from the `i`-th on. -/
def bytesFrom (words : Nat → UInt32) (i n : Nat) : List UInt8 :=
  ((List.range ((n + 3) / 4)).flatMap fun j => toLeBytes (words (i + j))).take n

/-- The payload of a response: its length is in the header. -/
def responseBytes (response : Nat → UInt32) : List UInt8 :=
  bytesFrom response 1 (response 0 &&& 0xfff).toNat

/-- What a call of `get_card_info` reports. A call that finds the mailbox taken says so and does not
    touch it; a card info is the payload of a response to the request of this very call. -/
structure Report [DecidableEq τ] (m : Map) (who : τ) (r : Outcome Error CardInfo)
    (es : List (Entry τ)) : Prop where
  taken : ∀ v rest, own who es = .read who (m.reg .control) v :: rest → Busy v →
    r = .err .mailboxNotAvailable ∧ rest = []
  answer : ∀ info, r = .ok info → ∃ response, InOrder (exchange m who response 0) es ∧
    CardInfo.tryFrom (responseBytes response) = .ok info

/-- When a call that started with `log₀` writes, and what. -/
structure Polite [DecidableEq τ] (m : Map) (who : τ) (log₀ : List (Entry τ)) (s : Card τ)
    (e : Access) : Prop where
  engaged : ∀ addr v, e = .ctrlWriteU32 addr v → Engaged m who log₀ s.log
  mailbox : ∀ addr v i, e = .ctrlWriteU32 addr v → m.locate addr = .word i → ¬ s.busy
  control : ∀ v, e = .ctrlWriteU32 (m.reg .control) v → ¬ s.busy ∧ Busy v

section
variable {s s' : Card τ}

lemma bytesFrom_zero (words : Nat → UInt32) (i : Nat) : bytesFrom words i 0 = [] := rfl

/-- The bytes of the first word, and then those of the rest. -/
lemma bytesFrom_step (words : Nat → UInt32) (i n : Nat) (pos : 0 < n) :
    bytesFrom words i n = (toLeBytes (words i)).take (min n 4) ++ bytesFrom words (i + 1) (n - 4) := by
  have count : (n + 3) / 4 = (n - 4 + 3) / 4 + 1 := by omega
  have size : (toLeBytes (words i)).length = 4 := rfl
  have shift : ∀ j, words (i + (j + 1)) = words (i + 1 + j) := fun j => by
    rw [Nat.add_assoc, Nat.add_comm 1 j]
  rw [bytesFrom, count, List.range_succ_eq_map, List.flatMap_cons, List.flatMap_map, Nat.add_zero]
  rw [List.take_append, size, bytesFrom]
  have head : (toLeBytes (words i)).take n = (toLeBytes (words i)).take (min n 4) := by
    rw [List.take_eq_take_min, size]
  simp only [Nat.succ_eq_add_one, shift, head]

/-- The firmware only moves while a request is pending. -/
lemma Card.Firmware.busy (fw : Card.Firmware s s') : s.busy := by
  cases fw with
  | post _ busy _ => exact busy
  | setError _ busy _ => exact busy
  | clear busy _ => exact busy

/-- The firmware keeps the card consistent. -/
lemma Card.Firmware.consistent (fw : Card.Firmware s s') : s'.Consistent := by
  cases fw with
  | post _ busy _ => exact fun _ => busy
  | setError _ busy _ => exact fun _ => busy
  | clear _ _ => exact fun busy => absurd rfl busy

end

/-! ## How far a call has come -/

section
variable [DecidableEq τ] {m : Map} {who : τ} {s s' : Card τ} {log₀ log es : List (Entry τ)}
  {Ps : List (Entry τ → Prop)}

/-- Since the log `log₀`, the call has found the mailbox free and has passed the milestones `Ps`. -/
structure Passed (m : Map) (who : τ) (Ps : List (Entry τ → Prop)) (log₀ log : List (Entry τ)) :
    Prop where
  engaged : Engaged m who log₀ log
  order : ∃ es, log = log₀ ++ es ∧ InOrder Ps es

structure Free (m : Map) (who : τ) (Ps : List (Entry τ → Prop)) (log₀ : List (Entry τ))
    (s : Card τ) : Prop where
  quiet : ¬ s.busy
  idle : s.phase = .idle
  passed : Passed m who Ps log₀ s.log

/-- The request was served with this response and this error. -/
structure Answered (m : Map) (who : τ) (log₀ : List (Entry τ)) (response : Nat → UInt32)
    (error : UInt32) (s : Card τ) : Prop where
  quiet : ¬ s.busy
  idle : s.phase = .idle
  mailbox : s.mailbox = response
  hostMsgError : s.hostMsgError = error
  passed : Passed m who (exchange m who response error) log₀ s.log

/-- The request was made, and the firmware has come this far. -/
inductive Waiting (m : Map) (who : τ) (log₀ : List (Entry τ)) (s : Card τ) : Prop where
  | requested : s.busy → s.phase = .idle → s.mailbox 0 = cardInfoRequest →
    Passed m who (requests m who) log₀ s.log → Waiting m who log₀ s
  | posted {response} : s.busy → s.phase = .posted cardInfoRequest response →
    s.mailbox = response →
    Passed m who (requests m who ++ [(· = .posted cardInfoRequest response)]) log₀ s.log →
    Waiting m who log₀ s
  | answered {response error} : s.busy → s.phase = .answered cardInfoRequest response error →
    s.mailbox = response → s.hostMsgError = error →
    Passed m who (requests m who ++ [(· = .posted cardInfoRequest response)]) log₀ s.log →
    Waiting m who log₀ s
  | served {response error} : Answered m who log₀ response error s → Waiting m who log₀ s

lemma own_append : own who (log ++ es) = own who log ++ own who es := List.filter_append ..

lemma Engaged.append (g : Engaged m who log₀ log) (es : List (Entry τ)) :
    Engaged m who log₀ (log ++ es) := by
  obtain ⟨es', v, rest, eq, first, free⟩ := g
  refine ⟨es' ++ es, v, rest ++ own who es, by rw [eq, List.append_assoc], ?_, free⟩
  rw [own_append, first, List.cons_append]

lemma Passed.append (p : Passed m who Ps log₀ log) (es : List (Entry τ)) :
    Passed m who Ps log₀ (log ++ es) := by
  obtain ⟨engaged, es', eq, order⟩ := p
  exact ⟨engaged.append es, es' ++ es, by rw [eq, List.append_assoc], order.append es⟩

lemma Passed.concat {P : Entry τ → Prop} {e : Entry τ} (p : Passed m who Ps log₀ log) (pe : P e) :
    Passed m who (Ps ++ [P]) log₀ (log ++ [e]) := by
  obtain ⟨engaged, es', eq, order⟩ := p
  exact ⟨engaged.append [e], es' ++ [e], by rw [eq, List.append_assoc], order.concat pe⟩

/-- The postcondition of a call that started at `s₀`. -/
structure Reported (m : Map) (who : τ) (s₀ : Card τ) (r : Outcome Error CardInfo) (s : Card τ) :
    Prop where
  consistent : s.Consistent
  report : ∃ es, s.log = s₀.log ++ es ∧ Report m who r es

/-- The report of a call that has found the mailbox free. -/
lemma Engaged.report {s₀ : Card τ} {r : Outcome Error CardInfo} (g : Engaged m who s₀.log s.log)
    (answer : ∀ info, r = .ok info → ∀ es, s.log = s₀.log ++ es →
      ∃ response, InOrder (exchange m who response 0) es ∧
        CardInfo.tryFrom (responseBytes response) = .ok info) :
    ∃ es, s.log = s₀.log ++ es ∧ Report m who r es := by
  obtain ⟨es, v, rest, eq, first, free⟩ := g
  refine ⟨es, eq, fun v' rest' first' busy => ?_, fun info ok => answer info ok es eq⟩
  rw [first] at first'
  cases first'
  exact absurd busy free

/-- The report of a call that has passed all milestones and parsed the response. -/
lemma Passed.answer {s₀ : Card τ} {response info}
    (p : Passed m who (exchange m who response 0) s₀.log s.log)
    (parsed : CardInfo.tryFrom (responseBytes response) = .ok info) :
    ∃ es, s.log = s₀.log ++ es ∧ Report m who (.ok info) es := by
  apply p.engaged.report
  intro info' ok es eq
  obtain ⟨es', eq', order⟩ := p.order
  have same : es' = es := List.append_cancel_left (eq'.symm.trans eq)
  cases ok
  exact ⟨response, same ▸ order, parsed⟩

/-! ## Interference -/

lemma polite_read {addr : Nat} : Polite m who log₀ s (.ctrlReadU32 addr) := ⟨nofun, nofun, nofun⟩

/-- Interference leaves a mailbox free that the call has found free. -/
lemma Free.rely (f : Free m who Ps log₀ s) (e : Rely m who log₀ s s') : Free m who Ps log₀ s' := by
  obtain ⟨quiet, idle, passed⟩ := f
  cases e with
  | firmware fw => exact absurd fw.busy quiet
  | others log _ _ still =>
    have u := still passed.engaged
    exact ⟨fun busy => quiet (u.busy.mp busy), by rw [u.phase, idle], log ▸ passed.append _⟩

/-- The header may be written to a free mailbox. -/
lemma Free.polite_header (f : Free m who Ps log₀ s) :
    Polite m who log₀ s (.ctrlWriteU32 (m.word 0) cardInfoRequest) := by
  refine ⟨fun _ _ _ => f.passed.engaged, fun _ _ _ _ _ => f.quiet, fun v eq => ?_⟩
  injection eq with eq
  exact absurd eq.symm (Nat.ne_of_lt (m.reg_lt_word .control 0))

/-- A free mailbox may be requested. -/
lemma Free.polite_request {v : UInt32} (f : Free m who Ps log₀ s) (busy : Busy v) :
    Polite m who log₀ s (.ctrlWriteU32 (m.reg .control) v) := by
  refine ⟨fun _ _ _ => f.passed.engaged, fun _ _ _ _ _ => f.quiet, fun v' eq => ?_⟩
  injection eq with _ eq
  exact ⟨f.quiet, eq ▸ busy⟩

/-- Interference leaves the response in place. -/
lemma Answered.rely {response error} (a : Answered m who log₀ response error s)
    (e : Rely m who log₀ s s') : Answered m who log₀ response error s' := by
  obtain ⟨quiet, idle, mailbox, err, passed⟩ := a
  cases e with
  | firmware fw => exact absurd fw.busy quiet
  | others log _ _ still =>
    have u := still passed.engaged
    refine ⟨fun busy => quiet (u.busy.mp busy), ?_, ?_, ?_, log ▸ passed.append _⟩
    · rw [u.phase, idle]
    · rw [u.mailbox, mailbox]
    · rw [u.hostMsgError, err]

/-- Interference leaves the words of a free mailbox alone. -/
lemma Free.mailbox (f : Free m who Ps log₀ s) (e : Rely m who log₀ s s') :
    s'.mailbox = s.mailbox := by
  cases e with
  | firmware fw => exact absurd fw.busy f.quiet
  | others _ _ _ still => exact (still f.passed.engaged).mailbox

/-- The firmware brings the exchange forward. -/
lemma Waiting.firmware (w : Waiting m who log₀ s) (fw : Card.Firmware s s') :
    Waiting m who log₀ s' := by
  cases w with
  | requested busy idle header passed =>
    cases fw with
    | post response _ _ =>
      refine .posted busy (by rw [header]) rfl (passed.concat ?_)
      rw [header]
    | setError _ _ phase => rw [idle] at phase; cases phase
    | clear _ phase => rw [idle] at phase; cases phase
  | posted busy phase mailbox passed =>
    cases fw with
    | post _ _ idle => rw [phase] at idle; cases idle
    | setError error _ phase' =>
      rw [phase] at phase'
      cases phase'
      exact .answered busy rfl mailbox rfl passed
    | clear _ phase' => rw [phase] at phase'; cases phase'
  | answered busy phase mailbox err passed =>
    cases fw with
    | post _ _ idle => rw [phase] at idle; cases idle
    | setError _ _ phase' => rw [phase] at phase'; cases phase'
    | clear _ phase' =>
      rw [phase] at phase'
      cases phase'
      exact .served ⟨not_busy_clear _, rfl, mailbox, err, passed.concat rfl⟩
  | served a => exact absurd fw.busy a.quiet

/-- What leaves the exchange alone leaves it where it is. -/
lemma Waiting.undisturbed (w : Waiting m who log₀ s) (u : Undisturbed s s')
    (log : s'.log = s.log ++ es) : Waiting m who log₀ s' := by
  cases w with
  | requested busy idle header passed =>
    refine .requested (u.busy.mpr busy) (by rw [u.phase, idle]) (by rw [u.mailbox, header]) ?_
    exact log ▸ passed.append es
  | posted busy phase mailbox passed =>
    refine .posted (u.busy.mpr busy) (by rw [u.phase, phase]) (by rw [u.mailbox, mailbox]) ?_
    exact log ▸ passed.append es
  | answered busy phase mailbox err passed =>
    refine .answered (u.busy.mpr busy) (by rw [u.phase, phase]) (by rw [u.mailbox, mailbox])
      (by rw [u.hostMsgError, err]) ?_
    exact log ▸ passed.append es
  | served a =>
    refine .served ⟨fun busy => a.quiet (u.busy.mp busy), ?_, ?_, ?_, log ▸ a.passed.append es⟩
    · rw [u.phase, a.idle]
    · rw [u.mailbox, a.mailbox]
    · rw [u.hostMsgError, a.hostMsgError]

/-- A call that waits has found the mailbox free. -/
lemma Waiting.engaged (w : Waiting m who log₀ s) : Engaged m who log₀ s.log := by
  cases w with
  | requested _ _ _ passed => exact passed.engaged
  | posted _ _ _ passed => exact passed.engaged
  | answered _ _ _ _ passed => exact passed.engaged
  | served a => exact a.passed.engaged

/-- Interference brings the exchange forward, or leaves it where it is. -/
lemma Waiting.rely (w : Waiting m who log₀ s) (e : Rely m who log₀ s s') :
    Waiting m who log₀ s' := by
  cases e with
  | firmware fw => exact w.firmware fw
  | others log _ _ still => exact w.undisturbed (still w.engaged) log

/-- The card of a call that waits is consistent. -/
lemma Waiting.consistent (w : Waiting m who log₀ s) : s.Consistent := by
  cases w with
  | requested busy => exact fun _ => busy
  | posted busy => exact fun _ => busy
  | answered busy => exact fun _ => busy
  | served a => exact fun phase => absurd a.idle phase

/-- Interference keeps the card consistent. -/
lemma Card.Consistent.rely (c : s.Consistent) (e : Rely m who log₀ s s') : s'.Consistent := by
  cases e with
  | firmware fw => exact fw.consistent
  | others _ _ keeps _ => exact keeps c

/-- What the firmware logs is not the call's own. -/
lemma Card.Firmware.foreign (fw : Card.Firmware s s') :
    ∃ es, s'.log = s.log ++ es ∧ own who es = [] := by
  cases fw with
  | post => exact ⟨_, rfl, rfl⟩
  | setError => exact ⟨[], (List.append_nil _).symm, rfl⟩
  | clear => exact ⟨_, rfl, rfl⟩

/-- What interference logs is not the call's own. -/
lemma Rely.foreign (e : Rely m who log₀ s s') : ∃ es, s'.log = s.log ++ es ∧ own who es = [] := by
  cases e with
  | firmware fw => exact fw.foreign
  | others log foreign _ _ => exact ⟨_, log, foreign⟩

/-- A report stands when others add to the log. -/
lemma Report.foreign {r : Outcome Error CardInfo} {es' : List (Entry τ)} (h : Report m who r es)
    (foreign : own who es' = []) : Report m who r (es ++ es') := by
  obtain ⟨taken, answer⟩ := h
  refine ⟨?_, fun info ok => ?_⟩
  · rwa [own_append, foreign, List.append_nil]
  · obtain ⟨response, order, parsed⟩ := answer info ok
    exact ⟨response, order.append es', parsed⟩

/-- Interference keeps the postcondition. -/
lemma Reported.rely {s₀ : Card τ} {r} (h : Reported m who s₀ r s) (e : Rely m who log₀ s s') :
    Reported m who s₀ r s' := by
  obtain ⟨es, eq, report⟩ := h.report
  obtain ⟨es', eq', foreign⟩ := e.foreign
  exact ⟨h.consistent.rely e, es ++ es', by rw [eq', eq, List.append_assoc], report.foreign foreign⟩

/-! ## The call -/

variable {s₀ : Card τ} {response : Nat → UInt32} {error : UInt32} {α : Type}

/-- An error promises nothing about the exchange. -/
lemma Engaged.reported {e : Error} (g : Engaged m who s₀.log s.log) (c : s.Consistent) :
    Reported m who s₀ (.err e) s :=
  ⟨c, g.report fun _ ok => by cases ok⟩

/-- The status bit is clear only when the request was served. -/
lemma Waiting.answered_of_quiet (w : Waiting m who log₀ s) (quiet : ¬ s.busy) :
    ∃ response error, Answered m who log₀ response error s := by
  cases w with
  | requested busy => exact absurd busy quiet
  | posted busy => exact absurd busy quiet
  | answered busy => exact absurd busy quiet
  | @served response error a => exact ⟨response, error, a⟩

/-- A read while waiting. -/
lemma Waiting.read {addr : Nat} {v : UInt32} (w : Waiting m who log₀ s) :
    Waiting m who log₀ (s.record (.read who addr v)) :=
  w.undisturbed ⟨.rfl, rfl, rfl, rfl⟩ rfl

lemma Free.consistent (f : Free m who Ps log₀ s) : s.Consistent :=
  fun phase => absurd f.idle phase

lemma Answered.consistent (a : Answered m who log₀ response error s) : s.Consistent :=
  fun phase => absurd a.idle phase

lemma Free.record (f : Free m who Ps log₀ s) (e : Entry τ) : Free m who Ps log₀ (s.record e) :=
  ⟨f.quiet, f.idle, f.passed.append _⟩

lemma Answered.record (a : Answered m who log₀ response error s) (e : Entry τ) :
    Answered m who log₀ response error (s.record e) :=
  ⟨a.quiet, a.idle, a.mailbox, a.hostMsgError, a.passed.append _⟩

/-- A call may fail while the mailbox is free. -/
lemma Free.reported {e : Error} (f : Free m who Ps s₀.log s) : Reported m who s₀ (.err e) s :=
  f.passed.engaged.reported f.consistent

/-- A call may fail once it is answered. -/
lemma Answered.reported {e : Error} (a : Answered m who s₀.log response error s) :
    Reported m who s₀ (.err e) s :=
  a.passed.engaged.reported a.consistent

/-- A call may fail while it waits. -/
lemma Waiting.reported {e : Error} (w : Waiting m who s₀.log s) : Reported m who s₀ (.err e) s :=
  w.engaged.reported w.consistent

/-- The world of a call that started at `s₀`. -/
abbrev callWorld (m : Map) (who : τ) (s₀ : Card τ) : World Access Access.Answer (Card τ) :=
  Card.world m who (Rely m who s₀.log)

/-- Interference keeps a postcondition if it keeps what is to hold of a success. -/
lemma onOk_rely {K : α → Card τ → Prop} (st : ∀ a, (callWorld m who s₀).Stable (K a))
    (o : Outcome Error α) :
    (callWorld m who s₀).Stable (World.onOk K (Reported m who s₀) o) := by
  intro s s' h e
  cases o with
  | ok a => exact st a s s' h e
  | err err => exact Reported.rely h e
  | panic => exact Reported.rely h e

/-- The offset is read, and then the mailbox is found free. -/
lemma wp_getMailboxOffset (c : s₀.Consistent) :
    (callWorld m who s₀).wp (Polite m who s₀.log) (getMailboxOffset m.core)
      (World.onOk (fun a s => a = m.mboxOffset ∧ Free m who [] s₀.log s) (Reported m who s₀)) s₀ := by
  let K (a : Nat) (s : Card τ) : Prop := a = m.mboxOffset ∧ Free m who [] s₀.log s
  have stK : ∀ a, (callWorld m who s₀).Stable (K a) :=
    fun a s s' h e => ⟨h.1, h.2.rely e⟩
  have stQ : ∀ o, (callWorld m who s₀).Stable (World.onOk K (Reported m who s₀) o) :=
    onOk_rely stK
  let P (s : Card τ) : Prop := s.Consistent ∧ ∃ es, s.log = s₀.log ++ es ∧ own who es = []
  have start : P s₀ := ⟨c, [], (List.append_nil _).symm, rfl⟩
  have stP : (callWorld m who s₀).Stable P := by
    intro s s' ⟨c, es, eq, quiet⟩ (e : Rely m who s₀.log s s')
    obtain ⟨es', eq', quiet'⟩ := e.foreign
    refine ⟨c.rely e, es ++ es', by rw [eq', eq, List.append_assoc], ?_⟩
    rw [own_append, quiet, quiet', List.append_nil]
  apply card_getCmsReg m.locate_control start stP stQ
  intro s hP
  obtain ⟨c, es, eq, quiet⟩ := hP
  refine ⟨polite_read, fun e => ?_, ?_⟩
  · refine ⟨c, es, eq, fun v rest first => ?_, nofun⟩
    rw [quiet] at first
    cases first
  · intro v holds
    cases holds
    have log : (s.record (.read who (m.reg .control) s.control)).log =
        s₀.log ++ (es ++ [.read who (m.reg .control) s.control]) := by
      rw [← List.append_assoc, ← eq]
      rfl
    have first : own who (es ++ [.read who (m.reg .control) s.control]) =
        [.read who (m.reg .control) s.control] := by
      rw [own_append, quiet]
      simp [own, Entry.party]
    by_cases busy : s.busy
    · -- Another request is pending: the call ends here.
      rw [if_pos (Ne.symm busy)]
      intro s' e
      refine World.Stable.env (stQ (.err .mailboxNotAvailable)) ?_ e
      refine ⟨c, _, log, fun v' rest first' _ => ?_, nofun⟩
      rw [first] at first'
      cases first'
      exact ⟨rfl, rfl⟩
    · rw [if_neg fun taken => busy (Ne.symm taken)]
      have idle : s.phase = .idle := by
        by_contra phase
        exact busy (c phase)
      have free : Free m who [] s₀.log (s.record (.read who (m.reg .control) s.control)) :=
        ⟨busy, idle, ⟨_, _, [], log, first, busy⟩, _, log, .nil⟩
      refine card_getCmsReg m.locate_hostMsgOffset free (fun s s' h e => h.rely e) stQ
        fun s free => ⟨polite_read, fun e => ?_, ?_⟩
      · exact free.reported
      · intro v holds s' e
        cases holds
        exact World.Stable.env (stK _) ⟨rfl, free.record _⟩ e

/-- The word loop reads the response that is in the mailbox. -/
lemma wp_readInfoBytes {i : Nat} {r : Int} {bytes : List UInt8}
    (a : Answered m who s₀.log response error s) :
    (callWorld m who s₀).wp (Polite m who s₀.log)
      (readInfoBytes m.core m.mboxOffset (4 * i) r bytes)
      (World.onOk (fun bs s => bs = bytes ++ bytesFrom response i r.toNat ∧
        Answered m who s₀.log response error s) (Reported m who s₀)) s := by
  let K (bs : List UInt8) (s : Card τ) : Prop := bs = bytes ++ bytesFrom response i r.toNat ∧
    Answered m who s₀.log response error s
  have stK : ∀ bs, (callWorld m who s₀).Stable (K bs) :=
    fun bs s s' h e => ⟨h.1, h.2.rely e⟩
  induction n : r.toNat using Nat.strongRecOn generalizing i r bytes s with
  | ind n ih =>
    subst n
    rw [readInfoBytes]
    split
    next more =>
      apply card_readWord a (fun s s' h e => h.rely e) (onOk_rely stK)
      intro s a
      refine ⟨polite_read, fun e => a.reported, ?_⟩
      have a' := a.record (.read who (m.word i) (s.mailbox i))
      have next : (callWorld m who s₀).wp (Polite m who s₀.log) (readInfoBytes m.core m.mboxOffset
          (4 * (i + 1)) (r - 4) (bytes ++ (toLeBytes (s.mailbox i)).take (min r 4).toNat)) _ _ :=
        ih (r - 4).toNat (by omega) a' (fun bs s s' h e => ⟨h.1, h.2.rely e⟩) rfl
      apply World.wp_mono next
      intro o s h
      cases o with
      | err err => exact h
      | panic => exact h
      | ok bs =>
        refine ⟨?_, h.2⟩
        have word : (min r 4).toNat = min r.toNat 4 := by omega
        have rest : (r - 4).toNat = r.toNat - 4 := by omega
        rw [h.1, a.mailbox, List.append_assoc, word, rest,
          bytesFrom_step response i r.toNat (by omega)]
    next done =>
      intro s' e
      refine World.Stable.env (stK _) ⟨?_, a⟩ e
      have none : r.toNat = 0 := by omega
      rw [none, bytesFrom_zero, List.append_nil]

/-- From the response on: the call reports the error, or the payload. -/
lemma wp_reply (a : Answered m who s₀.log response error s) :
    (callWorld m who s₀).wp (Polite m who s₀.log) (do
      let error ← getCmsReg m.core .hostMsgError
      if error ≠ 0 then .throw (.hostMsgError error)
      else do
        let header ← (basedCtrlReadU32 m.core m.mboxOffset).mapErr .basedError
        let infoBytes ← readInfoBytes m.core m.mboxOffset 4 (header &&& 0xfff).toNat []
        .ofOutcome ((CardInfo.tryFrom infoBytes).mapErr .cardInfoParseError) : Driver Error CardInfo)
      (Reported m who s₀) s := by
  have stA : (callWorld m who s₀).Stable (Answered m who s₀.log response error) :=
    fun s s' h e => h.rely e
  have stQ : ∀ o, (callWorld m who s₀).Stable (Reported m who s₀ o) :=
    fun o s s' h e => h.rely e
  refine card_getCmsReg m.locate_hostMsgError a stA stQ fun s a => ⟨polite_read, fun e => ?_, ?_⟩
  · exact a.reported
  · intro v holds
    cases holds
    have a' := a.record (.read who (m.reg .hostMsgError) s.hostMsgError)
    by_cases fine : s.hostMsgError = 0
    · rw [if_neg (not_not.mpr fine)]
      obtain rfl : error = 0 := by rw [← a.hostMsgError, fine]
      refine card_readWord (i := 0) a' stA stQ fun s a => ⟨polite_read, fun e => ?_, ?_⟩
      · exact a.reported
      · rw [World.wp_seq]
        apply World.wp_mono (wp_readInfoBytes (i := 1) (a.record _))
        intro o s h
        cases o with
        | err err => exact h
        | panic => exact h
        | ok bs =>
          obtain ⟨bytes, a'⟩ := h
          have payload : bs = responseBytes response := by
            rw [bytes, List.nil_append, a.mailbox, Int.toNat_natCast, responseBytes]
          intro s' e
          refine World.Stable.env (stQ _) ⟨a'.consistent, ?_⟩ e
          rw [payload]
          cases parsed : CardInfo.tryFrom (responseBytes response) with
          | err err => exact a'.passed.engaged.report nofun
          | panic => exact a'.passed.engaged.report nofun
          | ok info => exact a'.passed.answer parsed
    · rw [if_pos fine]
      intro s' e
      exact World.Stable.env (stQ _) a'.reported e

/-- The call keeps to its mailbox, and reports what it got. -/
theorem wp_getCardInfo (c : s₀.Consistent) :
    (callWorld m who s₀).wp (Polite m who s₀.log) (getCardInfo m.core) (Reported m who s₀) s₀ := by
  have stQ : ∀ o, (callWorld m who s₀).Stable (Reported m who s₀ o) :=
    fun o s s' h e => h.rely e
  let header : Entry τ → Prop := (· = .wrote who (m.word 0) cardInfoRequest)
  let P (s : Card τ) : Prop := Free m who [header] s₀.log s ∧ s.mailbox 0 = cardInfoRequest
  have stP : (callWorld m who s₀).Stable P :=
    fun s s' h e => ⟨h.1.rely e, by rw [h.1.mailbox e, h.2]⟩
  rw [getCardInfo, World.wp_seq]
  apply World.wp_mono (wp_getMailboxOffset c)
  intro o s h
  cases o with
  | err err => exact h
  | panic => exact h
  | ok a =>
    obtain ⟨eq, free⟩ := h
    subst eq
    -- The header goes into a free mailbox.
    apply card_writeWord (i := 0) free (fun s s' h e => h.rely e) stQ
    intro s free
    have written :
        P ((s.record (.wrote who (m.word 0) cardInfoRequest)).put cardInfoRequest (.word 0)) :=
      ⟨⟨free.quiet, free.idle, free.passed.concat rfl⟩, rfl⟩
    refine ⟨free.polite_header, fun e => ⟨?_, ?_⟩, ?_⟩
    · exact free.reported
    · exact written.1.reported
    refine card_getCmsReg m.locate_control written stP stQ fun s h => ⟨polite_read, fun e => ?_, ?_⟩
    · exact h.1.reported
    intro v holds
    have known : P (s.record (.read who (m.reg .control) v)) := ⟨h.1.record _, h.2⟩
    -- The request: from here on the firmware may act.
    apply card_setCmsReg m.locate_control known stP stQ
    intro s h
    have busy := busy_status v
    have waiting : Waiting m who s₀.log
        ((s.record (.wrote who (m.reg .control) (v ||| ControlRegBit.mailboxStatus.mask))).put
          (v ||| ControlRegBit.mailboxStatus.mask) .control) :=
      .requested busy h.1.idle h.2 (h.1.passed.concat ⟨_, rfl, busy⟩)
    refine ⟨h.1.polite_request busy, fun e => ⟨?_, ?_⟩, ?_⟩
    · exact h.1.reported
    · exact waiting.reported
    apply card_pollReg m.locate_control waiting (fun s s' h e => h.rely e) stQ
    intro s w
    refine ⟨polite_read, fun e => w.reported,
      fun v holds => ⟨fun clear j => ?_, fun _ => ?_⟩⟩
    · cases holds
      obtain ⟨response, error, a⟩ := w.answered_of_quiet (not_not.mpr clear)
      exact wp_reply (a.record _)
    · exact w.read

end

end Warpshell.Cms
