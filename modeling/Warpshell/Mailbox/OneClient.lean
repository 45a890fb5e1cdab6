import Warpshell.Interaction.Session
import Warpshell.Mailbox.Exchange

/-!
# One client

A client that makes any number of calls of `init`, `enable_hbm_temp_monitoring`,
`reset_sensor_max_avg` and `get_card_info`, in any order, while the firmware takes steps anywhere
between the accesses. Each call keeps the card consistent, so each `get_card_info` starts from a card
that `wp_getCardInfo` is about. The other calls write Control back as they last read it (`Carries`):
they do not clear a pending request, but set the status bit again when the firmware has served the
request in between.
-/

namespace Warpshell.Cms
open Interaction

inductive Call where
  | init
  | enableHbmTempMonitoring
  | resetSensorMaxAvg
  | getCardInfo
  deriving DecidableEq, Repr

namespace Call

abbrev Result : Call → Type
  | .getCardInfo => Outcome Error CardInfo
  | _ => Outcome Error Unit

def prog (core : BaseParam) : (c : Call) → Prog Access Access.Answer c.Result
  | .init => Cms.init core
  | .enableHbmTempMonitoring => Cms.enableHbmTempMonitoring core
  | .resetSensorMaxAvg => Cms.resetSensorMaxAvg core
  | .getCardInfo => Cms.getCardInfo core

end Call

/-- One client of the card. -/
def client (m : Map) : Service Access Access.Answer (Card Call) Call Call.Result where
  prog := Call.prog m.core
  env := Card.Firmware
  answers c := Card.Answers m c

section
variable {τ : Type} {m : Map} {who : τ} {s s' : Card τ} {v : UInt32}

/-- A completed request. -/
def Served (e : Entry τ) : Prop := ∃ header response error, e = .served header response error

def ControlRead (m : Map) (e : Entry τ) : Prop := ∃ who v, e = .read who (m.reg .control) v

/-- The firmware has completed a request since Control was last read. -/
def Outdated (m : Map) (log : List (Entry τ)) : Prop := Since Served (ControlRead m) log

/-- The status bit of `v` is the one that Control had when it was last read. -/
inductive Carries (m : Map) (v : UInt32) (s : Card τ) : Prop where
  | current : ¬ Outdated m s.log → (Busy v ↔ s.busy) → Carries m v s
  | outdated : Outdated m s.log → Busy v → ¬ s.busy → Carries m v s

/-- How the calls other than `get_card_info` write: no mailbox word, and Control as it was read. -/
structure WritesBack (m : Map) (s : Card τ) (e : Access) : Prop where
  mailbox : ∀ addr v i, e = .ctrlWriteU32 addr v → m.locate addr ≠ .word i
  control : ∀ v, e = .ctrlWriteU32 (m.reg .control) v → Carries m v s

lemma writesBack_read {addr : Nat} : WritesBack m s (.ctrlReadU32 addr) := ⟨nofun, nofun⟩

/-- A value that carries the status bit may be written back. -/
lemma Carries.writesBack (c : Carries m v s) :
    WritesBack m s (.ctrlWriteU32 (m.reg .control) v) := by
  refine ⟨fun addr v' i eq word => ?_, fun v' eq => ?_⟩
  · injection eq with eq
    rw [← eq, m.locate_control] at word
    cases word
  · injection eq with _ eq
    exact eq ▸ c

/-- What was just read carries the status bit. -/
lemma Carries.read : Carries m s.control (s.record (.read who (m.reg .control) s.control)) := by
  refine .current (fun outdated => ?_) .rfl
  obtain ⟨_, _, _, served⟩ | ⟨other, _⟩ := since_concat.mp outdated
  · cases served
  · exact other ⟨who, s.control, rfl⟩

/-- Setting another bit still carries the status bit. -/
lemma Carries.other {bit : ControlRegBit} (c : Carries m v s) (ne : bit ≠ .mailboxStatus) :
    Carries m (v ||| bit.mask) s := by
  cases c with
  | current fresh same => exact .current fresh ((busy_other ne).trans same)
  | outdated old busy quiet => exact .outdated old ((busy_other ne).mpr busy) quiet

/-- A value read stays as old as the firmware makes it. -/
lemma Carries.firmware (c : Carries m v s) (fw : Card.Firmware s s') : Carries m v s' := by
  cases c with
  | outdated old busy quiet => exact absurd fw.busy quiet
  | current fresh same =>
    cases fw with
    | post response busy _ =>
      refine .current (fun outdated => ?_) same
      obtain ⟨_, _, _, served⟩ | ⟨_, old⟩ := since_concat.mp outdated
      · cases served
      · exact fresh old
    | setError error busy _ => exact .current fresh same
    | clear busy _ =>
      exact .outdated (since_concat.mpr (.inl ⟨_, _, _, rfl⟩)) (same.mpr busy) (not_busy_clear _)

/-- Writing a value back does not take the status bit from the firmware. -/
lemma Carries.consistent {e : Entry τ} (c : Carries m v s) (consistent : s.Consistent) :
    ((s.record e).put v .control).Consistent := by
  intro phase
  have busy : s.busy := consistent phase
  cases c with
  | current fresh same => exact same.mpr busy
  | outdated _ _ quiet => exact absurd busy quiet

/-- Setting a bit writes back what was read. -/
lemma wp_setControlBit {bit : ControlRegBit} (ne : bit ≠ .mailboxStatus) (c : s.Consistent) :
    (Card.world m who Card.Firmware).wp (WritesBack m) (setControlBit m.core bit)
      (fun _ s => s.Consistent) s := by
  have stC : (Card.world m who Card.Firmware).Stable Card.Consistent :=
    fun s s' _ (fw : Card.Firmware s s') => fw.consistent
  let J (v : UInt32) (s : Card τ) : Prop := s.Consistent ∧ Carries m v s
  have stJ : ∀ v, (Card.world m who Card.Firmware).Stable (J v) :=
    fun v s s' h (fw : Card.Firmware s s') => ⟨fw.consistent, h.2.firmware fw⟩
  apply card_setControlBit c stC stJ (fun _ => stC)
  · exact fun s c => ⟨writesBack_read, fun _ => c, c, .read⟩
  · intro s v h
    have carries := h.2.other ne
    exact ⟨carries.writesBack, fun _ => h.1, fun _ => carries.consistent h.1⟩

/-- Releasing the reset writes nothing back. -/
lemma writesBack_reset :
    WritesBack m s (.ctrlWriteU32 (m.reg .microblazeResetN) 1) := by
  refine ⟨fun addr v i eq word => ?_, fun v eq => ?_⟩
  · injection eq with eq
    rw [← eq, m.locate_other (.inl rfl)] at word
    cases word
  · injection eq with eq
    exact absurd eq (m.reg_ne (by decide))

/-- `init` leaves the request of another call where it is. -/
lemma wp_init (c : s.Consistent) : (Card.world m who Card.Firmware).wp (WritesBack m)
    (init m.core) (fun _ s => s.Consistent) s := by
  have stC : (Card.world m who Card.Firmware).Stable Card.Consistent :=
    fun s s' _ (fw : Card.Firmware s s') => fw.consistent
  apply card_init c stC (fun _ => stC)
  · exact fun s e c => c
  · exact fun s addr c => writesBack_read
  · exact fun s c => writesBack_reset
  · exact fun s e c => c
  · exact fun s c => wp_setControlBit nofun c

end

/-! ## Every run -/

section
variable {m : Map}

/-- When a call issues an access. -/
def Call.Guard (m : Map) : Call → Card Call → Access → Prop
  | .getCardInfo, s, e =>
    (∀ addr v i, e = .ctrlWriteU32 addr v → m.locate addr = .word i → ¬ s.busy) ∧
      ∀ v, e = .ctrlWriteU32 (m.reg .control) v → ¬ s.busy ∧ Busy v
  | _, s, e => WritesBack m s e

/-- What a call promises: `get_card_info` reports what it got. -/
def Call.Post (m : Map) : (c : Call) → Card Call → c.Result → Card Call → Prop
  | .getCardInfo, s, r, s' => ∃ es, s'.log = s.log ++ es ∧ Report m .getCardInfo r es
  | _, _, _, _ => True

/-- Every call, from a consistent card to a consistent card. -/
lemma client_verified :
    (client m).Verified Card.Consistent (Call.Guard m) (Call.Post m) := by
  refine ⟨fun s s' _ fw => fw.consistent, fun c s consistent => ?_⟩
  cases c with
  | init => exact World.wp_mono (wp_init consistent) fun _ _ c => ⟨c, trivial⟩
  | enableHbmTempMonitoring =>
    exact World.wp_mono (wp_setControlBit nofun consistent) fun _ _ c => ⟨c, trivial⟩
  | resetSensorMaxAvg =>
    exact World.wp_mono (wp_setControlBit nofun consistent) fun _ _ c => ⟨c, trivial⟩
  | getCardInfo =>
    refine World.wp_world (W := callWorld m Call.getCardInfo s) (fun _ _ fw => .firmware fw)
      (fun _ _ _ _ answers => answers) ?_
    have reports : (callWorld m Call.getCardInfo s).wp (Polite m .getCardInfo s.log)
        (Cms.getCardInfo m.core) (Reported m .getCardInfo s) s := wp_getCardInfo consistent
    refine World.wp_mono (World.wp_guard reports ?_) ?_
    · exact fun s e polite => ⟨polite.mailbox, polite.control⟩
    · exact fun _ _ reported => ⟨reported.consistent, reported.report⟩

/-- In every run of a client: a mailbox word is written only while the status bit is clear, a call of
    `get_card_info` that finds the bit set reports that the mailbox is not available and accesses
    nothing more, and a card info returned is the payload of a response that the firmware posted,
    with error 0, to the request of this very call. -/
theorem client_mailbox (m : Map) {s : Card Call} (consistent : s.Consistent)
    {S : Session Access Access.Answer (Card Call) Call Call.Result}
    (reach : Relation.ReflTransGen (client m).Step (Session.start s) S) :
    (∀ c s₀ addr v k i, S.current = some ⟨c, s₀, .act (.ctrlWriteU32 addr v) k⟩ →
      m.locate addr = .word i → ¬ S.world.busy) ∧
    ∀ s₀ r s₁, ⟨.getCardInfo, s₀, r, s₁⟩ ∈ S.returned →
      ∃ es, s₁.log = s₀.log ++ es ∧ Report m .getCardInfo r es := by
  have sound := client_verified.reachable_sound consistent reach
  refine ⟨fun c s₀ addr v k i current word => ?_, fun s₀ r s₁ returned => ?_⟩
  · have guard := sound.guard current
    cases c with
    | getCardInfo => exact guard.1 addr v i rfl word
    | init => exact absurd word (guard.mailbox addr v i rfl)
    | enableHbmTempMonitoring => exact absurd word (guard.mailbox addr v i rfl)
    | resetSensorMaxAvg => exact absurd word (guard.mailbox addr v i rfl)
  · exact sound.returned _ returned

end

/-! A run: the firmware does not answer, and the first call times out. -/

/-- The card while the firmware is silent. -/
def silent (c : Call) : Card Call → (e : Access) → e.Answer × Card Call :=
  Card.respond shellMap c fun _ => 0

/-- With a silent firmware, the card answers as it may. -/
lemma silent_answers (c : Call) (s : Card Call) (e : Access) :
    (client shellMap).answers c s e (silent c s e).1 (silent c s e).2 :=
  Card.respond_answers shellMap c _ s e

/-- The card after a `get_card_info` without an answer. -/
def timedOut : Card Call :=
  (Service.advance (silent .getCardInfo) 105 (Cms.getCardInfo shellMap.core) idleCard).2

/-- On that card, `get_card_info` gives up after its polls. -/
lemma timedOut_returns :
    Service.result (Service.advance (silent .getCardInfo) 105 (Cms.getCardInfo shellMap.core)
      idleCard).1 = some (.err (.basedError (.regMaskNotAsExpected 0x28018 0x20 0))) := by
  decide +kernel

/-- A call that has made its request. -/
def requested : Prog Access Access.Answer (Outcome Error CardInfo) × Card Call :=
  Service.advance (silent .getCardInfo) 5 (Cms.getCardInfo shellMap.core) idleCard

/-- The firmware has answered it with a card info of one item. -/
def respondedCard : Card Call := requested.2.serve (fun i => if i = 0 then 3 else 0x121) 0

/-- After a call without an answer the next one finds the request still pending; and a call with an
    answer returns the card info of a response that it got itself. -/
theorem client_mailbox_pending :
    Service.result (Service.advance (silent .getCardInfo) 1 (Cms.getCardInfo shellMap.core)
      timedOut).1 = some (.err .mailboxNotAvailable) ∧
    ∃ S : Session Access Access.Answer (Card Call) Call Call.Result,
      Relation.ReflTransGen (client shellMap).Step (Session.start idleCard) S ∧
      ∃ s₁ es, ⟨.getCardInfo, idleCard, .ok ⟨[.serialNumber ⟨[]⟩]⟩, s₁⟩ ∈ S.returned ∧
        s₁.log = idleCard.log ++ es ∧
        Report shellMap .getCardInfo (.ok ⟨[.serialNumber ⟨[]⟩]⟩) es := by
  have answers := silent_answers .getCardInfo
  apply And.intro
  · obtain ⟨r, returns⟩ := Option.isSome_iff_exists.mp (show (Service.result (Service.advance
      (silent .getCardInfo) 1 (Cms.getCardInfo shellMap.core) timedOut).1).isSome from by decide +kernel)
    have reach := (Service.step_whole (T := client shellMap) (c := .getCardInfo) [] answers
      105 idleCard timedOut_returns).trans (Service.step_whole _ answers 1 timedOut returns)
    obtain ⟨es, log, report⟩ := (client_mailbox shellMap idleCard_consistent reach).2
      timedOut r _ List.mem_concat_self
    have read : es = [.read .getCardInfo (shellMap.reg .control) 0x20] := by
      have control : timedOut.control = 0x20 := by decide +kernel
      refine List.append_cancel_left (log.symm.trans ?_)
      have first : Service.issues ((client shellMap).prog .getCardInfo) =
          some (.ctrlReadU32 (shellMap.reg .control)) := rfl
      rw [Service.advance_one timedOut first, silent, Card.respond_control, control]
      rfl
    rw [returns, (report.taken 0x20 [] (by rw [read]; rfl) (by decide)).1]
  · have returns : Service.result (Service.advance (silent .getCardInfo) 5 requested.1
        respondedCard).1 = some (.ok ⟨[.serialNumber ⟨[]⟩]⟩) := by decide +kernel
    have first := Service.step_begin (T := client shellMap) (c := .getCardInfo) [] answers 5 idleCard
    have second := Service.step_env (T := client shellMap) [] (some ⟨.getCardInfo, idleCard, requested.1⟩)
      (Card.firmware_serve requested.2 (by decide +kernel) (by decide +kernel)
        (fun i => if i = 0 then 3 else 0x121) 0)
    have third := Service.step_finish (T := client shellMap) (c := .getCardInfo) [] answers 5
      requested.1 idleCard respondedCard returns
    have reach := first.trans (second.trans third)
    obtain ⟨es, log, report⟩ := (client_mailbox shellMap idleCard_consistent reach).2 idleCard _ _
      List.mem_concat_self
    exact ⟨_, reach, _, es, List.mem_concat_self, log, report⟩

end Warpshell.Cms
