import Warpshell.Mailbox.OneClient

/-!
# Requests made and requests served

The firmware takes every rise of the status bit for a request. `get_card_info` means it; a write-back
of Control by another call raises the bit when the firmware has cleared it since the read, and is late
then. Without late write-backs the firmware serves the requests of `get_card_info` and no others, which
`client_requests` counts on the log.
-/

namespace Warpshell.Cms
open Interaction

variable {m : Map}

/-- A session of one client with the card. -/
abbrev ClientSession : Type := Session Access Access.Answer (Card Call) Call Call.Result

/-- The request write of `get_card_info`. -/
def isRequest (m : Map) : Entry Call → Bool
  | .wrote .getCardInfo addr v => addr == m.reg .control && decide (Busy v)
  | _ => false

/-- A completed service. -/
def isService : Entry Call → Bool
  | .served _ _ _ => true
  | _ => false

/-- Requests that `get_card_info` made. -/
def issued (m : Map) (es : List (Entry Call)) : Nat := es.countP (isRequest m)

/-- Requests that the firmware served. -/
def served (es : List (Entry Call)) : Nat := es.countP isService

/-- Requests that wait for the firmware. -/
def pending (s : Card Call) : Nat := if s.busy then 1 else 0

/-- The session is about to write a value to Control. -/
def WritesControl (m : Map) (c : Call) (v : UInt32) (S : ClientSession) : Prop :=
  ∃ s₀ k, S.current = some ⟨c, s₀, .act (.ctrlWriteU32 (m.reg .control) v) k⟩

/-- No write-back is late: the firmware has not completed a request since Control was read. -/
def Timely (m : Map) (S : ClientSession) : Prop :=
  ∀ c v, WritesControl m c v S → c ≠ .getCardInfo → ¬ Outdated m S.world.log

/-- A step from a timely session. -/
def TimelyStep (m : Map) (S S' : ClientSession) : Prop := (client m).Step S S' ∧ Timely m S

/-- The status bit goes up. -/
def Raises (S S' : ClientSession) : Prop := ¬ S.world.busy ∧ S'.world.busy

/-- The books are balanced over a step or a run: what was pending or issued is served or pending. -/
def Balanced (m : Map) (s s' : Card Call) : Prop :=
  ∃ es, s'.log = s.log ++ es ∧ served es + pending s' = issued m es + pending s

lemma Balanced.refl (s : Card Call) : Balanced m s s := ⟨[], (List.append_nil _).symm, rfl⟩

lemma Balanced.trans {s s' s'' : Card Call} (b : Balanced m s s') (b' : Balanced m s' s'') :
    Balanced m s s'' := by
  obtain ⟨es, log, eq⟩ := b
  obtain ⟨es', log', eq'⟩ := b'
  refine ⟨es ++ es', by rw [log', log, List.append_assoc], ?_⟩
  simp only [served, issued, List.countP_append] at eq eq' ⊢
  omega

/-- A step that logs neither a request nor a service leaves the status bit as it was. -/
lemma Balanced.quiet {s s' : Card Call} {e : Entry Call} (log : s'.log = s.log ++ [e])
    (same : s'.busy ↔ s.busy) (request : isRequest m e = false) (service : isService e = false) :
    Balanced m s s' := by
  refine ⟨[e], log, ?_⟩
  have pendings : pending s' = pending s := by
    simp only [pending, same]
  rw [pendings, served, issued, List.countP_singleton, List.countP_singleton, request, service]

/-- The firmware's books are balanced: it serves what was pending. -/
lemma balanced_firmware {s s' : Card Call} (fw : Card.Firmware s s') : Balanced m s s' := by
  cases fw with
  | post response => exact .quiet rfl .rfl rfl rfl
  | setError => exact ⟨[], (List.append_nil _).symm, rfl⟩
  | @clear header response error busy _ =>
    refine ⟨[.served header response error], rfl, ?_⟩
    have before : pending s = 1 := if_pos busy
    have after : pending { s with
        control := s.control &&& ~~~ControlRegBit.mailboxStatus.mask
        phase := .idle
        log := s.log ++ [.served header response error] } = 0 := if_neg (not_busy_clear _)
    rw [before, after]
    rfl

section
variable {S S' : ClientSession} {c : Call} {v : UInt32}

/-- The sessions of a client keep to the guards and promises of its calls. -/
abbrev SoundClient (m : Map) (S : ClientSession) : Prop :=
  (client m).Sound Card.Consistent (Call.Guard m) (Call.Post m) S

/-- A write of Control by `get_card_info` raises the bit. -/
lemma SoundClient.request (sound : SoundClient m S) (writes : WritesControl m .getCardInfo v S) :
    ¬ S.world.busy ∧ Busy v := by
  obtain ⟨s₀, k, current⟩ := writes
  exact (sound.guard current).2 v rfl

/-- A write-back by another call carries the status bit that was read. -/
lemma SoundClient.carries (sound : SoundClient m S) (writes : WritesControl m c v S)
    (other : c ≠ .getCardInfo) : Carries m v S.world := by
  obtain ⟨s₀, k, current⟩ := writes
  have guard := sound.guard current
  cases c with
  | getCardInfo => exact absurd rfl other
  | init => exact guard.control v rfl
  | enableHbmTempMonitoring => exact guard.control v rfl
  | resetSensorMaxAvg => exact guard.control v rfl

/-- A timely write-back leaves the status bit as it was. -/
lemma SoundClient.same (sound : SoundClient m S) (timely : Timely m S)
    (writes : WritesControl m c v S) (other : c ≠ .getCardInfo) : Busy v ↔ S.world.busy := by
  cases sound.carries writes other with
  | current _ same => exact same
  | outdated old _ _ => exact absurd old (timely c v writes other)

/-- The books of a timely write: only a request makes one pending. -/
lemma SoundClient.balanced_write {addr : Nat} {s₀ k} (sound : SoundClient m S) (timely : Timely m S)
    (current : S.current = some ⟨c, s₀, .act (.ctrlWriteU32 addr v) k⟩) :
    Balanced m S.world (S.world.write m c addr v) := by
  by_cases eq : addr = m.reg .control
  · subst eq
    have writes : WritesControl m c v S := ⟨s₀, k, current⟩
    by_cases request : c = .getCardInfo
    · subst request
      obtain ⟨quiet, busy⟩ := sound.request writes
      refine ⟨_, Card.write_log, ?_⟩
      have before : pending S.world = 0 := if_neg quiet
      have after : pending (S.world.write m .getCardInfo (m.reg .control) v) = 1 :=
        if_pos (by rwa [Card.busy, Card.write_control])
      have counted : isRequest m (.wrote .getCardInfo (m.reg .control) v) = true := by
        simp [isRequest, busy]
      rw [before, after, served, issued, List.countP_singleton, List.countP_singleton, counted]
      rfl
    · refine .quiet Card.write_log ?_ ?_ rfl
      · rw [Card.busy, Card.write_control]
        exact sound.same timely writes request
      · cases c with
        | getCardInfo => exact absurd rfl request
        | init => rfl
        | enableHbmTempMonitoring => rfl
        | resetSensorMaxAvg => rfl
  · refine .quiet Card.write_log ?_ ?_ rfl
    · rw [Card.busy, Card.write_elsewhere eq]
    · cases c with
      | getCardInfo => simp [isRequest, eq]
      | init => rfl
      | enableHbmTempMonitoring => rfl
      | resetSensorMaxAvg => rfl

/-- The books of a timely step are balanced. -/
lemma SoundClient.balanced_step (sound : SoundClient m S) (step : TimelyStep m S S') :
    Balanced m S.world S'.world := by
  obtain ⟨step, timely⟩ := step
  cases step with
  | env fw => exact balanced_firmware fw
  | call => exact .refl _
  | ret => exact .refl _
  | access answers =>
    obtain rfl | ⟨addr, v, rfl⟩ | ⟨addr, v, rfl, rfl⟩ := answers.effect
    · exact .refl _
    · exact .quiet rfl .rfl rfl rfl
    · exact sound.balanced_write timely rfl

/-- The books of a timely run are balanced. -/
lemma reach_timely {s : Card Call} (consistent : s.Consistent)
    (reach : Relation.ReflTransGen (TimelyStep m) (Session.start s) S) :
    SoundClient m S ∧ Balanced m s S.world := by
  induction reach with
  | refl => exact ⟨client_verified.reachable_sound consistent .refl, .refl s⟩
  | tail _ step ih => exact ⟨client_verified.step ih.1 step.1, ih.2.trans (ih.1.balanced_step step)⟩

/-- Only a write of Control raises the status bit. -/
lemma raises_writes (step : (client m).Step S S') (raises : Raises S S') :
    ∃ c v, WritesControl m c v S ∧ Busy v := by
  obtain ⟨quiet, busy⟩ := raises
  cases step with
  | env fw => exact absurd (Card.Firmware.busy fw) quiet
  | call => exact absurd busy quiet
  | ret => exact absurd busy quiet
  | access answers =>
    obtain rfl | ⟨addr, v, rfl⟩ | ⟨addr, v, rfl, rfl⟩ := answers.effect
    · exact absurd busy quiet
    · exact absurd busy quiet
    · obtain ⟨rfl, raised⟩ := Card.write_raises quiet busy
      exact ⟨_, _, ⟨_, _, rfl⟩, raised⟩

/-- A write-back that takes effect raises the status bit if and only if it is late. -/
theorem late_raises (sound : SoundClient m S) (writes : WritesControl m c v S)
    (other : c ≠ .getCardInfo) (effect : S'.world = S.world.write m c (m.reg .control) v) :
    Raises S S' ↔ ¬ Timely m S := by
  have busy : S'.world.busy ↔ Busy v := by
    rw [effect, Card.busy, Card.write_control]
  apply Iff.intro
  · intro raises timely
    obtain ⟨quiet, raised⟩ := raises
    exact quiet ((sound.same timely writes other).mp (busy.mp raised))
  · intro late
    cases sound.carries writes other with
    | outdated _ raised quiet => exact ⟨quiet, busy.mpr raised⟩
    | current fresh _ =>
      refine absurd (fun c' v' writes' _ => ?_) late
      exact fresh

/-- In every run without late write-backs, the status bit goes up only at the request write of
    `get_card_info`, and the firmware serves, or has still to serve, exactly the requests that were
    pending at the start and those that `get_card_info` issued. -/
theorem client_requests (m : Map) {s : Card Call} (consistent : s.Consistent) {S : ClientSession}
    (reach : Relation.ReflTransGen (TimelyStep m) (Session.start s) S) :
    Balanced m s S.world ∧ ∀ S', TimelyStep m S S' → Raises S S' →
      ∃ v, WritesControl m .getCardInfo v S := by
  obtain ⟨sound, balanced⟩ := reach_timely consistent reach
  refine ⟨balanced, fun S' step raises => ?_⟩
  obtain ⟨c, v, writes, busy⟩ := raises_writes step.1 raises
  by_cases request : c = .getCardInfo
  · exact ⟨v, request ▸ writes⟩
  · exact absurd ((sound.same step.2 writes request).mp busy) raises.1

/-- A session in which only `get_card_info` is called has no write-backs. -/
lemma timely_of_getCardInfo {S : ClientSession}
    (only : ∀ r, S.current = some r → r.call = .getCardInfo) :
    Timely m S := by
  intro c v ⟨s₀, k, current⟩ other
  exact absurd (only _ current) other

/-- Nothing is written in a session that is about to read. -/
lemma timely_of_read {addr : Nat} {s₀ : Card Call}
    {k : Except BasedError UInt32 → Prog Access Access.Answer c.Result}
    (current : S.current = some ⟨c, s₀, .act (.ctrlReadU32 addr) k⟩) : Timely m S := by
  intro c v ⟨s₀, k', writes⟩ _
  cases current.symm.trans writes

end

/-! A run in which the firmware is silent: `get_card_info` times out, and
`enable_hbm_temp_monitoring` reads Control and writes it back. -/

def firstCall : Returned (Card Call) Call Call.Result :=
  ⟨.getCardInfo, idleCard, .err (.basedError (.regMaskNotAsExpected 0x28018 0x20 0)), timedOut⟩

def statusRead : Prog Access Access.Answer (Outcome Error Unit) × Card Call :=
  Service.advance (silent .enableHbmTempMonitoring) 1 (Cms.enableHbmTempMonitoring shellMap.core)
    timedOut

/-- A read while the firmware is silent. -/
lemma step_silentRead {c : Call} {p : Prog Access Access.Answer c.Result} {addr : Nat}
    (reads : Service.issues p = some (.ctrlReadU32 addr)) (s s₀ : Card Call)
    (rets : List (Returned (Card Call) Call Call.Result)) :
    TimelyStep shellMap ⟨s, some ⟨c, s₀, p⟩, rets⟩
      ⟨(Service.advance (silent c) 1 p s).2,
        some ⟨c, s₀, (Service.advance (silent c) 1 p s).1⟩, rets⟩ := by
  obtain ⟨k, rfl⟩ := Service.issues_eq reads
  exact ⟨.access (silent_answers c s (.ctrlReadU32 addr)), timely_of_read rfl⟩

/-- `enable_hbm_temp_monitoring` starts with a read of Control. -/
lemma enable_issues : Service.issues ((client shellMap).prog .enableHbmTempMonitoring) =
    some (.ctrlReadU32 (shellMap.reg .control)) := rfl

/-- The card after the write-back. -/
def monitored : Card Call :=
  statusRead.2.write shellMap .enableHbmTempMonitoring (shellMap.reg .control) 0x8000020

/-- `enable_hbm_temp_monitoring` writes back what it has read, with the monitor's bit set. -/
lemma statusRead_issues :
    ∃ k, statusRead.1 = .act (.ctrlWriteU32 (shellMap.reg .control) 0x8000020) k := by
  have issues : Service.issues statusRead.1 =
      some (.ctrlWriteU32 (shellMap.reg .control) 0x8000020) := by
    decide +kernel
  exact Service.issues_eq issues

/-- The polls of the first call, up to its timeout. -/
lemma reach_timedOut : Relation.ReflTransGen (TimelyStep shellMap) (Session.start idleCard)
    ⟨timedOut, some ⟨.getCardInfo, idleCard, (Service.advance (silent .getCardInfo) 105
      (Cms.getCardInfo shellMap.core) idleCard).1⟩, []⟩ := by
  have call : TimelyStep shellMap (Session.start idleCard)
      ⟨idleCard, some ⟨.getCardInfo, idleCard, (client shellMap).prog .getCardInfo⟩, []⟩ :=
    ⟨.call Call.getCardInfo, timely_of_getCardInfo nofun⟩
  refine .head call (Service.reach_advance [] (fun s e k => ⟨?_, ?_⟩) 105 _ idleCard)
  · exact .access (silent_answers .getCardInfo s e)
  · exact timely_of_getCardInfo fun r eq => by cases eq; rfl

/-- The second call has read Control. -/
lemma reach_statusRead : Relation.ReflTransGen (TimelyStep shellMap) (Session.start idleCard)
    ⟨statusRead.2, some ⟨.enableHbmTempMonitoring, timedOut, statusRead.1⟩, [firstCall]⟩ := by
  have returns : TimelyStep shellMap
      ⟨timedOut, some ⟨.getCardInfo, idleCard, (Service.advance (silent .getCardInfo) 105
        (Cms.getCardInfo shellMap.core) idleCard).1⟩, []⟩ ⟨timedOut, none, [firstCall]⟩ := by
    refine ⟨?_, timely_of_getCardInfo fun r eq => by cases eq; rfl⟩
    rw [Service.result_eq timedOut_returns]
    exact .ret
  have begins : TimelyStep shellMap ⟨timedOut, none, [firstCall]⟩
      ⟨timedOut, some ⟨.enableHbmTempMonitoring, timedOut,
        (client shellMap).prog .enableHbmTempMonitoring⟩, [firstCall]⟩ :=
    ⟨.call Call.enableHbmTempMonitoring, timely_of_getCardInfo nofun⟩
  have reads : TimelyStep shellMap
      ⟨timedOut, some ⟨.enableHbmTempMonitoring, timedOut,
        (client shellMap).prog .enableHbmTempMonitoring⟩, [firstCall]⟩
      ⟨statusRead.2, some ⟨.enableHbmTempMonitoring, timedOut, statusRead.1⟩, [firstCall]⟩ :=
    step_silentRead enable_issues timedOut timedOut [firstCall]
  exact ((reach_timedOut.tail returns).tail begins).tail reads

/-- A request without an answer is pending, and still is after a write-back in time. -/
theorem client_requests_timedOut : Balanced shellMap idleCard timedOut ∧
    ∃ S S' : ClientSession, Relation.ReflTransGen (TimelyStep shellMap) (Session.start idleCard) S ∧
      WritesControl shellMap .enableHbmTempMonitoring 0x8000020 S ∧ TimelyStep shellMap S S' ∧
      S'.world = monitored ∧ Balanced shellMap idleCard S'.world := by
  refine ⟨(client_requests shellMap idleCard_consistent reach_timedOut).1, ?_⟩
  obtain ⟨k, next⟩ := statusRead_issues
  have writes : TimelyStep shellMap
      ⟨statusRead.2, some ⟨.enableHbmTempMonitoring, timedOut, statusRead.1⟩, [firstCall]⟩
      ⟨monitored, some ⟨.enableHbmTempMonitoring, timedOut, k (.ok ())⟩, [firstCall]⟩ := by
    rw [next]
    refine ⟨.access .write, fun c v _ _ outdated => ?_⟩
    -- Control was read just now.
    obtain ⟨_, _, _, served⟩ | ⟨other, _⟩ := since_concat.mp outdated
    · cases served
    · exact other ⟨_, _, rfl⟩
  have balanced :=
    (client_requests shellMap idleCard_consistent (reach_statusRead.tail writes)).1
  refine ⟨_, _, reach_statusRead, ?_, writes, (by dsimp only), balanced⟩
  rw [next]
  exact ⟨_, k, rfl⟩

/-! The same with a late write-back: the firmware answers between the read and the write of
`enable_hbm_temp_monitoring`. -/

/-- The card when the write-back comes: the firmware has answered. -/
def answeredCard : Card Call := statusRead.2.serve (fun _ => 0) 0

def requestedAgain : Card Call :=
  answeredCard.write shellMap .enableHbmTempMonitoring (shellMap.reg .control) 0x8000020

/-- The request was served before the late write-back. -/
lemma answeredCard_quiet : ¬ answeredCard.busy := by decide +kernel

/-- The late write-back requests once more. -/
lemma requestedAgain_busy : requestedAgain.busy := by decide +kernel

/-- The write-back raises a request that `get_card_info` did not make. -/
theorem writeback_requests : ¬ ∀ S S' : ClientSession,
    Relation.ReflTransGen (client shellMap).Step (Session.start idleCard) S →
    (client shellMap).Step S S' →
    (Raises S S' → ∃ v, WritesControl shellMap .getCardInfo v S) ∧
      Balanced shellMap idleCard S'.world := by
  intro all
  have first := Service.step_whole (T := client shellMap) (c := .getCardInfo) []
    (silent_answers .getCardInfo) 105 idleCard timedOut_returns
  have second := Service.step_begin (T := client shellMap) (c := .enableHbmTempMonitoring) [firstCall]
    (silent_answers .enableHbmTempMonitoring) 1 timedOut
  have third := Service.step_env (T := client shellMap) [firstCall]
    (some ⟨.enableHbmTempMonitoring, timedOut, statusRead.1⟩) (Card.firmware_serve
      statusRead.2 (by decide +kernel) (by decide +kernel) (fun _ => 0) 0)
  obtain ⟨k, next⟩ := statusRead_issues
  have step : (client shellMap).Step
      ⟨answeredCard, some ⟨.enableHbmTempMonitoring, timedOut, statusRead.1⟩, [firstCall]⟩
      ⟨requestedAgain, some ⟨.enableHbmTempMonitoring, timedOut, k (.ok ())⟩, [firstCall]⟩ := by
    rw [next]
    exact .access .write
  obtain ⟨raised, -⟩ := all _ _ (first.trans (second.trans third)) step
  obtain ⟨v, s₀, k', current⟩ := raised ⟨answeredCard_quiet, requestedAgain_busy⟩
  cases current

end Warpshell.Cms
