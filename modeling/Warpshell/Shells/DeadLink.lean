import Warpshell.Port.Waits
import Warpshell.Shells.Trace

/-!
# Dead links

`program_user_image` aborts what the configuration port is doing when its initial poll times out, and
returns every other error of the poll. The poll has no other error: it drops a failed read, so a link
on which every read fails times out like a port that is never idle, and the abort request goes out.
`notMistaken_iff` says that this is the only case in which the two are mixed up.
-/

namespace Warpshell.U55n
open Interaction Hbicap

/-- A read of the Status register. -/
def StatusRead (ev : CardEvent) : Prop := ev.1 = .ctrlReadU32 (hbicapReg .status)

instance : DecidablePred StatusRead := fun _ => inferInstanceAs (Decidable (_ = _))

/-- The Status reads that a call starts with. -/
def initialPoll (t : List CardEvent) : List CardEvent := t.takeWhile (StatusRead ·)

/-- A Status read with the Idle bit clear. -/
def BusySeen (ev : CardEvent) : Prop :=
  ∃ v, ev = ⟨.ctrlReadU32 (hbicapReg .status), .ok v⟩ ∧ v &&& StatusRegBit.idle.mask = 0

/-- A Status read that failed in the transport. -/
def LinkFailed (ev : CardEvent) : Prop :=
  ∃ e, ev = ⟨.ctrlReadU32 (hbicapReg .status), .error (.xdmaError e)⟩

def RegisterWrite : Access → Prop
  | .ctrlWriteU32 _ _ => True
  | _ => False

/-- A dead link is not mistaken for a busy core. -/
structure NotMistaken (t : List CardEvent) (r : Outcome Error Unit) : Prop where
  /-- An abort is requested only when the port was seen busy. -/
  busy : (∃ ev ∈ t, AbortIssued ev) → ∃ ev ∈ initialPoll t, BusySeen ev
  /-- When every read failed, that error is returned and no register is written. -/
  dead : (∀ ev ∈ initialPoll t, LinkFailed ev) →
    (∃ e, ⟨.ctrlReadU32 (hbicapReg .status), .error (.xdmaError e)⟩ ∈ initialPoll t ∧
      r = .err (.hbicap (.basedError (.xdmaError e)))) ∧
    ∀ ev ∈ t, ¬ RegisterWrite ev.1

/-- How the initial poll ends: up to a thousand reads within ten seconds. -/
abbrev PollEnds : List CardEvent → Option Nat → Prop :=
  Searched (hbicapReg .status) StatusRegBit.idle.mask StatusRegBit.idle.mask 1000

/-- The only error of the initial poll. -/
def notReady : Outcome Hbicap.Error Nat :=
  .err (.basedError (.regMaskNotAsExpected Hbicap.Reg.status.offset StatusRegBit.idle.mask
    StatusRegBit.idle.mask))

section
variable {debug : Bool} {image : List UInt8} {h t : List CardEvent} {r : Outcome Error Unit}

/-- The reads of the poll are of Status. -/
lemma statusRead_readsOf {rs : List ReadOutcome} :
    ∀ ev ∈ readsOf (hbicapReg .status) rs, StatusRead ev := by
  intro ev mem
  obtain ⟨r, _, rfl⟩ := List.mem_map.mp mem
  rfl

/-- The initial poll is what comes before the first other access. -/
lemma initialPoll_readsOf {rs : List ReadOutcome} (other : ∀ ev rest, t = ev :: rest → ¬ StatusRead ev) :
    initialPoll (readsOf (hbicapReg .status) rs ++ t) = readsOf (hbicapReg .status) rs := by
  rw [initialPoll, List.takeWhile_append_of_pos fun ev mem => decide_eq_true (statusRead_readsOf ev mem)]
  cases t with
  | nil => exact List.append_nil _
  | cons ev rest =>
    have stop : ¬ decide (StatusRead ev) = true := fun yes => other ev rest rfl (of_decide_eq_true yes)
    rw [List.takeWhile_cons_of_neg (p := fun ev => decide (StatusRead ev)) stop]
    exact List.append_nil _

/-- What Idle is not, is clear. -/
lemma busy_of_not_idle {v : UInt32}
    (busy : v &&& StatusRegBit.idle.mask ≠ StatusRegBit.idle.mask) :
    v &&& StatusRegBit.idle.mask = 0 := by
  have bit : (v &&& StatusRegBit.idle.mask).toNat = v.toNat % 2 := by
    rw [UInt32.toNat_and]
    exact Nat.and_one_is_mod v.toNat
  apply UInt32.toNat_inj.mp
  rcases Nat.mod_two_eq_zero_or_one v.toNat with zero | one
  · exact bit.trans zero
  · have idle : v &&& StatusRegBit.idle.mask = StatusRegBit.idle.mask :=
      UInt32.toNat_inj.mp (bit.trans one)
    exact absurd idle busy

/-- Nothing after the wait requests an abort. -/
lemma wp_configure_quiet :
    (history _ _).wp
      (fun _ e => e ≠ .ctrlWriteU32 (hbicapReg .control) ControlRegBit.abort.mask)
      (configure image) (fun _ _ => True) h := by
  have other : ∀ {addr v}, addr ≠ hbicapReg .control →
      Access.ctrlWriteU32 addr v ≠ .ctrlWriteU32 (hbicapReg .control) ControlRegBit.abort.mask :=
    fun ne eq => ne (Access.ctrlWriteU32.inj eq).1
  rw [configure]
  apply step_write (other (by decide)) (fun _ => trivial)
  apply step_write (other (by decide)) (fun _ => trivial)
  apply step_write (other (by decide)) (fun _ => trivial)
  apply step_dmaWrite nofun (fun _ => trivial)
  apply step_poll (fun _ => nofun) (fun _ _ _ => trivial)
  intro ms v _ _ _
  apply step_write (other (by decide)) (fun _ => trivial)
  apply step_write (other (by decide)) (fun _ => trivial)
  apply step_write (other (by decide)) (fun _ => trivial)
  rw [World.wp_mapErr, history_write]
  exact ⟨other (by decide), fun _ => trivial⟩

/-- After the wait, no run requests an abort. -/
lemma configure_quiet (run : Run (configure image) t r) : ∀ ev ∈ t, ¬ AbortIssued ev := by
  intro ev mem issued
  obtain ⟨before, after, eq⟩ := List.append_of_mem mem
  exact (wp_run (h := []) wp_configure_quiet run).2 before ev.1 ev.2 after eq issued

/-- The poll of the Status register, in the shape of the wait and with its bound. -/
lemma run_pollIdle {o : Outcome Hbicap.Error Nat} :
    Run (pollDoneEvery10ms hbicap (Duration.fromSecs 10)) t o ↔
      (∃ pos, PollEnds t (some pos) ∧ o = .ok (pos + 1)) ∨ PollEnds t none ∧ o = notReady := by
  have run : Run (pollEvery10ms hbicap .status StatusRegBit.idle.mask StatusRegBit.idle.mask
      (Duration.fromSecs 10)) t o ↔ _ := run_pollEvery10ms
  rwa [polls_ten_seconds] at run

/-- The wait is over with a match, or with what the abort makes of a timeout. -/
lemma run_awaitIdle (run : Run (awaitIdle debug) t r) :
    (∃ pos, PollEnds t (some pos) ∧ r = .ok ()) ∨
      ∃ t₁ t₂, t = t₁ ++ t₂ ∧ PollEnds t₁ none ∧
        Run ((abort debug hbicap).mapErr .hbicap : Driver Error Unit) t₂ r := by
  obtain ⟨t₁, t₂, found, rfl, attempt, rest⟩ | ⟨e, _, attempt⟩ | ⟨_, attempt⟩ := Io.run_seq.mp run
  · obtain ⟨k, eq, run⟩ | ⟨e, eq, run⟩ | ⟨eq, _⟩ := Io.run_attempt.mp attempt
    · cases eq
      obtain ⟨pos, searched, _⟩ | ⟨_, same⟩ := run_pollIdle.mp run
      · obtain ⟨rfl, rfl⟩ := run_ret.mp rest
        rw [List.append_nil]
        exact .inl ⟨pos, searched, rfl⟩
      · cases same
    · cases eq
      obtain ⟨_, _, same⟩ | ⟨searched, same⟩ := run_pollIdle.mp run
      · cases same
      · cases same
        exact .inr ⟨t₁, t₂, rfl, searched, rest⟩
    · cases eq
  · obtain ⟨_, eq, _⟩ | ⟨_, eq, _⟩ | ⟨eq, _⟩ := Io.run_attempt.mp attempt
    all_goals cases eq
  · obtain ⟨_, eq, _⟩ | ⟨_, eq, _⟩ | ⟨_, run⟩ := Io.run_attempt.mp attempt
    · cases eq
    · cases eq
    · obtain ⟨_, _, same⟩ | ⟨_, same⟩ := run_pollIdle.mp run
      all_goals cases same

/-- What a call does up to the end of its initial poll, and what it does next. -/
lemma run_initialPoll (run : Run (programUserImage debug image) t r) :
    (∃ pos, PollEnds (initialPoll t) (some pos) ∧ ∀ ev ∈ t, ¬ AbortIssued ev) ∨
      PollEnds (initialPoll t) none ∧ ∃ ev ∈ t, AbortIssued ev := by
  rw [programUserImage_eq] at run
  -- Either the port is configured after the wait, or the wait is all that there is.
  have parts : ∃ t₁ t₂ o, t = t₁ ++ t₂ ∧ Run (awaitIdle debug) t₁ o ∧
      (o = .ok () → Run (configure image) t₂ r) := by
    obtain ⟨t₁, t₂, _, rfl, wait, rest⟩ | ⟨e, rfl, wait⟩ | ⟨rfl, wait⟩ := Io.run_seq.mp run
    · exact ⟨t₁, t₂, _, rfl, wait, fun _ => rest⟩
    · exact ⟨t, [], _, (List.append_nil t).symm, wait, nofun⟩
    · exact ⟨t, [], _, (List.append_nil t).symm, wait, nofun⟩
  obtain ⟨t₁, t₂, o, rfl, wait, rest⟩ := parts
  obtain ⟨pos, searched, rfl⟩ | ⟨t₁, t₁', rfl, searched, abort⟩ := run_awaitIdle wait
  · have rest := rest rfl
    have poll : initialPoll (t₁ ++ t₂) = t₁ := by
      obtain ⟨rs, rfl⟩ := searched.readsOf
      refine initialPoll_readsOf fun ev t' eq status => ?_
      subst eq
      rw [configure] at rest
      cases rest
      cases status
    refine .inl ⟨pos, by rwa [poll], fun ev mem => ?_⟩
    rcases List.mem_append.mp mem with mem | mem
    · obtain ⟨rs, rfl⟩ := searched.readsOf
      exact not_abort_of_read ⟨_, statusRead_readsOf ev mem⟩
    · exact configure_quiet rest ev mem
  · obtain ⟨o', run, rfl⟩ := Io.run_mapErr.mp abort
    rw [Hbicap.abort] at run
    cases run with
    | @act _ _ answer t' _ run =>
      obtain ⟨rs, rfl⟩ := searched.readsOf
      rw [List.append_assoc]
      let request : CardEvent :=
        ⟨.ctrlWriteU32 (hbicapReg .control) ControlRegBit.abort.mask, answer⟩
      have poll : initialPoll (readsOf (hbicapReg .status) rs ++ (request :: t' ++ t₂)) = _ :=
        initialPoll_readsOf fun ev rest eq status => by cases eq; cases status
      refine .inr ⟨?_, _, List.mem_append_right _ List.mem_cons_self, rfl⟩
      exact poll.symm ▸ searched

end

/-- Whatever the link and the device do, a dead link is not mistaken for a busy core exactly when one
    of the Status reads that the initial poll may make (a thousand) has a value in store. -/
theorem notMistaken_iff (debug : Bool) (image : List UInt8) (s : Nat → ReadOutcome)
    {t : List CardEvent} {r : Outcome Error Unit} (run : Run (programUserImage debug image) t r)
    (poll : initialPoll t = readsOf (hbicapReg .status) (outcomes s (initialPoll t).length)) :
    NotMistaken t r ↔ ∃ k v, 1 ≤ k ∧ k ≤ 1000 ∧ s k = .ok v := by
  obtain ⟨pos, searched, quiet⟩ | ⟨searched, ev, mem, issued⟩ := run_initialPoll run
  · -- A read matched: the port is idle, and no abort is requested.
    obtain ⟨first, eq⟩ := searched_hit.mp ⟨pos, searched, poll, rfl⟩
    obtain ⟨⟨pos, le, v, found, idle⟩, _⟩ := first
    refine ⟨fun _ => ⟨_, v, pos, le, found⟩, fun _ => ⟨fun ⟨ev, mem, issued⟩ => ?_, fun dead => ?_⟩⟩
    · exact absurd issued (quiet ev mem)
    · have last : ⟨.ctrlReadU32 (hbicapReg .status), .ok v⟩ ∈ initialPoll t :=
        eq ▸ mem_readsOf_outcomes.mpr ⟨_, pos, Nat.le_refl _, found⟩
      obtain ⟨e, same⟩ := dead _ last
      cases same
  · -- No read matched: an abort is requested, whatever the reads were.
    obtain ⟨misses, eq⟩ := searched_timeout.mp ⟨searched, poll⟩
    apply Iff.intro
    · intro kept
      obtain ⟨_, seen, v, rfl, _⟩ := kept.busy ⟨ev, mem, issued⟩
      obtain ⟨k, pos, le, found⟩ := mem_readsOf_outcomes.mp (eq ▸ seen)
      exact ⟨k, v, pos, le, found⟩
    · intro ⟨k, v, pos, le, found⟩
      have seen : ⟨.ctrlReadU32 (hbicapReg .status), .ok v⟩ ∈ initialPoll t :=
        eq ▸ mem_readsOf_outcomes.mpr ⟨k, pos, le, found⟩
      refine ⟨fun _ => ⟨_, seen, v, rfl, ?_⟩, fun dead => ?_⟩
      · exact busy_of_not_idle fun idle => misses k pos le ⟨v, found, idle⟩
      · obtain ⟨e, same⟩ := dead _ seen
        cases same

/-- The port is idle at the first look, and then the link fails. -/
theorem notMistaken_iff_idle :
    ∃ t r, Run (programUserImage false [1, 2, 3, 4]) t r ∧ NotMistaken t r := by
  let error : BasedError := .xdmaError (.ctrlWriteFailed (.os 5))
  let block : CardEvent := ⟨.ctrlWriteU32
    (firewallReg ctrlAxiFirewall .miSideSoftFaultControl) AxiFirewall.miBlockMask, .error error⟩
  have run : Run (programUserImage false [1, 2, 3, 4])
      (readsOf (hbicapReg .status) [.ok 1] ++ [block]) (.err (.axiFirewall (.basedError error))) :=
    .act (.act .ret)
  have poll : initialPoll (readsOf (hbicapReg .status) [.ok 1] ++ [block]) = _ :=
    initialPoll_readsOf fun ev rest eq status => by cases eq; cases status
  refine ⟨_, _, run, (notMistaken_iff false _ (fun _ => .ok 1) run ?_).mpr ?_⟩
  · rw [poll]
    rfl
  · exact ⟨1, 1, Nat.le_refl 1, by decide, rfl⟩

/-- Every access fails: the reads of the initial poll, and then the request to abort. -/
theorem dead_link_aborts :
    ∃ t r, Run (programUserImage false [1, 2, 3, 4]) t r ∧ (∀ ev ∈ initialPoll t, LinkFailed ev) ∧
      (∃ ev ∈ t, AbortIssued ev) ∧ ¬ NotMistaken t r := by
  let read : ReadOutcome := .error (.xdmaError (.ctrlReadFailed (.os 5)))
  let error : BasedError := .xdmaError (.ctrlWriteFailed (.os 5))
  let request : CardEvent :=
    ⟨.ctrlWriteU32 (hbicapReg .control) ControlRegBit.abort.mask, .error error⟩
  let polls := readsOf (hbicapReg .status) (List.replicate 1000 read)
  have misses : ∀ r ∈ List.replicate 1000 read,
      ¬ Matches StatusRegBit.idle.mask StatusRegBit.idle.mask r := by
    intro r mem ⟨v, eq, _⟩
    rw [List.eq_of_mem_replicate mem] at eq
    simp [read] at eq
  have timeout : Run (pollDoneEvery10ms hbicap (Duration.fromSecs 10)) polls notReady :=
    run_pollIdle.mpr (.inr ⟨.timeout misses List.length_replicate, rfl⟩)
  have wait : Run (awaitIdle false) (polls ++ [request]) (.err (.hbicap (.basedError error))) :=
    Io.run_seq.mpr (.inl ⟨polls, [request], _, rfl,
      Io.run_attempt.mpr (.inr (.inl ⟨_, rfl, timeout⟩)), .act .ret⟩)
  have run : Run (programUserImage false [1, 2, 3, 4]) (polls ++ [request])
      (.err (.hbicap (.basedError error))) := by
    rw [programUserImage_eq]
    exact Io.run_seq.mpr (.inr (.inl ⟨_, rfl, wait⟩))
  have poll : initialPoll (polls ++ [request]) = polls :=
    initialPoll_readsOf fun ev rest eq status => by cases eq; cases status
  have dead : ∀ ev ∈ initialPoll (polls ++ [request]), LinkFailed ev := by
    intro ev mem
    rw [poll] at mem
    obtain ⟨r, mem', rfl⟩ := List.mem_map.mp mem
    rw [List.eq_of_mem_replicate mem']
    exact ⟨_, rfl⟩
  have issued : ∃ ev ∈ polls ++ [request], AbortIssued ev :=
    ⟨request, List.mem_append_right _ List.mem_cons_self, rfl⟩
  refine ⟨_, _, run, dead, issued, fun kept => ?_⟩
  obtain ⟨ev, mem, v, rfl, _⟩ := kept.busy issued
  obtain ⟨e, eq⟩ := dead _ mem
  cases eq

end Warpshell.U55n
