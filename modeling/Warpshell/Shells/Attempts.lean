import Warpshell.Interaction.History
import Warpshell.Shells.Delivery

/-!
# One attempt after the other

Reprogrammings that may fail at any of their accesses, and are followed by others. Up to the transfer
of its image, an attempt does not get in the way of what is still queued from the one before
(`Gentle`); from there on, what it leaves behind is a queue of its own.
-/

namespace Warpshell.U55n
open Interaction Hbicap

/-! ## What an attempt leaves behind -/

/-- The accesses that leave the words in the queue where they are. -/
def Gentle : Access → Prop
  | .ctrlReadU32 _ => True
  | .ctrlWriteU32 addr v => hbicap.locate addr = none ∨
      addr = hbicap.ctrlIf.baseAddr + Reg.control.offset ∧ v = ControlRegBit.abort.mask
  | _ => False

/-- An attempt that fails has left the queue to the one before, or has put its own words into it. -/
def Left (base prev words : List UInt32) (s : Port) : Prop :=
  Queued base prev s ∨ ∃ part, part <+: prev ∧ Queued (base ++ part) words s

section
variable {base prev words ws : List UInt32} {s s' : Port} {debug : Bool}

/-- A gentle access leaves the queue as it is. -/
lemma Queued.answers {e : Access} {r : e.Answer} (h : Queued base words s) (gentle : Gentle e)
    (an : hbicap.world.answers s e r s') : Queued base words s' := by
  cases an with
  | read => exact h
  | readFailed => exact h
  | @write addr v reg r located =>
    obtain elsewhere | ⟨rfl, rfl⟩ := gentle
    · cases elsewhere.symm.trans located
    · obtain rfl := Option.some.inj ((locate_reg hbicap .control).symm.trans located)
      exact ⟨h.part, h.room, h.writing⟩
  | writeElsewhere => exact h
  | writeFailed => exact h
  | dmaRead => exact gentle.elim
  | dmaReadFailed => exact gentle.elim
  | dmaWrite => exact gentle.elim
  | dmaWriteFailed => exact gentle.elim
  | dmaElsewhere => exact h

/-- A part of gentle accesses leaves the queue as it is. -/
lemma leaves_gentle {ε α : Type} {x : Driver ε α} {P : Port → Prop}
    (only : Only (fun _ => True) Gentle x) (start : ∀ s, P s → Queued base words s) :
    hbicap.world.Leaves P x (Queued base words) :=
  World.Leaves.of_only only stable_queued (fun _ _ _ _ gentle h an => h.answers gentle an) start

lemma stable_left : hbicap.world.Stable (Left base prev words) := by
  intro s s' h acts
  obtain h | ⟨part, pre, h⟩ := h
  · exact .inl (h.acts acts)
  · exact .inr ⟨part, pre, h.acts acts⟩

/-- A port at rest after a part of the words has an empty queue of them. -/
lemma Rested.queued {part : List UInt32} (pre : part <+: prev) (h : Rested (base ++ part) s) :
    Queued base prev s := by
  obtain ⟨d, put, l, n, r, regs, rfl⟩ := h
  refine ⟨⟨part, put, ?_⟩, Nat.zero_le n, .inl rfl⟩
  rwa [List.append_nil]

/-- A port that has put all words has an empty queue of them. -/
lemma Delivered.queued (h : Delivered ws words s) : Queued ws words s := by
  have all := h.log
  obtain ⟨d, _, l, r, regs, rfl⟩ := h
  have pre : words ++ [] <+: words := by simp
  exact ⟨⟨words, all, pre⟩, Nat.le_refl 0, .inl rfl⟩

/-! ## Gentle parts -/

/-- A gentle register write is gentle. -/
lemma only_setReg {core : BaseParam} {offset : Nat} {v : UInt32} {ε : Type} {f : BasedError → ε}
    (gentle : Gentle (.ctrlWriteU32 (core.baseAddr + offset) v)) :
    Only (fun _ => True) Gentle ((basedCtrlWriteU32 core offset v).mapErr f : Driver ε Unit) :=
  Io.only_mapErr (Only.bind (only_access gentle) fun _ => only_ret)

/-- A poll is gentle. -/
lemma only_poll {reg : Reg} {mask expected : UInt32} {t : Duration} :
    Only (fun _ => True) Gentle (pollEvery10ms hbicap reg mask expected t) := by
  refine Io.only_mapErr (Only.bind (only_position ?_) fun pos => ?_)
  · exact Only.bind (only_access trivial) fun _ => only_ret
  · cases pos with
    | none => exact only_ret
    | some pos => exact only_ret

/-- The debug output is gentle. -/
lemma only_debug {reg : Reg} : Only (fun _ => True) Gentle (debugHbicapReg debug hbicap reg) := by
  cases debug with
  | false => exact only_ret
  | true =>
    refine Io.only_seq (Io.only_mapErr (Only.bind (only_access trivial) fun _ => only_ret)) fun _ => ?_
    exact only_ret

/-- An abort is gentle. -/
lemma only_abort : Only (fun _ => True) Gentle (abort debug hbicap) := by
  refine Io.only_seq (only_setReg (.inr ⟨rfl, rfl⟩)) fun _ => ?_
  refine Io.only_seq only_poll fun _ => ?_
  refine Io.only_seq only_debug fun _ => ?_
  refine Io.only_seq only_debug fun _ => ?_
  exact Io.only_seq only_poll fun _ => only_ret

/-- The wait for an idle port is gentle. -/
lemma only_awaitIdle : Only (fun _ => True) Gentle (awaitIdle debug) := by
  refine Io.only_seq (Only.bind only_poll fun o => ?_) fun result => ?_
  · cases o with
    | ok a => exact only_ret
    | err e => exact only_ret
    | panic => exact only_ret
  · match result with
    | .error (.basedError (.regMaskNotAsExpected _ _ _)) => exact Io.only_mapErr only_abort
    | .error (.basedError (.xdmaError _)) => exact only_ret
    | .ok _ => exact only_ret

/-! ## The transfer -/

/-- A write to another core leaves the queue as it is. -/
lemma leaves_write_elsewhere {core : BaseParam} {offset : Nat} {v : UInt32} {ε : Type}
    {f : BasedError → ε} {P : Port → Prop}
    (elsewhere : hbicap.locate (core.baseAddr + offset) = none) (start : ∀ s, P s → Queued base words s) :
    hbicap.world.Leaves P ((basedCtrlWriteU32 core offset v).mapErr f) (Queued base words) :=
  leaves_gentle (only_setReg (.inl elsewhere)) start

/-- Unblocking a firewall leaves the delivered words where they are. -/
lemma leaves_unblock {core : BaseParam}
    (control : hbicap.locate (core.baseAddr + AxiFirewall.Reg.miSideSoftFaultControl.offset) = none)
    (unblock : hbicap.locate (core.baseAddr + AxiFirewall.Reg.miSideUnblockControl.offset) = none) :
    hbicap.world.Leaves (Delivered ws words) ((AxiFirewall.unblockMi core).mapErr Error.axiFirewall)
      (Queued ws words) := by
  have queued : ∀ s, Delivered ws words s → Queued ws words s := fun _ => Delivered.queued
  refine World.Leaves.mapErr (World.Leaves.bind (leaves_write_elsewhere control queued)
    (World.Triple.mapErr (triple_write_elsewhere control stable_delivered)) fun _ => ?_)
  exact leaves_write_elsewhere unblock queued

/-- Only here do the words of the image come into play. -/
lemma leaves_writeBitstream {part : List UInt32} (pre : part <+: prev) (small : words.length < 2 ^ 30) :
    hbicap.world.Leaves (Rested (base ++ part)) (writeBitstream hbicap (words.flatMap toLeBytes))
      (Left base prev words) := by
  let Announced (s : Port) : Prop := ∃ d, puts d = base ++ part ∧ ∃ l r, Resting l words.length r d s
  have stable : hbicap.world.Stable Announced :=
    fun s s' ⟨d, put, l, r, rest⟩ acts => ⟨d, put, l, r, rest.acts acts⟩
  have set : ∀ s, Rested (base ++ part) s →
      Announced (s.set (announcedWords (words.flatMap toLeBytes).length) .size) := by
    rintro _ ⟨d, put, l, n, r, regs, rfl⟩
    exact ⟨d, put, l, r, regs, by rw [Port.set, announced_words small]⟩
  refine World.Leaves.bind (K := fun _ => Announced) ?_ (port_write stable_rested stable set) fun _ => ?_
  · refine World.Leaves.mapErr (World.Leaves.access stable_rested stable_left fun s r s' rest an => ?_)
    cases an with
    | write located =>
      obtain rfl := Option.some.inj ((locate_reg hbicap .size).symm.trans located)
      obtain ⟨d, put, l, r, announced⟩ := set s rest
      exact .inl (Rested.queued pre ⟨d, put, l, _, r, announced⟩)
    | writeElsewhere => exact .inl (rest.queued pre)
    | writeFailed => exact .inl (rest.queued pre)
    | dmaElsewhere => exact .inl (rest.queued pre)
  · refine World.Leaves.mapErr (World.Leaves.access stable stable_left ?_)
    have queued : ∀ {d l r n} (regs : ConfigLogicReg → UInt32), puts d = base ++ part →
        Queued (base ++ part) words
          ⟨regs, l, words.length, (leWords (words.flatMap toLeBytes)).take n, r, false, false, d⟩ := by
      intro d l r n regs put
      rw [leWords_words]
      refine ⟨⟨[], ?_, List.take_prefix n words⟩, (List.take_prefix n words).length_le, .inr rfl⟩
      rwa [List.append_nil]
    rintro _ r s' ⟨d, put, l, r, regs, rfl⟩ an
    cases an with
    | dmaWrite =>
      have whole := queued (n := words.length) (l := l) (r := r) regs put
      rw [leWords_words, List.take_length] at whole
      refine .inr ⟨part, pre, ?_⟩
      rw [leWords_words]
      exact whole
    | dmaWriteFailed => exact .inr ⟨part, pre, queued regs put⟩
    | dmaElsewhere _ _ _ other => exact absurd rfl (other _)

/-- An attempt leaves the queue to the one before, or has put its own words into it. -/
lemma leaves_programUserImage (debug : Bool) (small : words.length < 2 ^ 30) :
    hbicap.world.Leaves (fun s => s.aborting = false ∧ Queued base prev s)
      (programUserImage debug (words.flatMap toLeBytes)) (Left base prev words) := by
  have early : ∀ {α : Type} {x : Driver Error α} {P : Port → Prop},
      hbicap.world.Leaves P x (Queued base prev) → hbicap.world.Leaves P x (Left base prev words) :=
    fun l => l.post fun _ => .inl
  have await : hbicap.world.Triple (fun s => s.aborting = false ∧ Queued base prev s) (awaitIdle debug)
      fun _ => Ready base prev :=
    triple_awaitIdle stable_settled stable_ready triple_idle_queued triple_abort_queued
  refine World.Leaves.bind (early (leaves_gentle only_awaitIdle fun _ h => h.2)) await fun _ => ?_
  refine World.Leaves.cases fun part => World.Leaves.given fun pre => ?_
  have rested : ∀ s, Rested (base ++ part) s → Queued base prev s := fun s rest => rest.queued pre
  have late : ∀ {α : Type} {x : Driver Error α} {P : Port → Prop},
      hbicap.world.Leaves P x (Queued (base ++ part) words) →
        hbicap.world.Leaves P x (Left base prev words) :=
    fun l => l.post fun _ h => .inr ⟨part, pre, h⟩
  refine World.Leaves.bind (K := fun _ => Rested (base ++ part)) ?_ ?_ fun _ => ?_
  · exact early (World.Leaves.mapErr (leaves_write_elsewhere (by decide) rested))
  · exact World.Triple.mapErr (World.Triple.mapErr (triple_write_elsewhere (by decide) stable_rested))
  refine World.Leaves.bind (K := fun _ => Rested (base ++ part)) ?_ ?_ fun _ => ?_
  · exact early (World.Leaves.mapErr (leaves_write_elsewhere (by decide) rested))
  · exact World.Triple.mapErr (World.Triple.mapErr (triple_write_elsewhere (by decide) stable_rested))
  refine World.Leaves.bind (K := fun _ => InTransit (base ++ part) words) ?_ ?_ fun _ => ?_
  · exact World.Leaves.mapErr (leaves_writeBitstream pre small)
  · exact World.Triple.mapErr (triple_send small)
  refine World.Leaves.bind (K := fun _ => Delivered (base ++ part) words) ?_ ?_ fun _ => ?_
  · exact late (World.Leaves.mapErr (leaves_gentle only_poll fun _ => InTransit.queued))
  · exact World.Triple.mapErr triple_arrive
  refine World.Leaves.bind (K := fun _ => Delivered (base ++ part) words) ?_ ?_ fun _ => ?_
  · exact late (leaves_unblock (by decide) (by decide))
  · exact triple_unblock stable_delivered (by decide) (by decide)
  · exact late (leaves_unblock (by decide) (by decide))

end

/-! ## Attempts -/

/-- A reprogramming with an image of whole words. -/
structure Attempt where
  debug : Bool
  words : List UInt32
  small : words.length < 2 ^ 30

/-- Attempts in any order, by a client that goes on after errors. -/
def attempts : Service Access Access.Answer Port Attempt fun _ => Outcome Error Unit where
  prog a := programUserImage a.debug (a.words.flatMap toLeBytes)
  env := Port.Acts
  answers _ := Port.Answers hbicap

/-- An attempt that has returned. -/
abbrev Attempted : Type := Returned Port Attempt fun _ => Outcome Error Unit

/-- What an attempt may have put on the port: words from the beginning of its image, and all of them
    when it has succeeded. -/
def Share (d : Attempted) (part : List UInt32) : Prop :=
  part <+: d.call.words ∧ (d.result = .ok () → part = d.call.words)

/-- However many of the queued words arrive, the attempts have their shares. -/
def Accounts (ws : List UInt32) (ds : List Attempted) (base queue : List UInt32) : Prop :=
  ∀ part, part <+: queue → ∃ parts, List.Forall₂ Share ds parts ∧ ws ++ parts.flatten = base ++ part

/-- No attempt began while an abort was under way. -/
def Timely (ds : List Attempted) : Prop := ∀ d ∈ ds, d.start.aborting = false

/-- What is known between the attempts. -/
def Book (ws : List UInt32) (ds : List Attempted) (s : Port) : Prop :=
  Timely ds → ∃ base queue, Queued base queue s ∧ Accounts ws ds base queue

section
variable {ws base prev queue : List UInt32} {ds : List Attempted} {d : Attempted} {s s' : Port}

/-- An attempt that has put nothing on the port, or whatever the queue lets through. -/
lemma Accounts.failure (acc : Accounts ws ds base prev) (failed : d.result ≠ .ok ())
    (left : Left base prev d.call.words s) :
    ∃ base queue, Queued base queue s ∧ Accounts ws (ds ++ [d]) base queue := by
  have share : ∀ part, part <+: d.call.words → Share d part :=
    fun part pre => ⟨pre, fun ok => absurd ok failed⟩
  obtain queued | ⟨part, pre, queued⟩ := left
  · refine ⟨base, prev, queued, fun part pre => ?_⟩
    obtain ⟨parts, shares, eq⟩ := acc part pre
    refine ⟨parts ++ [[]], List.rel_append shares (.cons (share [] List.nil_prefix) .nil), ?_⟩
    rw [List.flatten_append, List.flatten_singleton, List.append_nil, eq]
  · refine ⟨base ++ part, d.call.words, queued, fun part' pre' => ?_⟩
    obtain ⟨parts, shares, eq⟩ := acc part pre
    refine ⟨parts ++ [part'], List.rel_append shares (.cons (share part' pre') .nil), ?_⟩
    rw [List.flatten_append, ← List.append_assoc, eq, List.flatten_singleton]

/-- An attempt that has put all of its words on the port. -/
lemma Accounts.success {part : List UInt32} (acc : Accounts ws ds base prev) (pre : part <+: prev) :
    Accounts ws (ds ++ [d]) (base ++ part ++ d.call.words) [] := by
  intro part' pre'
  obtain ⟨parts, shares, eq⟩ := acc part pre
  have share : Share d d.call.words := ⟨List.prefix_rfl, fun _ => rfl⟩
  refine ⟨parts ++ [d.call.words], List.rel_append shares (.cons share .nil), ?_⟩
  rw [List.flatten_append, ← List.append_assoc, eq, List.flatten_singleton, List.prefix_nil.mp pre',
    List.append_nil]

/-- Before the first attempt, the books are empty. -/
lemma book_nil (empty : s.writeFifo = []) : Book (puts s.log) [] s := by
  refine fun _ => ⟨puts s.log, [], queued_nil empty, fun part pre => ⟨[], .nil, ?_⟩⟩
  rw [List.prefix_nil.mp pre]
  rfl

/-- The books are kept from attempt to attempt. -/
lemma recorded_attempts : attempts.Recorded (Book ws) := by
  apply Service.Recorded.mk
  · intro ds s s' book acts timely
    obtain ⟨base, queue, queued, acc⟩ := book timely
    exact ⟨base, queue, queued.acts acts, acc⟩
  · intro ds a s book
    let D (o : Outcome Error Unit) (s' : Port) : Attempted := ⟨a, s, o, s'⟩
    by_cases now : Timely ds ∧ s.aborting = false
    · obtain ⟨base, prev, queued, acc⟩ := book now.1
      have ends := (leaves_programUserImage a.debug a.small).ends
        (triple_programUserImage a.debug a.small) ⟨now.2, queued⟩
      refine World.wp_mono ends fun o s' h => ?_
      cases o with
      | ok u =>
        obtain ⟨part, pre, delivered⟩ := h
        have queued := queued_nil delivered.empty
        rw [delivered.log] at queued
        exact fun _ => ⟨base ++ part ++ a.words, [], queued, acc.success (d := D (.ok u) s') pre⟩
      | err e => exact fun _ => acc.failure (d := D (.err e) s') (by simp [D]) h
      | panic => exact fun _ => acc.failure (d := D .panic s') (by simp [D]) h
    · refine World.wp_of_steps fun o s' _ timely => absurd ⟨?_, ?_⟩ now
      · exact fun d mem => timely d (List.mem_append_left _ mem)
      · exact timely (D o s') (List.mem_append_right _ (List.mem_singleton_self _))

/-- An abort that is under way can come to its end. -/
lemma env_settled (queued : Queued base queue s) :
    ∃ s', hbicap.world.Env s s' ∧ s'.aborting = false ∧ Queued base queue s' := by
  cases aborting : s.aborting with
  | false => exact ⟨s, .refl, aborting, queued⟩
  | true =>
    have acts : Port.Acts s _ := .abortDone false aborting
    exact ⟨_, .single acts, rfl, queued.acts acts⟩

end

/-- Any number of attempts at a reprogramming, each of which may fail at any of its accesses, as long as
    none is begun while an abort is under way: what was put on the port in the end are their shares, one
    after the other, where the share of an attempt is a part of its image from the beginning, and the
    whole image if it has succeeded. And wherever this has led to, another attempt can succeed. -/
theorem attempts_share (s : Port) (empty : s.writeFifo = []) {S} (reach : Relation.ReflTransGen
      attempts.Step (Session.start s) S) (idle : S.current = none) (timely : Timely S.returned) :
    (∃ parts, List.Forall₂ Share S.returned parts ∧ puts S.world.log = puts s.log ++ parts.flatten) ∧
    ∀ a, ∃ S' d, Relation.ReflTransGen attempts.Step S S' ∧ S'.current = none ∧
      S'.returned = S.returned ++ [d] ∧ Timely S'.returned ∧ d.call = a ∧ d.result = .ok () := by
  obtain ⟨base, queue, queued, acc⟩ :=
    (recorded_attempts.reachable (book_nil empty) reach).idle idle timely
  apply And.intro
  · obtain ⟨part, put, pre⟩ := queued.part
    obtain ⟨parts, shares, eq⟩ := acc part ((List.prefix_append part _).trans pre)
    exact ⟨parts, shares, put.trans eq.symm⟩
  · intro a
    obtain ⟨s₁, en, settled, queued⟩ := env_settled queued
    obtain ⟨_, s₂, steps⟩ := (triple_programUserImage a.debug a.small).returns s₁
      ⟨settled, queued⟩
    obtain ⟨world, current, returned⟩ := S
    obtain rfl : current = none := idle
    have wait : Relation.ReflTransGen attempts.Step ⟨world, none, returned⟩ ⟨s₁, none, returned⟩ :=
      Service.step_env returned none en
    refine ⟨⟨s₂, none, returned ++ [⟨a, s₁, .ok (), s₂⟩]⟩, ⟨a, s₁, .ok (), s₂⟩, ?_, rfl, rfl, ?_, rfl,
      rfl⟩
    · exact wait.trans (Service.step_completes (T := attempts) returned steps)
    · intro d mem
      rcases List.mem_append.mp mem with mem | mem
      · exact timely d mem
      · rw [List.mem_singleton.mp mem]
        exact settled

/-- A link that is lost after the first access, and another attempt. -/
theorem attempts_share_retry : ∃ (s : Port) (S : Session Access Access.Answer Port Attempt
      fun _ => Outcome Error Unit), Relation.ReflTransGen attempts.Step (Session.start s) S ∧
    S.current = none ∧ S.returned.length = 2 ∧ puts S.world.log = [syncCmd] := by
  let s : Port := ⟨fun _ => 0, ⟨false, .cmd, 0, 0⟩, 0, [], [], false, false, []⟩
  let e : BasedError := .xdmaError (.ctrlWriteFailed (.os 5))
  let a : Attempt := ⟨false, [], by decide⟩
  have idle : hbicap.world.answers s
      (.ctrlReadU32 (hbicap.ctrlIf.baseAddr + Reg.status.offset)) (.ok 1) s := by
    refine Port.Answers.read fun reg located => ?_
    obtain rfl := Option.some.inj ((locate_reg hbicap .status).symm.trans located)
    exact shows_idle rfl rfl
  have lost : hbicap.world.answers s (.ctrlWriteU32 (ctrlAxiFirewall.baseAddr +
      AxiFirewall.Reg.miSideSoftFaultControl.offset) AxiFirewall.miBlockMask) (.error e) s :=
    Port.Answers.writeFailed
  have fails : (attempts.world a).Steps (s, attempts.prog a)
      (s, .ret (.err (.axiFirewall (.basedError e)))) :=
    .head (.act idle) (.single (.act lost))
  have reach := Service.step_completes (T := attempts) [] fails
  obtain ⟨_, again⟩ := attempts_share s rfl reach rfl fun d mem => (by rw [List.mem_singleton.mp mem])
  obtain ⟨S, d, more, none, both, timely, call, ok⟩ := again ⟨false, [syncCmd], by decide⟩
  obtain ⟨⟨parts, shares, put⟩, _⟩ := attempts_share s rfl (reach.trans more) none timely
  refine ⟨s, S, reach.trans more, none, by rw [both]; rfl, put.trans ?_⟩
  rw [both] at shares
  cases shares with
  | cons first rest =>
    cases rest with
    | cons second rest =>
      cases rest
      have nothing := List.prefix_nil.mp first.1
      have whole := second.2 ok
      rw [call] at whole
      rw [nothing, whole]
      rfl

end Warpshell.U55n
