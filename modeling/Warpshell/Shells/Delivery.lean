import Warpshell.Port.Readback
import Warpshell.Shells.XilinxU55nXdmaStd

/-!
# Delivery of a user image

A reprogramming, seen from the configuration port: whether it finds the port idle or has to abort what
the port is doing, the words of the image are put on the port, and no others.
-/

namespace Warpshell.U55n
open Interaction Hbicap

/-- The words that were put on the port. -/
def puts (log : List Move) : List UInt32 :=
  log.filterMap fun
    | .put w => some w
    | _ => none

/-- After `base`, words from the beginning of `words` were put on the port, and the ones that are on
    their way are the next of them. -/
structure Queued (base words : List UInt32) (s : Port) : Prop where
  part : ∃ part, puts s.log = base ++ part ∧ part ++ s.writeFifo <+: words
  room : s.writeFifo.length ≤ s.left
  writing : s.writeFifo = [] ∨ s.reading = false

/-- An abort is not over, or it has stopped everything. -/
def Stopping (base words : List UInt32) (s : Port) : Prop :=
  Queued base words s ∧ (s.aborting = true ∨ s.writeFifo = [] ∧ s.reading = false)

/-- Nothing is going on. -/
def Rested (ws : List UInt32) (s : Port) : Prop :=
  ∃ d, puts d = ws ∧ ∃ l n r, Resting l n r d s

/-- Nothing is going on any more. -/
def Ready (base words : List UInt32) (s : Port) : Prop :=
  ∃ part, part <+: words ∧ Rested (base ++ part) s

/-- The words of the image are on their way. -/
def InTransit (ws words : List UInt32) (s : Port) : Prop :=
  ∃ d, puts d = ws ∧ ∃ l r, Sending l words r d s

/-- The words of the image were put on the port. -/
def Delivered (ws words : List UInt32) (s : Port) : Prop :=
  ∃ d, puts d = ws ∧ ∃ l r, Resting (Logic.takeAll l words) 0 r (d ++ words.map .put) s

section
variable {base ws words : List UInt32} {s s' : Port}

lemma puts_append (d d' : List Move) : puts (d ++ d') = puts d ++ puts d' := List.filterMap_append

lemma puts_map : puts (words.map .put) = words := by
  rw [puts, List.filterMap_map]
  exact List.filterMap_some

/-- After a delivery, the log ends with the words of the image. -/
lemma Delivered.log (h : Delivered ws words s) : puts s.log = ws ++ words := by
  obtain ⟨d, put, l, r, regs, rfl⟩ := h
  show puts (d ++ words.map .put) = ws ++ words
  rw [puts_append, put, puts_map]

/-- After a delivery, no word is on its way. -/
lemma Delivered.empty (h : Delivered ws words s) : s.writeFifo = [] := by
  obtain ⟨d, _, l, r, regs, rfl⟩ := h
  rfl

/-- Words in transit are in the queue. -/
lemma InTransit.queued (h : InTransit ws words s) : Queued ws words s := by
  obtain ⟨d, put, l, r, regs, sent, rest, rfl, rfl⟩ := h
  refine ⟨⟨sent, ?_, List.prefix_rfl⟩, Nat.le_refl _, .inr rfl⟩
  show puts (d ++ sent.map .put) = ws ++ sent
  rw [puts_append, put, puts_map]

/-- A port that no word is on its way to. -/
lemma queued_nil (empty : s.writeFifo = []) : Queued (puts s.log) [] s := by
  refine ⟨⟨[], (List.append_nil _).symm, ?_⟩, ?_, .inl empty⟩
  · rw [empty]
    exact List.prefix_rfl
  · rw [empty]
    exact Nat.zero_le _

/-- Whatever the port does, it puts the words of the queue in order. -/
lemma Queued.acts (h : Queued base words s) (acts : Port.Acts s s') : Queued base words s' := by
  obtain ⟨⟨part, put, pre⟩, room, writing⟩ := h
  cases acts with
  | @put w ws n reading left wait =>
    rw [wait] at pre room
    refine ⟨⟨part ++ [w], ?_, ?_⟩, ?_, .inr reading⟩
    · rw [puts_append, put, List.append_assoc]
      rfl
    · rwa [List.append_assoc]
    · rw [left] at room
      exact Nat.le_of_succ_le_succ room
  | deliver reading left =>
    have empty := writing.resolve_right fun clear => Bool.false_ne_true (clear.symm.trans reading)
    refine ⟨⟨part, ?_, pre⟩, ?_, writing⟩
    · rw [puts_append, put]
      exact List.append_nil _
    · rw [empty]
      exact Nat.zero_le _
  | starve v reading left =>
    have empty := writing.resolve_right fun clear => Bool.false_ne_true (clear.symm.trans reading)
    refine ⟨⟨part, ?_, pre⟩, ?_, writing⟩
    · rw [puts_append, put]
      exact List.append_nil _
    · rw [empty]
      exact Nat.zero_le _
  | change => exact ⟨⟨part, put, pre⟩, room, writing⟩
  | readDone => exact ⟨⟨part, put, pre⟩, room, .inr rfl⟩
  | abortDone =>
    refine ⟨⟨part, put, ?_⟩, Nat.le_refl 0, .inl rfl⟩
    rw [List.append_nil]
    exact (List.prefix_append part _).trans pre

lemma stable_queued : hbicap.world.Stable (Queued base words) := fun _ _ => Queued.acts

/-- No abort comes out of nothing. -/
lemma stable_settled :
    hbicap.world.Stable fun s => s.aborting = false ∧ Queued base words s := by
  intro s s' ⟨aborting, h⟩ acts
  have kept := h.acts acts
  cases acts with
  | abortDone _ set => cases aborting.symm.trans set
  | _ => exact ⟨aborting, kept⟩

/-- What is stopping stops. -/
lemma stable_stopping : hbicap.world.Stable (Stopping base words) := by
  intro s s' ⟨h, stop⟩ acts
  have kept := h.acts acts
  refine ⟨kept, ?_⟩
  obtain set | ⟨empty, reading⟩ := stop
  · cases acts with
    | abortDone => exact .inr ⟨rfl, rfl⟩
    | _ => exact .inl set
  · cases acts with
    | put _ _ wait => cases empty.symm.trans wait
    | deliver set => cases reading.symm.trans set
    | starve _ set => cases reading.symm.trans set
    | readDone set => cases reading.symm.trans set
    | abortDone => exact .inr ⟨rfl, rfl⟩
    | change => exact .inr ⟨empty, reading⟩

lemma stable_rested : hbicap.world.Stable (Rested ws) := by
  intro s s' ⟨d, put, l, n, r, rest⟩ acts
  exact ⟨d, put, l, n, r, rest.acts acts⟩

lemma stable_ready : hbicap.world.Stable (Ready base words) := by
  intro s s' ⟨part, pre, rest⟩ acts
  exact ⟨part, pre, stable_rested s s' rest acts⟩

lemma stable_delivered : hbicap.world.Stable (Delivered ws words) := by
  intro s s' ⟨d, put, l, r, rest⟩ acts
  exact ⟨d, put, l, r, rest.acts acts⟩

/-- A queue that is empty, with nothing under way, is ready. -/
lemma Queued.ready (h : Queued base words s) (aborting : s.aborting = false)
    (reading : s.reading = false) (empty : s.writeFifo = []) : Ready base words s := by
  obtain ⟨⟨part, put, pre⟩, _, _⟩ := h
  obtain ⟨regs, l, n, w, r, _, _, log⟩ := s
  obtain rfl := aborting
  obtain rfl := empty
  obtain rfl := reading
  rw [List.append_nil] at pre
  exact ⟨part, pre, log, put, l, n, r, regs, rfl⟩

/-! ## The way to an idle port -/

/-- What is under way can come to its end. -/
lemma env_idle (h : Queued base words s) :
    ∃ s', hbicap.world.Env s s' ∧ s'.reading = false ∧ s'.writeFifo = [] := by
  obtain ⟨regs, l, n, w, r, reading, aborting, log⟩ := s
  cases reading with
  | false =>
    induction w generalizing l n log with
    | nil => exact ⟨_, .refl, rfl, rfl⟩
    | cons w ws ih =>
      have pos : 0 < n := Nat.lt_of_lt_of_le (Nat.succ_pos ws.length) h.room
      obtain ⟨n, rfl⟩ := Nat.exists_eq_succ_of_ne_zero (Nat.ne_of_gt pos)
      have acts : Port.Acts ⟨regs, l, n + 1, w :: ws, r, false, aborting, log⟩
          ⟨regs, l.take w, n, ws, r, false, aborting, log ++ [.put w]⟩ := .put rfl rfl rfl
      obtain ⟨s', en, done⟩ := ih (l.take w) n _ (h.acts acts)
      exact ⟨s', .head acts en, done⟩
  | true =>
    have empty : w = [] := h.writing.resolve_right Bool.noConfusion
    clear h
    subst empty
    induction n generalizing l r log with
    | zero => exact ⟨_, .single (.readDone rfl rfl), rfl, rfl⟩
    | succ n ih =>
      by_cases none : l.requested = 0
      · obtain ⟨s', en, done⟩ := ih l (r ++ [0]) (log ++ [.stray 0])
        exact ⟨s', .head (.starve 0 rfl rfl none) en, done⟩
      · obtain ⟨m, some⟩ := Nat.exists_eq_succ_of_ne_zero none
        obtain ⟨s', en, done⟩ := ih (l.deliver 1) (r ++ [regs l.reg]) (log ++ [.read l.reg (regs l.reg)])
        exact ⟨s', .head (.deliver rfl rfl some) en, done⟩

/-- A request for an abort changes nothing else. -/
lemma set_abort (s : Port) : s.set ControlRegBit.abort.mask .control = { s with aborting := true } := rfl

/-- An abort makes the port ready, whatever is in the queue. -/
lemma triple_abort_queued {debug : Bool} :
    hbicap.world.Triple (fun s => s.aborting = false ∧ Queued base words s) (abort debug hbicap)
      fun _ => Ready base words := by
  apply triple_abort stable_settled stable_stopping stable_ready
  · rintro s ⟨_, ⟨part, room, writing⟩⟩
    rw [set_abort]
    exact ⟨⟨part, room, writing⟩, .inl rfl⟩
  · rintro s ⟨h, stop⟩ clear
    obtain set | ⟨empty, reading⟩ := stop
    · cases clear.symm.trans set
    · exact h.ready clear reading empty
  · rintro s ⟨_, stop⟩
    cases set : s.aborting with
    | true => exact ⟨_, .single (.abortDone false set), rfl, rfl, rfl⟩
    | false =>
      obtain ⟨empty, reading⟩ := stop.resolve_left fun set' => Bool.false_ne_true (set.symm.trans set')
      exact ⟨s, .refl, empty, reading, set⟩

/-- Waiting for an idle port is the wait, or an abort after a wait that was in vain. -/
lemma triple_awaitIdle {debug : Bool} {P K : Port → Prop} (stP : hbicap.world.Stable P)
    (stK : hbicap.world.Stable K)
    (wait : hbicap.world.Triple P (pollDoneEvery10ms hbicap (Duration.fromSecs 10)) fun _ => K)
    (stop : hbicap.world.Triple P (abort debug hbicap) fun _ => K) :
    hbicap.world.Triple P (awaitIdle debug) fun _ => K := by
  refine World.Triple.attempt (K := fun _ => K) (F := fun _ => P) wait ?_ ?_ ?_
  · exact fun s hs => port_poll_fails stP hs
  · exact fun _ => World.Triple.pure (K := fun _ => K) stK
  · intro e s hs
    match e with
    | .basedError (.regMaskNotAsExpected _ _ _) =>
      have stop : hbicap.world.Triple P ((abort debug hbicap).mapErr Error.hbicap) fun _ => K :=
        World.Triple.mapErr stop
      exact stop.holds s hs
    | .basedError (.xdmaError _) => exact fun _ _ => trivial

/-- A wait that sees the port idle has found it ready, and it can see it idle. -/
lemma triple_idle_queued :
    hbicap.world.Triple (fun s => s.aborting = false ∧ Queued base words s)
      (pollDoneEvery10ms hbicap (Duration.fromSecs 10)) fun _ => Ready base words := by
  apply port_poll stable_settled stable_ready
  · rintro s v ⟨aborting, h⟩ idle seen
    have reading : s.reading = false := Bool.eq_false_of_not_eq_true fun set => idle seen (.inl set)
    have empty : s.writeFifo = [] := by
      by_contra more
      exact idle seen (.inr ⟨Nat.lt_of_lt_of_le (List.length_pos_of_ne_nil more) h.room, more⟩)
    exact h.ready aborting reading empty
  · rintro s ⟨_, h⟩
    obtain ⟨s', en, reading, empty⟩ := env_idle h
    exact ⟨s', StatusRegBit.idle.mask, en, shows_idle reading empty, by decide⟩

/-! ## The image -/

/-- The registers of the other cores are none of the port. -/
lemma triple_write_elsewhere {core : BaseParam} {offset : Nat} {v : UInt32} {P : Port → Prop}
    (elsewhere : hbicap.locate (core.baseAddr + offset) = none) (stP : hbicap.world.Stable P) :
    hbicap.world.Triple P (basedCtrlWriteU32 core offset v) fun _ => P := by
  refine World.Triple.access stP (fun _ => stP) ?_ ?_
  · intro s r s' _ hs an eq
    cases an with
    | write located => cases elsewhere.symm.trans located
    | writeElsewhere => exact hs
    | writeFailed => exact hs
    | dmaElsewhere other => exact absurd rfl (other _ _)
  · intro s _
    exact ⟨s, .ok (), s, (), .refl, .writeElsewhere elsewhere, rfl⟩

/-- Sending the image puts its words in transit. -/
lemma triple_send (small : words.length < 2 ^ 30) :
    hbicap.world.Triple (Rested ws) (writeBitstream hbicap (words.flatMap toLeBytes))
      fun _ => InTransit ws words := by
  refine World.Triple.cases fun d => World.Triple.given fun put =>
    World.Triple.cases fun l => World.Triple.cases fun n => World.Triple.cases fun r => ?_
  exact (triple_writeBitstream small).post fun _ s sending => ⟨d, put, l, r, sending⟩

/-- The wait after that delivers them. -/
lemma triple_arrive : hbicap.world.Triple (InTransit ws words)
    (pollDoneEvery10ms hbicap (Duration.fromSecs 10)) fun _ => Delivered ws words := by
  refine World.Triple.cases fun d => World.Triple.given fun put =>
    World.Triple.cases fun l => World.Triple.cases fun r => ?_
  exact triple_pollDone.post fun _ s rest => ⟨d, put, l, r, rest⟩

/-- Unblocking a firewall is nothing to the port. -/
lemma triple_unblock {core : BaseParam} {P : Port → Prop} (stP : hbicap.world.Stable P)
    (control : hbicap.locate (core.baseAddr + AxiFirewall.Reg.miSideSoftFaultControl.offset) = none)
    (unblock : hbicap.locate (core.baseAddr + AxiFirewall.Reg.miSideUnblockControl.offset) = none) :
    hbicap.world.Triple P ((AxiFirewall.unblockMi core).mapErr Error.axiFirewall) fun _ => P := by
  refine World.Triple.mapErr (World.Triple.bind (K := fun _ => P) ?_ fun _ => ?_)
  · exact World.Triple.mapErr (triple_write_elsewhere control stP)
  · exact World.Triple.mapErr (triple_write_elsewhere unblock stP)

/-- A reprogramming is the wait for an idle port and the transfer of the image, and the firewalls are
    nothing that the port notices. -/
lemma triple_reprogram {debug : Bool} {image : List UInt8} {P I M D : Port → Prop}
    (stI : hbicap.world.Stable I) (stD : hbicap.world.Stable D)
    (await : hbicap.world.Triple P (awaitIdle debug) fun _ => I)
    (send : hbicap.world.Triple I (writeBitstream hbicap image) fun _ => M)
    (arrive : hbicap.world.Triple M (pollDoneEvery10ms hbicap (Duration.fromSecs 10)) fun _ => D) :
    hbicap.world.Triple P (programUserImage debug image) fun _ => D := by
  refine World.Triple.bind await fun _ => ?_
  refine World.Triple.bind (K := fun _ => I) ?_ fun _ => ?_
  · exact World.Triple.mapErr (World.Triple.mapErr (triple_write_elsewhere (by decide) stI))
  refine World.Triple.bind (K := fun _ => I) ?_ fun _ => ?_
  · exact World.Triple.mapErr (World.Triple.mapErr (triple_write_elsewhere (by decide) stI))
  refine World.Triple.bind (World.Triple.mapErr send) fun _ => ?_
  refine World.Triple.bind (World.Triple.mapErr arrive) fun _ => ?_
  refine World.Triple.bind (triple_unblock stD (by decide) (by decide)) fun _ => ?_
  exact triple_unblock stD (by decide) (by decide)

/-- Words that were on their way may still arrive, or be given up by an abort; then there are the ones
    of the image. -/
lemma triple_programUserImage (debug : Bool) {prev : List UInt32} (small : words.length < 2 ^ 30) :
    hbicap.world.Triple (fun s => s.aborting = false ∧ Queued base prev s)
      (programUserImage debug (words.flatMap toLeBytes))
      fun _ s => ∃ part, part <+: prev ∧ Delivered (base ++ part) words s := by
  apply triple_reprogram (I := Ready base prev)
    (M := fun s => ∃ part, part <+: prev ∧ InTransit (base ++ part) words s) stable_ready
  · intro s s' ⟨part, pre, delivered⟩ acts
    exact ⟨part, pre, stable_delivered s s' delivered acts⟩
  · exact triple_awaitIdle stable_settled stable_ready triple_idle_queued triple_abort_queued
  · refine World.Triple.cases fun part => World.Triple.given fun pre => ?_
    exact (triple_send small).post fun _ s sent => ⟨part, pre, sent⟩
  · refine World.Triple.cases fun part => World.Triple.given fun pre => ?_
    exact triple_arrive.post fun _ s delivered => ⟨part, pre, delivered⟩

/-- Without words on their way there are no others. -/
lemma triple_programUserImage_only {debug : Bool} (small : words.length < 2 ^ 30) :
    hbicap.world.Triple (fun s => s.aborting = false ∧ Queued base [] s)
      (programUserImage debug (words.flatMap toLeBytes)) fun _ => Delivered base words := by
  refine (triple_programUserImage debug small).post fun _ s h => ?_
  obtain ⟨part, pre, delivered⟩ := h
  rwa [List.prefix_nil.mp pre, List.append_nil] at delivered

end

/-- An image of whole words, fewer than `2 ^ 30` of them, is delivered: when a reprogramming succeeds,
    the words that it has put on the port are the words of the image in their order, and no others,
    whatever was being read out when it began and whether or not that had to be aborted. It can succeed
    from every state without an abort under way and without words on their way to the port. -/
theorem programUserImage_delivers (debug : Bool) (words : List UInt32) (small : words.length < 2 ^ 30)
    (s : Port) (settled : s.aborting = false) (empty : s.writeFifo = []) :
    (∀ s', hbicap.world.Steps (s, programUserImage debug (words.flatMap toLeBytes)) (s', .ret (.ok ())) →
      puts s'.log = puts s.log ++ words) ∧
    ∃ s', hbicap.world.Steps (s, programUserImage debug (words.flatMap toLeBytes)) (s', .ret (.ok ())) := by
  have t : hbicap.world.Triple (fun s' => s'.aborting = false ∧ Queued (puts s.log) [] s')
      (programUserImage debug (words.flatMap toLeBytes)) fun _ => Delivered (puts s.log) words :=
    triple_programUserImage_only small
  apply And.intro
  · exact fun s' steps => (t.ends ⟨settled, queued_nil empty⟩ steps).log
  · obtain ⟨_, s', steps⟩ := t.returns s ⟨settled, queued_nil empty⟩
    exact ⟨s', steps⟩

/-- A port that is in the middle of a read. -/
theorem programUserImage_delivers_sync : ∃ s : Port, s.reading = true ∧
    ∃ s', hbicap.world.Steps (s, programUserImage false (([syncCmd] : List UInt32).flatMap toLeBytes))
      (s', .ret (.ok ())) ∧ puts s'.log = [syncCmd] := by
  let s : Port := ⟨fun _ => 0, ⟨true, .stat, 0, 1⟩, 1, [], [], true, false, []⟩
  obtain ⟨arrives, s', steps⟩ := programUserImage_delivers false [syncCmd] (by decide) s rfl rfl
  exact ⟨s, rfl, s', steps, arrives s' steps⟩

end Warpshell.U55n
