import Warpshell.Shells.Trace

/-!
# Isolation during reprogramming

The user design sits behind two firewalls. `program_user_image` must block both before the
configuration port gets anything to do, and may open them again only when the image is in place.
`IdleThen Ps` is the invariant that goes along with the accesses of the call: the port was idle, and
then the milestones `Ps` were passed.
-/

namespace Warpshell.U55n
open Interaction Hbicap

/-- The port was seen idle, and then `Ps` happened, in this order; if an abort was requested, then the
    port was seen idle after that, and the Abort bit clear after that. -/
structure IdleThen (Ps : List (CardEvent → Prop)) (h : List CardEvent) : Prop where
  idle : InOrder (IdleSeen :: Ps) h
  abort : (∃ ev ∈ h, AbortIssued ev) → InOrder (AbortIssued :: IdleSeen :: AbortClearSeen :: Ps) h

def Closed (h : List CardEvent) : Prop := Never (fun ev => UnblocksAny ev.1) h

/-- The port was idle, and then both firewalls were blocked, the control one first. -/
structure Isolated (h : List CardEvent) : Prop where
  blocks : IdleThen [(· = blocked ctrlAxiFirewall), (· = blocked dmaAxiFirewall)] h
  closed : Closed h

/-- The whole image was written, and the port was idle after that. -/
def Configured (image : List UInt8) (h : List CardEvent) : Prop :=
  InOrder [(· = imageWritten image), IdleSeen] h

/-- The milestones of a reprogramming that succeeds. -/
def milestones (image : List UInt8) : List (CardEvent → Prop) :=
  [(· = blocked ctrlAxiFirewall), (· = blocked dmaAxiFirewall), (· = sizeWritten image),
    (· = imageWritten image), IdleSeen, (· = faultCleared dmaAxiFirewall),
    (· = unblocked dmaAxiFirewall), (· = faultCleared ctrlAxiFirewall),
    (· = unblocked ctrlAxiFirewall)]

/-- When an access may be issued. -/
structure Allowed (image : List UInt8) (h : List CardEvent) (e : Access) : Prop where
  starts : Starts e → Isolated h
  unblocks : UnblocksAny e → Configured image h

section
variable {image : List UInt8} {h t : List CardEvent} {Ps : List (CardEvent → Prop)}
  {P : CardEvent → Prop} {x : CardEvent}

lemma IdleThen.concat (i : IdleThen Ps h) (px : P x) (quiet : ¬ AbortIssued x) :
    IdleThen (Ps ++ [P]) (h ++ [x]) := by
  obtain ⟨idle, abort⟩ := i
  refine ⟨idle.concat px, fun ⟨ev, mem, issued⟩ => ?_⟩
  rcases List.mem_append.mp mem with mem | mem
  · exact (abort ⟨ev, mem, issued⟩).concat px
  · rw [List.mem_singleton.mp mem] at issued
    exact absurd issued quiet

/-- Milestones stay passed as long as no abort is requested. -/
lemma IdleThen.append (i : IdleThen Ps h) (quiet : ∀ ev ∈ t, ¬ AbortIssued ev) :
    IdleThen Ps (h ++ t) := by
  obtain ⟨idle, abort⟩ := i
  refine ⟨idle.append t, fun ⟨ev, mem, issued⟩ => ?_⟩
  rcases List.mem_append.mp mem with mem | mem
  · exact (abort ⟨ev, mem, issued⟩).append t
  · exact absurd issued (quiet ev mem)

/-- A port seen idle is idle. -/
lemma SeenIdle.idleThen (s : SeenIdle t) : IdleThen [] t := by
  cases s with
  | @intro ms ev miss seen =>
    refine ⟨.single (List.mem_append_right ms List.mem_cons_self) seen, fun ⟨ev', mem, issued⟩ => ?_⟩
    exact absurd issued (not_abort_of_read (SeenIdle.reads (.intro miss seen) ev' mem))

/-- A port that was aborted has been seen idle, with the abort over after that. -/
lemma Aborted.idleThen (a : Aborted t) : IdleThen [] t := by
  cases a with
  | @intro ms t miss done =>
    cases done with
    | @intro mid ev seen reads clear =>
      obtain ⟨m, mem, seen⟩ := seen
      refine ⟨.single (by simp [mem]) seen, fun _ => ?_⟩
      obtain ⟨before, after, eq⟩ := List.append_of_mem mem
      subst eq
      let request := written (hbicapReg .control) ControlRegBit.abort.mask
      have issued : AbortIssued request := rfl
      have o₁ : InOrder [AbortIssued] (ms ++ [request]) := .single (by simp) issued
      have o₂ : InOrder [AbortIssued, IdleSeen] (ms ++ [request] ++ before ++ [m]) :=
        (o₁.append before).concat seen
      have o₃ : InOrder [AbortIssued, IdleSeen, AbortClearSeen]
          (ms ++ [request] ++ before ++ [m] ++ after ++ [ev]) :=
        (o₂.append after).concat clear
      simpa only [List.append_assoc, List.cons_append, List.nil_append] using o₃

lemma closed_of_waits (waits : ∀ ev ∈ t, Waits ev.1) : Closed t :=
  fun ev mem => (waits ev mem).not_unblocks

/-- Without the last unblock write, a reprogramming is not complete. -/
lemma not_completed (last : Never (· = unblocked ctrlAxiFirewall) h) :
    ¬ IdleThen (milestones image) h := by
  intro done
  obtain ⟨ev, mem, eq⟩ := done.idle.mem (P := (· = unblocked ctrlAxiFirewall)) (by simp [milestones])
  exact last ev mem eq

end

def Reported (image : List UInt8) (r : Outcome Error Unit) (h : List CardEvent) : Prop :=
  r = .ok () ↔ IdleThen (milestones image) h

section
variable {image : List UInt8} {h : List CardEvent}

/-- An access that neither starts nor unblocks anything is allowed. -/
lemma Allowed.quiet {e : Access} (idle : ¬ Starts e) (closed : ¬ UnblocksAny e) :
    Allowed image h e :=
  ⟨fun s => absurd s idle, fun u => absurd u closed⟩

/-- Writes to different registers are different. -/
lemma written_ne {addr addr' : Nat} {v v' : UInt32} (ne : addr ≠ addr') :
    written addr v ≠ written addr' v' :=
  fun eq => ne (Access.ctrlWriteU32.inj (congrArg Sigma.fst eq)).1

/-- With the image in place, an unblock write is allowed. -/
lemma Allowed.unblock {e : Access} (idle : ¬ Starts e) (conf : Configured image h) :
    Allowed image h e :=
  ⟨fun s => absurd s idle, fun _ => conf⟩

/-- The control firewall is still closed. -/
def Unopened (h : List CardEvent) : Prop := Never (· = unblocked ctrlAxiFirewall) h

/-- Without an unblock write, the control firewall is closed. -/
lemma Closed.unopened (c : Closed h) : Unopened h := by
  intro ev mem eq
  subst eq
  exact c _ mem (by decide)

/-- A call may fail while the control firewall is closed. -/
lemma Unopened.reported {e : Error} (o : Unopened h) : Reported image (.err e) h :=
  ⟨nofun, fun done => absurd done (not_completed o)⟩

/-- A call may fail by a failed write while the control firewall is closed. -/
lemma Unopened.failed {e : Error} {addr : Nat} {v : UInt32} {err : BasedError} (o : Unopened h) :
    Reported image (.err e) (h ++ [⟨.ctrlWriteU32 addr v, .error err⟩]) :=
  Unopened.reported (Never.concat o fun eq => by cases eq)

/-- The milestones `Ps` were passed, with no unblock write in the whole history. -/
structure Shut (Ps : List (CardEvent → Prop)) (h : List CardEvent) : Prop where
  idle : IdleThen Ps h
  closed : Closed h

/-- A write behind shut firewalls is the next milestone. -/
lemma Shut.write {Ps : List (CardEvent → Prop)} {addr : Nat} {v : UInt32} (s : Shut Ps h)
    (other : addr ≠ hbicapReg .control) (stays : ¬ UnblocksAny (.ctrlWriteU32 addr v)) :
    Shut (Ps ++ [(· = written addr v)]) (h ++ [written addr v]) where
  idle := s.idle.concat (P := (· = written addr v)) rfl (written_not_abort other)
  closed := Never.concat s.closed stays

/-- The milestones `Ps` were passed, the image is in place, and the control firewall is still closed. -/
structure Opening (image : List UInt8) (Ps : List (CardEvent → Prop)) (h : List CardEvent) : Prop where
  idle : IdleThen Ps h
  configured : Configured image h
  unopened : Unopened h

/-- A write while the firewalls are opened is the next milestone. -/
lemma Opening.write {Ps : List (CardEvent → Prop)} {addr : Nat} {v : UInt32} (o : Opening image Ps h)
    (other : addr ≠ hbicapReg .control)
    (stays : addr ≠ firewallReg ctrlAxiFirewall .miSideUnblockControl) :
    Opening image (Ps ++ [(· = written addr v)]) (h ++ [written addr v]) where
  idle := o.idle.concat (P := (· = written addr v)) rfl (written_not_abort other)
  configured := o.configured.append [written addr v]
  unopened := Never.concat o.unopened (written_ne stays)

/-- The last four accesses of `configure`. -/
def unblockBoth : Driver Error Unit := do
  (basedCtrlWriteU32 dmaAxiFirewall AxiFirewall.Reg.miSideSoftFaultControl.offset 0).mapErr
    (.axiFirewall ∘ .basedError)
  (basedCtrlWriteU32 dmaAxiFirewall AxiFirewall.Reg.miSideUnblockControl.offset 1).mapErr
    (.axiFirewall ∘ .basedError)
  (basedCtrlWriteU32 ctrlAxiFirewall AxiFirewall.Reg.miSideSoftFaultControl.offset 0).mapErr
    (.axiFirewall ∘ .basedError)
  (basedCtrlWriteU32 ctrlAxiFirewall AxiFirewall.Reg.miSideUnblockControl.offset 1).mapErr
    (.axiFirewall ∘ .basedError)

/-- They pass the last four milestones. -/
lemma wp_unblockBoth (o : Opening image ((milestones image).take 5) h) :
    (history _ _).wp (Allowed image) unblockBoth (Reported image) h := by
  rw [unblockBoth]
  apply step_write (.unblock (by decide) o.configured) (fun e => o.unopened.failed)
  have o₁ : Opening image ((milestones image).take 6) (h ++ [faultCleared dmaAxiFirewall]) :=
    o.write (by decide) (by decide)
  apply step_write (.unblock (by decide) o₁.configured) (fun e => o₁.unopened.failed)
  have o₂ : Opening image ((milestones image).take 7) (_ ++ [unblocked dmaAxiFirewall]) :=
    o₁.write (by decide) (by decide)
  apply step_write (.unblock (by decide) o₂.configured) (fun e => o₂.unopened.failed)
  have o₃ : Opening image ((milestones image).take 8) (_ ++ [faultCleared ctrlAxiFirewall]) :=
    o₂.write (by decide) (by decide)
  rw [World.wp_mapErr, history_write]
  refine ⟨.unblock (by decide) o₃.configured, fun r => ?_⟩
  cases r with
  | error e => exact o₃.unopened.failed
  | ok u =>
    have done : IdleThen (milestones image) (_ ++ [unblocked ctrlAxiFirewall]) :=
      o₃.idle.concat (P := (· = unblocked ctrlAxiFirewall)) rfl (written_not_abort (by decide))
    exact ⟨fun _ => done, fun _ => rfl⟩

/-- Behind an idle port, every access is allowed and the result is right. -/
lemma wp_configure (i : IdleThen [] h) (c : Closed h) :
    (history _ _).wp (Allowed image) (configure image) (Reported image) h := by
  rw [configure]
  -- Block the control firewall, then the DMA firewall.
  apply step_write (.quiet (by decide) (by decide)) (fun e => c.unopened.failed)
  have s₁ : Shut _ (h ++ [blocked ctrlAxiFirewall]) := Shut.write ⟨i, c⟩ (by decide) (by decide)
  apply step_write (.quiet (by decide) (by decide)) (fun e => s₁.closed.unopened.failed)
  have s₂ : Shut ((milestones image).take 2) (_ ++ [blocked dmaAxiFirewall]) :=
    s₁.write (by decide) (by decide)
  -- Announce the size and write the image, behind both blocked firewalls.
  have size : ∀ v, ¬ UnblocksAny (.ctrlWriteU32 (hbicapReg .size) v) :=
    fun v => not_unblocks_of_addr (by decide)
  have dma : ∀ addr buf, ¬ UnblocksAny (.dmaWrite addr buf) := fun _ _ u => u.elim id id
  refine step_write ⟨fun _ => ⟨s₂.idle, s₂.closed⟩, fun u => absurd u (size _)⟩
    (fun e => s₂.closed.unopened.failed) ?_
  have s₃ : Shut ((milestones image).take 3) (_ ++ [sizeWritten image]) :=
    s₂.write (by decide) (size _)
  have i₂ := s₂.idle.append (t := [sizeWritten image]) fun ev mem =>
    List.mem_singleton.mp mem ▸ written_not_abort (by decide)
  refine step_dmaWrite ⟨fun _ => ⟨i₂, s₃.closed⟩, fun u => absurd u (dma _ _)⟩ (fun e => ?_) ?_
  · have ne : (⟨.dmaWrite (hbicap.dmaIf.baseAddr + 0) image, .error e⟩ : CardEvent) ≠
        unblocked ctrlAxiFirewall := nofun
    exact Unopened.reported (Never.concat s₃.closed.unopened ne)
  have i₄ := s₃.idle.concat (P := (· = imageWritten image)) rfl nofun
  have c₄ : Closed (_ ++ [imageWritten image]) := Never.concat s₃.closed (dma _ _)
  -- Wait until the port is done.
  have reads : ∀ addr, ¬ UnblocksAny (.ctrlReadU32 addr) := fun _ u => u.elim id id
  have missed : ∀ {ms}, (∀ m ∈ ms, NotIdle m) → Closed (h ++ [blocked ctrlAxiFirewall] ++
      [blocked dmaAxiFirewall] ++ [sizeWritten image] ++ [imageWritten image] ++ ms) := by
    intro ms miss
    exact Never.append c₄ (closed_of_waits fun ev mem => waits_of_read (miss ev mem).read)
  apply step_poll (fun _ => .quiet id (reads _)) (fun ms miss _ => (missed miss).unopened.reported)
  intro ms v miss _ hit
  have seen : IdleSeen ⟨.ctrlReadU32 (hbicapReg .status), .ok v⟩ := ⟨v, rfl, hit⟩
  have quiet : ∀ ev ∈ ms, ¬ AbortIssued ev := fun ev mem => not_abort_of_read (miss ev mem).read
  have i₅ := (i₄.append quiet).concat seen (not_abort_of_read ⟨_, rfl⟩)
  have o₅ : Unopened (_ ++ [⟨.ctrlReadU32 (hbicapReg .status), .ok v⟩]) :=
    Never.concat (missed miss).unopened nofun
  exact wp_unblockBoth ⟨i₅, i₅.idle.tail.tail.tail.tail, o₅⟩

/-- Isolation during reprogramming: whatever the device answers, the configuration port gets something
    to do only when it was idle and both firewalls were blocked after that; a firewall is opened only
    when the whole image is written and the port was idle after that, and so never when the
    configuration failed; and the call succeeds exactly when all milestones were passed. -/
theorem programUserImage_isolates (debug : Bool) (image : List UInt8) (t : List CardEvent)
    (r : Outcome Error Unit) (run : Run (programUserImage debug image) t r) :
    (∀ pre e a post, t = pre ++ ⟨e, a⟩ :: post →
      (Starts e → Isolated pre) ∧ (UnblocksAny e → Configured image pre)) ∧
    (r = .ok () ↔ IdleThen (milestones image) t) ∧
    (¬ Configured image t → Closed t) := by
  have wait : ∀ h e, Waits e → Allowed image h e :=
    fun h e w => .quiet w.not_starts w.not_unblocks
  have spec : (history _ _).wp (Allowed image) (programUserImage debug image) (Reported image) [] := by
    rw [programUserImage_eq, World.wp_seq]
    apply wp_awaitIdle wait
    · intro t seen
      exact wp_configure seen.idleThen
        (closed_of_waits fun ev mem => waits_of_read (seen.reads ev mem))
    · intro t aborted
      exact wp_configure aborted.idleThen (closed_of_waits aborted.waits)
    · intro h' e ⟨t, eq, waits⟩
      rw [List.nil_append] at eq
      subst eq
      exact (closed_of_waits waits).unopened.reported
  obtain ⟨reported, allowed⟩ := wp_run spec run
  refine ⟨fun pre e a post eq => ?_, reported, fun failed ev mem opens => ?_⟩
  · obtain ⟨starts, unblocks⟩ := allowed pre e a post eq
    exact ⟨starts, unblocks⟩
  · obtain ⟨pre, post, eq⟩ := List.append_of_mem mem
    have configured := (allowed pre ev.1 ev.2 post eq).unblocks opens
    rw [List.nil_append] at configured
    exact failed (eq ▸ configured.append (ev :: post))

end

/-- A small image is programmed behind blocked firewalls. -/
theorem programUserImage_isolates_small :
    IdleThen (milestones [1, 2, 3, 4]) ((programUserImage true [1, 2, 3, 4]).runWith
      (fun _ e => e.succeed 1) []).1 :=
  (programUserImage_isolates true [1, 2, 3, 4] _ _ (run_runWith (fun _ e => e.succeed 1) _ [])).2.1.mp
    rfl

end Warpshell.U55n
