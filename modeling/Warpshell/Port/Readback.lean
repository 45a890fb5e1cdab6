import Warpshell.Port.Transfers

/-!
# Reading the configuration registers

The calls of the driver on the port. A readback leaves the port as quiet as it found it, and an abort
makes it so from any state; between them this is all that a session needs (`session_reports`).
-/

namespace Warpshell.Hbicap
open Interaction

/-! ## Calls -/

/-- What a configuration register was found to hold. -/
abbrev Found : Type := ConfigLogicReg × UInt32

/-- All that crosses the port for a readback. -/
def exchange (found : Found) : List Move :=
  (readbackOpening found.1).map .put ++ [.read found.1 found.2] ++ readbackClosing.map .put

section
variable {hb : HbicapIf} {d : List Move}

/-- The words that `readProgramming` returns are the ones that its opening program asks for, and
    nothing else is read out. -/
theorem triple_readProgramming {opening closing : List UInt32} {l : Logic} {m n : Nat}
    (opens : opening.length < 2 ^ 30) (closes : closing.length < 2 ^ 30) (small : n < 2 ^ 30)
    (requested : n ≤ (l.takeAll opening).requested) :
    hb.world.Triple (Resting l m [] d) (readProgramming hb opening closing (4 * n)) fun b =>
      Resting (((l.takeAll opening).deliver n).takeAll closing) 0 []
        (d ++ opening.map .put ++ (leWords b.1).map (.read (l.takeAll opening).reg) ++
          closing.map .put) := by
  refine World.Triple.bind (triple_writeBitstream opens) fun _ => ?_
  refine World.Triple.bind triple_pollDone fun _ => ?_
  refine World.Triple.bind (triple_readBitstream small requested) fun b => ?_
  refine World.Triple.bind triple_readDone fun _ => ?_
  refine World.Triple.bind (triple_writeBitstream closes) fun _ => ?_
  refine World.Triple.bind triple_pollDone fun _ => ?_
  exact World.Triple.pure (K := fun b : Bytes (4 * n) => Resting
    (((l.takeAll opening).deliver n).takeAll closing) 0 [] (d ++ opening.map .put ++
      (leWords b.1).map (.read (l.takeAll opening).reg) ++ closing.map .put)) stable_resting

/-- Four bytes are one word. -/
lemma leWords_four (b : Bytes icapWordBytes) : leWords b.1 = [fromLeBytes b] := by
  match b with
  | ⟨[_, _, _, _], _⟩ => rfl

/-- A readback asks for one register and returns what the port has read out. -/
lemma triple_readback (reg : ConfigLogicReg) :
    hb.world.Triple (Quiet d) (configLogicRegReadback hb reg)
      fun v => Quiet (d ++ exchange (reg, v)) := by
  refine World.Triple.cases fun l => World.Triple.given fun none => ?_
  have asked : l.takeAll (readbackOpening reg) = ⟨true, reg, 0, 1⟩ := Logic.takeAll_opening none
  have opens : (readbackOpening reg).length < 2 ^ 30 := (by decide : 9 < 2 ^ 30)
  refine World.Triple.bind (triple_readProgramming (n := 1) opens (by decide) (by decide)
    (by rw [asked])) fun b => ?_
  rw [asked, leWords_four, Logic.takeAll_closing rfl rfl]
  refine World.Triple.pre (World.Triple.pure
    (K := fun v => Quiet (d ++ exchange (reg, v))) stable_quiet) fun s rest => ?_
  refine ⟨⟨false, .cmd, 0, 0⟩, rfl, ?_⟩
  rw [exchange, ← List.append_assoc, ← List.append_assoc]
  exact rest

/-- What the debug output reads changes nothing. -/
lemma triple_debug {debug : Bool} {reg : Reg} {P : Port → Prop} (stP : hb.world.Stable P) :
    hb.world.Triple P (debugHbicapReg debug hb reg) fun _ => P := by
  cases debug with
  | false => exact World.Triple.pure (K := fun _ => P) stP
  | true =>
    refine World.Triple.bind (port_read (K := fun _ => P) stP (fun _ => stP) fun _ _ hs _ => hs)
      fun _ => ?_
    exact World.Triple.pure (K := fun _ => P) stP

/-- An abort, with what holds before, meanwhile and after. -/
lemma triple_abort {debug : Bool} {P A K : Port → Prop} (stP : hb.world.Stable P)
    (stA : hb.world.Stable A) (stK : hb.world.Stable K)
    (request : ∀ s, P s → A (s.set ControlRegBit.abort.mask .control))
    (finish : ∀ s, A s → s.aborting = false → K s)
    (can : ∀ s, A s → ∃ s₁, hb.world.Env s s₁ ∧ s₁.writeFifo = [] ∧ s₁.reading = false ∧
      s₁.aborting = false) :
    hb.world.Triple P (abort debug hb) fun _ => K := by
  refine World.Triple.bind (port_write (K := A) stP stA request) fun _ => ?_
  refine World.Triple.bind (K := fun _ => A) (port_poll stA stA (fun s _ hs _ _ => hs) ?_) fun _ => ?_
  · intro s hs
    obtain ⟨s₁, en, empty, reading, _⟩ := can s hs
    exact ⟨s₁, StatusRegBit.idle.mask, en, shows_idle reading empty, by decide⟩
  refine World.Triple.bind (triple_debug stA) fun _ => ?_
  refine World.Triple.bind (triple_debug stA) fun _ => ?_
  refine World.Triple.bind (K := fun _ => K) (port_poll stA stK ?_ ?_) fun _ => ?_
  · intro s v hs ⟨_, shows⟩ clear
    refine finish s hs (Bool.eq_false_of_not_eq_true fun set => ?_)
    exact shows.mpr set clear
  · intro s hs
    obtain ⟨s₁, en, _, reading, aborting⟩ := can s hs
    exact ⟨s₁, 0, en, shows_clear reading aborting, by decide⟩
  exact World.Triple.pure (K := fun _ => K) stK

/-- Whatever the port is doing, an abort that is seen to be over has stopped it. -/
lemma triple_abort_any {debug : Bool} :
    hb.world.Triple (fun _ => True) (abort debug hb) fun _ s => Quiet s.log s := by
  apply triple_abort (A := Aborting)
  · exact fun _ _ _ _ => trivial
  · exact stable_aborting
  · exact stable_quietened
  · exact fun s _ => .inl rfl
  · intro s hs clear
    obtain set | quiet := hs
    · rw [set] at clear
      cases clear
    · exact quiet
  · intro s hs
    obtain set | ⟨l, _, regs, eq⟩ := hs
    · exact ⟨_, .single (.abortDone false set), rfl, rfl, rfl⟩
    · rw [eq]
      exact ⟨_, .refl, rfl, rfl, rfl⟩

/-- An abort of nothing reads nothing out. -/
lemma triple_abort_quiet {debug : Bool} :
    hb.world.Triple (Quiet d) (abort debug hb) fun _ => Quiet d := by
  let A (s : Port) : Prop :=
    (∃ regs l, s = ⟨regs, l, 0, [], [], false, true, d⟩) ∨ Quiet d s
  have stA : hb.world.Stable A := by
    rintro _ s' (⟨regs, l, rfl⟩ | quiet) acts
    · cases acts with
      | change regs' => exact .inl ⟨regs', l, rfl⟩
      | put _ left => cases left
      | deliver set => cases set
      | starve _ set => cases set
      | readDone set => cases set
      | abortDone synced => exact .inr ⟨_, rfl, regs, rfl⟩
    · exact .inr (quiet.acts acts)
  apply triple_abort stable_quiet stA stable_quiet
  · rintro _ ⟨l, none, regs, rfl⟩
    exact .inl ⟨regs, l, rfl⟩
  · intro s hs clear
    obtain ⟨regs, l, rfl⟩ | quiet := hs
    · cases clear
    · exact quiet
  · intro s hs
    obtain ⟨regs, l, rfl⟩ | ⟨l, _, regs, rfl⟩ := hs
    · exact ⟨_, .single (.abortDone false rfl), rfl, rfl, rfl⟩
    · exact ⟨_, .refl, rfl, rfl, rfl⟩

/-- Bits outside a mask do not show under it. -/
lemma or_and_of_disjoint {v w mask : UInt32} (disjoint : w &&& mask = 0) :
    (v ||| w) &&& mask = v &&& mask := by
  have distrib : (v ||| w) &&& mask = v &&& mask ||| w &&& mask := by
    apply UInt32.toBitVec_inj.mp
    ext i
    simp [Bool.and_or_distrib_right]
  rw [distrib, disjoint, UInt32.or_zero]

/-- A reset leaves the port quiet. -/
lemma triple_reset : hb.world.Triple (Quiet d) (reset hb) fun _ => Quiet d := by
  let K (v : UInt32) (s : Port) : Prop :=
    (v &&& ControlRegBit.read.mask = 0 ∧ v &&& ControlRegBit.abort.mask = 0) ∧ Quiet d s
  have stK : ∀ v, hb.world.Stable (K v) := fun v s s' ⟨bits, quiet⟩ acts =>
    ⟨bits, quiet.acts acts⟩
  refine World.Triple.bind (K := K) (port_read stable_quiet stK ?_) fun v => ?_
  · rintro _ v quiet ⟨reading, aborting⟩
    refine ⟨⟨?_, ?_⟩, quiet⟩
    · obtain ⟨l, none, regs, rfl⟩ := quiet
      by_contra set
      cases reading.mp set
    · obtain ⟨l, none, regs, rfl⟩ := quiet
      by_contra set
      cases aborting.mp set
  · apply port_write (stK v) stable_quiet
    rintro _ ⟨⟨read, abort⟩, l, none, regs, rfl⟩
    have read : (v ||| ControlRegBit.fifoClear.mask ||| ControlRegBit.swReset.mask) &&&
        ControlRegBit.read.mask = 0 := by
      rw [or_and_of_disjoint (by decide), or_and_of_disjoint (by decide), read]
    have abort : (v ||| ControlRegBit.fifoClear.mask ||| ControlRegBit.swReset.mask) &&&
        ControlRegBit.abort.mask = 0 := by
      rw [or_and_of_disjoint (by decide), or_and_of_disjoint (by decide), abort]
    refine ⟨l, none, regs, ?_⟩
    simp [Port.set, Port.setControl, read, abort]

/-- A register read changes nothing. -/
lemma triple_register {reg : Reg} : hb.world.Triple (Quiet d) (getHbicapReg hb reg) fun _ => Quiet d :=
  port_read stable_quiet (fun _ => stable_quiet) fun _ _ hs _ => hs

lemma triple_isReady : hb.world.Triple (Quiet d) (isReady hb) fun _ => Quiet d :=
  World.Triple.bind triple_register fun _ => World.Triple.pure (K := fun _ => Quiet d) stable_quiet

/-- The wait leaves the port quiet. -/
lemma triple_wait : hb.world.Triple (Quiet d) (pollDoneEvery10ms hb (Duration.fromSecs 10))
    fun _ => Quiet d := by
  apply port_poll stable_quiet stable_quiet fun _ _ hs _ _ => hs
  rintro _ ⟨l, none, regs, rfl⟩
  exact ⟨_, StatusRegBit.idle.mask, .refl, shows_idle rfl rfl, by decide⟩

end

/-! ## Sessions -/

/-- The calls of a session on the port. -/
inductive PortCall where
  | abort (debug : Bool)
  | readback (reg : ConfigLogicReg)
  | reset
  | isReady
  | register (reg : Reg)
  | pollDone
  deriving DecidableEq, Repr

/-- A call, with the configuration registers that it reports. -/
def PortCall.prog (hb : HbicapIf) : PortCall → Driver Error (List Found)
  | .abort debug => do
    Hbicap.abort debug hb
    pure []
  | .readback reg => do
    let v ← configLogicRegReadback hb reg
    pure [(reg, v)]
  | .reset => do
    Hbicap.reset hb
    pure []
  | .isReady => do
    let _ ← Hbicap.isReady hb
    pure []
  | .register reg => do
    let _ ← getHbicapReg hb reg
    pure []
  | .pollDone => do
    let _ ← pollDoneEvery10ms hb (Duration.fromSecs 10)
    pure []

/-- The configuration registers that a call asks for. -/
def PortCall.asks : PortCall → List ConfigLogicReg
  | .readback reg => [reg]
  | _ => []

/-- One call after the other, up to the first error. -/
def session (hb : HbicapIf) : List PortCall → Driver Error (List Found)
  | [] => pure []
  | c :: cs => do
    let ds ← c.prog hb
    let rest ← session hb cs
    pure (ds ++ rest)

section
variable {hb : HbicapIf} {d : List Move}

/-- There is an answer to each request, and it is what the port has read out; nothing else has crossed
    the port. -/
def Reports (d : List Move) (asked : List ConfigLogicReg) (got : List Found) (s : Port) : Prop :=
  got.map Prod.fst = asked ∧ Quiet (d ++ got.flatMap exchange) s

lemma Reports.acts {asked got} {s s' : Port} (reports : Reports d asked got s)
    (acts : Port.Acts s s') : Reports d asked got s' :=
  ⟨reports.1, reports.2.acts acts⟩

lemma stable_reports {asked got} : hb.world.Stable (Reports d asked got) := fun _ _ => Reports.acts

/-- A call that puts nothing on the port has nothing to report. -/
lemma triple_none {α : Type} {x : Driver Error α} (t : hb.world.Triple (Quiet d) x fun _ => Quiet d) :
    hb.world.Triple (Quiet d) (x >>= fun _ => pure []) (Reports d []) := by
  refine World.Triple.bind t fun _ => ?_
  refine World.Triple.pre (World.Triple.pure (K := Reports d []) stable_reports) fun s quiet => ?_
  exact ⟨rfl, by rwa [List.flatMap_nil, List.append_nil]⟩

/-- Each call reports what it asks for. -/
lemma triple_call (c : PortCall) : hb.world.Triple (Quiet d) (c.prog hb) (Reports d c.asks) := by
  cases c with
  | abort debug => exact triple_none triple_abort_quiet
  | readback reg =>
    refine World.Triple.bind (triple_readback reg) fun v => ?_
    refine World.Triple.pre (World.Triple.pure (K := Reports d [reg]) stable_reports) fun s quiet => ?_
    exact ⟨rfl, by rwa [List.flatMap_singleton]⟩
  | reset => exact triple_none triple_reset
  | isReady => exact triple_none triple_isReady
  | register reg => exact triple_none triple_register
  | pollDone => exact triple_none triple_wait

/-- A session reports what its calls ask for, in order. -/
lemma triple_session (cs : List PortCall) :
    hb.world.Triple (Quiet d) (session hb cs) (Reports d (cs.flatMap PortCall.asks)) := by
  induction cs generalizing d with
  | nil =>
    refine World.Triple.pre (World.Triple.pure (K := Reports d []) stable_reports) fun s quiet => ?_
    exact ⟨rfl, by rwa [List.flatMap_nil, List.append_nil]⟩
  | cons c cs ih =>
    refine World.Triple.bind (triple_call c) fun ds => ?_
    refine World.Triple.given fun answers => ?_
    refine World.Triple.bind ih fun rest => ?_
    refine World.Triple.pre (World.Triple.pure
      (K := Reports d ((c :: cs).flatMap PortCall.asks)) stable_reports) fun s ⟨others, quiet⟩ => ?_
    rw [List.append_assoc, ← List.flatMap_append] at quiet
    exact ⟨by rw [List.map_append, answers, others, List.flatMap_cons], quiet⟩

/-- The first call of a session. -/
lemma session_abort {debug : Bool} {cs : List PortCall} :
    session hb (.abort debug :: cs) = (abort debug hb >>= fun _ => session hb cs) := by
  have rest : (fun got => pure ([] ++ got) : List Found → Driver Error (List Found)) = pure := rfl
  simp only [session, PortCall.prog, Io.bind_assoc, Io.pure_bind, rest, Io.bind_pure]

end

/-- A session that begins with an abort, on a port in any state whatever. In each state in which the
    abort has returned, what the rest of the session reports for the configuration registers is what the
    port will have read out of these very registers, in this order, each between the two programs of its
    readback, and nothing else will have crossed the port. The runs of the session are these, and from
    every state there is one that reports all that was asked for. -/
theorem session_reports (hb : HbicapIf) (debug : Bool) (cs : List PortCall) (s : Port) :
    (∀ s₁, hb.world.Steps (s, abort debug hb) (s₁, .ret (.ok ())) →
      ∀ got s', hb.world.Steps (s₁, session hb cs) (s', .ret (.ok got)) →
        got.map Prod.fst = cs.flatMap PortCall.asks ∧ s'.log = s₁.log ++ got.flatMap exchange) ∧
    (∀ got s', hb.world.Steps (s, session hb (.abort debug :: cs)) (s', .ret (.ok got)) →
      ∃ s₁, hb.world.Steps (s, abort debug hb) (s₁, .ret (.ok ())) ∧
        hb.world.Steps (s₁, session hb cs) (s', .ret (.ok got))) ∧
    ∃ got s', hb.world.Steps (s, session hb (.abort debug :: cs)) (s', .ret (.ok got)) := by
  refine ⟨?_, ?_, ?_⟩
  · intro s₁ first got s' rest
    have quiet : Quiet s₁.log s₁ := triple_abort_any.ends trivial first
    obtain ⟨answers, quiet'⟩ := (triple_session cs).ends quiet rest
    exact ⟨answers, quiet'.log⟩
  · intro got s' steps
    rw [session_abort] at steps
    obtain ⟨_, s₁, first, rest⟩ := World.Steps.split steps
    exact ⟨s₁, first, rest⟩
  · rw [session_abort]
    obtain ⟨_, s₁, first⟩ := triple_abort_any.returns s trivial
    have quiet : Quiet s₁.log s₁ := triple_abort_any.ends trivial first
    obtain ⟨got, s', rest⟩ := (triple_session cs).returns s₁ quiet
    exact ⟨got, s', (World.Steps.bind first).trans rest⟩

end Warpshell.Hbicap
