import Warpshell.Interaction.Trace
import Warpshell.Shells.XilinxU55nXdmaStd

/-!
# Traces of the shell

What the accesses of `program_user_image` mean: which of them start a configuration, which open a
firewall, what an answer says about the configuration port. `wp_awaitIdle` and `programUserImage_eq`
are all that later modules need to know about the code: the first says how the wait for an idle port
can end, the second lists the accesses that follow it.
-/

namespace Warpshell.U55n
open Interaction Hbicap

/-! ## Accesses -/

def hbicapReg (reg : Hbicap.Reg) : Nat := hbicap.ctrlIf.baseAddr + reg.offset

def firewallReg (core : BaseParam) (reg : AxiFirewall.Reg) : Nat := core.baseAddr + reg.offset

/-- A Size write or a DMA write: the configuration port gets something to do. -/
def Starts : Access → Prop
  | .ctrlWriteU32 addr _ => addr = hbicapReg .size
  | .dmaWrite _ _ => True
  | _ => False

/-- One of the two writes that unblock a firewall. -/
def Unblocks (core : BaseParam) : Access → Prop
  | .ctrlWriteU32 addr v =>
    addr = firewallReg core .miSideSoftFaultControl ∧ v = 0 ∨
      addr = firewallReg core .miSideUnblockControl ∧ v = 1
  | _ => False

/-- One of the two writes that unblock one of the two firewalls. -/
def UnblocksAny (e : Access) : Prop := Unblocks ctrlAxiFirewall e ∨ Unblocks dmaAxiFirewall e

/-- What the wait for an idle port does: it reads registers and requests an abort. -/
def Waits : Access → Prop
  | .ctrlReadU32 _ => True
  | .ctrlWriteU32 addr v => addr = hbicapReg .control ∧ v = ControlRegBit.abort.mask
  | _ => False

instance : DecidablePred Starts
  | .ctrlReadU32 _ => inferInstanceAs (Decidable False)
  | .ctrlWriteU32 addr _ => inferInstanceAs (Decidable (addr = _))
  | .dmaRead _ _ => inferInstanceAs (Decidable False)
  | .dmaWrite _ _ => inferInstanceAs (Decidable True)

instance (core : BaseParam) : DecidablePred (Unblocks core)
  | .ctrlReadU32 _ => inferInstanceAs (Decidable False)
  | .ctrlWriteU32 _ _ => inferInstanceAs (Decidable (_ ∧ _ ∨ _ ∧ _))
  | .dmaRead _ _ => inferInstanceAs (Decidable False)
  | .dmaWrite _ _ => inferInstanceAs (Decidable False)

instance : DecidablePred UnblocksAny := fun _ => inferInstanceAs (Decidable (_ ∨ _))

/-- The registers that the unblock writes go to. -/
def unblockRegs : List Nat :=
  [ctrlAxiFirewall, dmaAxiFirewall].flatMap fun core =>
    [firewallReg core .miSideSoftFaultControl, firewallReg core .miSideUnblockControl]

/-- A write to any other register unblocks nothing. -/
lemma not_unblocks_of_addr {addr : Nat} {v : UInt32} (other : addr ∉ unblockRegs) :
    ¬ UnblocksAny (.ctrlWriteU32 addr v) := by
  intro u
  obtain (⟨eq, _⟩ | ⟨eq, _⟩) | ⟨eq, _⟩ | ⟨eq, _⟩ := u
  all_goals exact other (eq ▸ by decide)

/-- The wait starts nothing. -/
lemma Waits.not_starts {e : Access} (w : Waits e) : ¬ Starts e := by
  intro s
  cases e with
  | ctrlReadU32 addr => exact s
  | ctrlWriteU32 addr v =>
    obtain ⟨eq, _⟩ := w
    exact absurd (eq.symm.trans s) (by decide)
  | dmaRead addr len => exact s
  | dmaWrite addr buf => exact w

/-- The wait unblocks nothing. -/
lemma Waits.not_unblocks {e : Access} (w : Waits e) : ¬ UnblocksAny e := by
  cases e with
  | ctrlWriteU32 addr v =>
    obtain ⟨eq, _⟩ := w
    exact not_unblocks_of_addr (eq ▸ by decide)
  | ctrlReadU32 addr => exact fun u => u.elim id id
  | dmaRead addr len => exact fun u => u.elim id id
  | dmaWrite addr buf => exact w.elim

/-- A register read is part of a wait. -/
lemma waits_of_read {ev : CardEvent} (read : ∃ addr, ev.1 = .ctrlReadU32 addr) : Waits ev.1 := by
  obtain ⟨addr, eq⟩ := read
  rw [eq]
  trivial

/-! ## Events -/

def IdleSeen (ev : CardEvent) : Prop :=
  ∃ v, ev = ⟨.ctrlReadU32 (hbicapReg .status), .ok v⟩ ∧
    v &&& StatusRegBit.idle.mask = StatusRegBit.idle.mask

def AbortIssued (ev : CardEvent) : Prop :=
  ev.1 = .ctrlWriteU32 (hbicapReg .control) ControlRegBit.abort.mask

def AbortClearSeen (ev : CardEvent) : Prop :=
  ∃ v, ev = ⟨.ctrlReadU32 (hbicapReg .control), .ok v⟩ ∧ v &&& ControlRegBit.abort.mask = 0

/-- A register write that succeeded. -/
def written (addr : Nat) (v : UInt32) : CardEvent := ⟨.ctrlWriteU32 addr v, .ok ()⟩

/-- A write to another register requests no abort. -/
lemma written_not_abort {addr : Nat} {v : UInt32} (other : addr ≠ hbicapReg .control) :
    ¬ AbortIssued (written addr v) :=
  fun eq => other (Access.ctrlWriteU32.inj eq).1

/-- A read requests no abort. -/
lemma not_abort_of_read {ev : CardEvent} (read : ∃ addr, ev.1 = .ctrlReadU32 addr) :
    ¬ AbortIssued ev := by
  obtain ⟨addr, eq⟩ := read
  rw [AbortIssued, eq]
  nofun

def blocked (core : BaseParam) : CardEvent :=
  written (firewallReg core .miSideSoftFaultControl) AxiFirewall.miBlockMask

/-- The number of words was announced. -/
def sizeWritten (image : List UInt8) : CardEvent :=
  written (hbicapReg .size) (announcedWords image.length)

def imageWritten (image : List UInt8) : CardEvent :=
  ⟨.dmaWrite hbicap.dmaIf.baseAddr image, .ok ()⟩

/-- A soft fault was taken back. -/
def faultCleared (core : BaseParam) : CardEvent :=
  written (firewallReg core .miSideSoftFaultControl) 0

def unblocked (core : BaseParam) : CardEvent :=
  written (firewallReg core .miSideUnblockControl) 1

/-- A Status read without the Idle bit. -/
abbrev NotIdle : CardEvent → Prop :=
  Miss (hbicapReg .status) StatusRegBit.idle.mask StatusRegBit.idle.mask

/-! ## Waiting for an idle port -/

/-- `h'` is `h` and then only accesses of the wait. -/
def Waited (h h' : List CardEvent) : Prop := ∃ t, h' = h ++ t ∧ ∀ ev ∈ t, Waits ev.1

lemma Waited.refl {h} : Waited h h := ⟨[], by rw [List.append_nil], nofun⟩

lemma Waited.append {h h' t} (w : Waited h h') (waits : ∀ ev ∈ t, Waits ev.1) :
    Waited h (h' ++ t) := by
  obtain ⟨t', eq, waits'⟩ := w
  refine ⟨t' ++ t, by rw [eq, List.append_assoc], fun ev mem => ?_⟩
  rcases List.mem_append.mp mem with mem | mem
  · exact waits' ev mem
  · exact waits ev mem

lemma Waited.concat {h h' x} (w : Waited h h') (waits : Waits x.1) : Waited h (h' ++ [x]) :=
  w.append fun _ mem => List.mem_singleton.mp mem ▸ waits

/-- Polls without a match are part of a wait. -/
lemma Waited.misses {h h' ms addr mask expected} (w : Waited h h')
    (miss : ∀ m ∈ ms, Miss addr mask expected m) : Waited h (h' ++ ms) := by
  exact w.append fun ev mem => waits_of_read (miss ev mem).read

/-- The initial poll saw the Idle bit. -/
inductive SeenIdle : List CardEvent → Prop where
  | intro {ms ev} : (∀ m ∈ ms, NotIdle m) → IdleSeen ev → SeenIdle (ms ++ [ev])

/-- What follows the abort request of an abort that succeeds: the Idle bit is seen, and at the end
    the Abort bit is clear. -/
inductive AbortDone : List CardEvent → Prop where
  | intro {mid ev} : (∃ m ∈ mid, IdleSeen m) → (∀ m ∈ mid, ∃ addr, m.1 = .ctrlReadU32 addr) →
    AbortClearSeen ev → AbortDone (mid ++ [ev])

/-- The initial poll timed out, and the port was aborted. -/
inductive Aborted : List CardEvent → Prop where
  | intro {ms t} : (∀ m ∈ ms, NotIdle m) → AbortDone t →
    Aborted (ms ++ written (hbicapReg .control) ControlRegBit.abort.mask :: t)

/-- The abort bit is seen clear by a read. -/
lemma AbortClearSeen.read {ev} (clear : AbortClearSeen ev) : ∃ addr, ev.1 = .ctrlReadU32 addr := by
  obtain ⟨v, eq, _⟩ := clear
  exact ⟨_, by rw [eq]⟩

/-- The initial poll reads Status only. -/
lemma SeenIdle.status {t} (s : SeenIdle t) : ∀ ev ∈ t, ev.1 = .ctrlReadU32 (hbicapReg .status) := by
  cases s with
  | @intro ms ev miss seen =>
    intro x mem
    rcases List.mem_append.mp mem with mem | mem
    · obtain ⟨r, eq, _⟩ := miss x mem
      rw [eq]
    · obtain ⟨v, eq, _⟩ := seen
      rw [List.mem_singleton.mp mem, eq]

lemma SeenIdle.reads {t} (s : SeenIdle t) : ∀ ev ∈ t, ∃ addr, ev.1 = .ctrlReadU32 addr :=
  fun ev mem => ⟨_, s.status ev mem⟩

/-- Behind its request, an abort only reads. -/
lemma AbortDone.reads {t} (d : AbortDone t) : ∀ ev ∈ t, ∃ addr, ev.1 = .ctrlReadU32 addr := by
  cases d with
  | @intro mid ev _ reads clear =>
    intro x mem
    rcases List.mem_append.mp mem with mem | mem
    · exact reads x mem
    · rw [List.mem_singleton.mp mem]
      exact clear.read

/-- A poll that times out and the abort after it are a wait. -/
lemma Aborted.waits {t} (a : Aborted t) : ∀ ev ∈ t, Waits ev.1 := by
  cases a with
  | @intro ms t miss done =>
    intro x mem
    rcases List.mem_append.mp mem with mem | mem
    · exact waits_of_read (miss x mem).read
    · rcases List.mem_cons.mp mem with mem | mem
      · rw [mem]
        exact ⟨rfl, rfl⟩
      · exact waits_of_read (done.reads x mem)

section Rules
variable {G : List CardEvent → Access → Prop} {h : List CardEvent} {debug : Bool}

/-- The debug output in front of a sequence: it reads a register, or nothing at all. -/
lemma step_debug {reg : Hbicap.Reg} {β : Type} {k : Unit → Driver Hbicap.Error β}
    {Q : Outcome Hbicap.Error β → List CardEvent → Prop}
    (guard : G h (.ctrlReadU32 (hbicapReg reg)))
    (fails : ∀ e r, Q (.err e) (h ++ [⟨.ctrlReadU32 (hbicapReg reg), r⟩]))
    (next : ∀ t, (∀ m ∈ t, m.1 = .ctrlReadU32 (hbicapReg reg)) →
      (history _ _).wp G (k ()) Q (h ++ t)) :
    (history _ _).wp G (debugHbicapReg debug hbicap reg >>= k : Driver Hbicap.Error β) Q h := by
  cases debug with
  | false =>
    have w := next [] nofun
    rwa [List.append_nil] at w
  | true =>
    rw [debugHbicapReg, if_pos rfl, getHbicapReg, Io.bind_assoc]
    refine step_read guard (fun e => fails _ _) (fun v => ?_)
    refine next _ (fun m mem => ?_)
    rw [List.mem_singleton.mp mem]
    rfl

/-- An abort is a wait, and one that succeeds has seen the port idle and its request over. -/
lemma wp_abort {h₀ : List CardEvent} {Q : Outcome Hbicap.Error Unit → List CardEvent → Prop}
    (guard : ∀ h e, Waits e → G h e) (waited : Waited h₀ h)
    (done : ∀ t, AbortDone t →
      Q (.ok ()) (h ++ written (hbicapReg .control) ControlRegBit.abort.mask :: t))
    (fails : ∀ h' e, Waited h₀ h' → Q (.err e) h') :
    (history _ _).wp G (abort debug hbicap) Q h := by
  have request : Waits (.ctrlWriteU32 (hbicapReg .control) ControlRegBit.abort.mask) := ⟨rfl, rfl⟩
  rw [abort]
  apply step_write (guard _ _ request) (fun e => fails _ _ (waited.concat request))
  have w₁ := waited.concat (x := written (hbicapReg .control) _) request
  apply step_poll (fun _ => guard _ _ trivial)
  · intro ms miss _
    exact fails _ _ (w₁.misses miss)
  intro ms v miss _ hit
  have w₂ := (w₁.misses miss).concat (x := ⟨.ctrlReadU32 (hbicapReg .status), .ok v⟩) trivial
  apply step_debug (guard _ _ trivial) (fun e r => fails _ _ (w₂.concat trivial))
  intro t₁ read₁
  have w₃ := w₂.append (t := t₁) fun ev mem => by rw [read₁ ev mem]; trivial
  apply step_debug (guard _ _ trivial) (fun e r => fails _ _ (w₃.concat trivial))
  intro t₂ read₂
  have w₄ := w₃.append (t := t₂) fun ev mem => by rw [read₂ ev mem]; trivial
  apply step_poll (fun _ => guard _ _ trivial)
  · intro ms' miss' _
    exact fails _ _ (w₄.misses miss')
  intro ms' v' miss' _ clear
  rw [show (pure () : Driver Hbicap.Error Unit) = .ret (.ok ()) from rfl, history_ret]
  let mid := ms ++ [⟨.ctrlReadU32 (hbicapReg .status), .ok v⟩] ++ t₁ ++ t₂ ++ ms'
  have reads : ∀ m ∈ mid, ∃ addr, m.1 = .ctrlReadU32 addr := by
    intro m mem
    simp only [mid, List.mem_append, List.mem_singleton] at mem
    obtain (((mem | mem) | mem) | mem) | mem := mem
    · exact (miss m mem).read
    · exact ⟨_, by rw [mem]⟩
    · exact ⟨_, read₁ m mem⟩
    · exact ⟨_, read₂ m mem⟩
    · exact (miss' m mem).read
  have seen : ∃ m ∈ mid, IdleSeen m :=
    ⟨⟨.ctrlReadU32 (hbicapReg .status), .ok v⟩, by simp [mid], v, rfl, hit⟩
  have q := done _ (.intro seen reads ⟨v', rfl, clear⟩)
  simp only [mid, List.append_assoc, List.cons_append, List.nil_append] at q ⊢
  exact q

/-- The wait for an idle port: it sees the port idle, or aborts it, or fails. -/
lemma wp_awaitIdle {Q : Outcome Error Unit → List CardEvent → Prop}
    (guard : ∀ h e, Waits e → G h e)
    (seen : ∀ t, SeenIdle t → Q (.ok ()) (h ++ t))
    (aborted : ∀ t, Aborted t → Q (.ok ()) (h ++ t))
    (fails : ∀ h' e, Waited h h' → Q (.err e) h') :
    (history _ _).wp G (awaitIdle debug) Q h := by
  rw [awaitIdle, World.wp_seq]
  apply World.wp_attempt
  rw [pollDoneEvery10ms, pollEvery10ms, World.wp_mapErr]
  apply history_poll (fun _ => guard _ _ trivial)
  · intro ms v miss _ hit
    refine (history_ret (G := G)).mpr ?_
    rw [List.append_assoc]
    exact seen _ (.intro miss ⟨v, rfl, hit⟩)
  · intro ms miss _
    apply World.wp_mapErr.mpr
    apply wp_abort guard (Waited.refl.misses miss)
    · intro t done
      rw [List.append_assoc]
      exact aborted _ (.intro miss done)
    · intro h' e waited
      exact fails h' _ waited

/-- `program_user_image` after the wait, as a sequence of accesses. -/
def configure (image : List UInt8) : Driver Error Unit := do
  (basedCtrlWriteU32 ctrlAxiFirewall AxiFirewall.Reg.miSideSoftFaultControl.offset
    AxiFirewall.miBlockMask).mapErr (.axiFirewall ∘ .basedError)
  (basedCtrlWriteU32 dmaAxiFirewall AxiFirewall.Reg.miSideSoftFaultControl.offset
    AxiFirewall.miBlockMask).mapErr (.axiFirewall ∘ .basedError)
  (basedCtrlWriteU32 hbicap.ctrlIf Reg.size.offset
    (announcedWords image.length)).mapErr (.hbicap ∘ .basedError)
  (basedDmaWrite hbicap.dmaIf image 0).mapErr (.hbicap ∘ .basedError)
  let _ ← (pollRegMaskSleep hbicap.ctrlIf Reg.status.offset StatusRegBit.idle.mask
    StatusRegBit.idle.mask (pollsEvery10ms (Duration.fromSecs 10))
    (Duration.fromMillis 10)).mapErr (.hbicap ∘ .basedError)
  (basedCtrlWriteU32 dmaAxiFirewall AxiFirewall.Reg.miSideSoftFaultControl.offset 0).mapErr
    (.axiFirewall ∘ .basedError)
  (basedCtrlWriteU32 dmaAxiFirewall AxiFirewall.Reg.miSideUnblockControl.offset 1).mapErr
    (.axiFirewall ∘ .basedError)
  (basedCtrlWriteU32 ctrlAxiFirewall AxiFirewall.Reg.miSideSoftFaultControl.offset 0).mapErr
    (.axiFirewall ∘ .basedError)
  (basedCtrlWriteU32 ctrlAxiFirewall AxiFirewall.Reg.miSideUnblockControl.offset 1).mapErr
    (.axiFirewall ∘ .basedError)

/-- A reprogramming waits for an idle port and then configures it. -/
lemma programUserImage_eq (image : List UInt8) :
    programUserImage debug image = awaitIdle debug >>= fun _ => configure image := by
  unfold programUserImage configure AxiFirewall.blockMi AxiFirewall.unblockMi
    AxiFirewall.setAxiFirewallReg writeBitstream setHbicapReg pollDoneEvery10ms pollEvery10ms
  simp only [Io.mapErr_bind, Io.mapErr_mapErr, Io.bind_assoc]

end Rules

end Warpshell.U55n
