import Warpshell.Interaction.Script
import Warpshell.Interaction.Trace
import Warpshell.Port.Waits
import Warpshell.Xdma.Memory

/-!
# Two programs around a read

`read_programming` sends an opening program, reads, and sends a closing program. `readScript` lists
what the port is to see, stage by stage, in terms of the words and of their number; that the code
serialises the words and computes the announced sizes accordingly is `follows_readProgramming`.
-/

namespace Warpshell.Hbicap
open Interaction

/-! ## The script -/

/-- The error an access was answered with. -/
def failure : CardEvent → Option BasedError
  | ⟨.ctrlReadU32 _, .error e⟩ => some e
  | ⟨.ctrlWriteU32 _ _, .error e⟩ => some e
  | ⟨.dmaRead _ _, .error e⟩ => some e
  | ⟨.dmaWrite _ _, .error e⟩ => some e
  | _ => none

abbrev PortStage : Type := Stage Access Access.Answer Error

/-- One access, of the kind `P`. -/
def issue (P : Access → Prop) : PortStage where
  done t := ∃ ev, t = [ev] ∧ P ev.1 ∧ failure ev = none
  failed t e := ∃ ev err, t = [ev] ∧ P ev.1 ∧ failure ev = some err ∧ e = .basedError err

/-- Reads of a register, at most 1000, until `mask` reads `expected`. -/
def await (hb : HbicapIf) (reg : Reg) (mask expected : UInt32) : PortStage where
  done t := ∃ pos, Searched (hb.ctrlIf.baseAddr + reg.offset) mask expected 1000 t (some pos)
  failed t e := Searched (hb.ctrlIf.baseAddr + reg.offset) mask expected 1000 t none ∧
    e = .basedError (.regMaskNotAsExpected reg.offset mask expected)

/-- Consecutive groups of four bytes as words, lowest byte first. -/
def leWords : List UInt8 → List UInt32
  | b₀ :: b₁ :: b₂ :: b₃ :: rest => fromLeBytes ⟨[b₀, b₁, b₂, b₃], rfl⟩ :: leWords rest
  | _ => []

/-- The Size register is set to `n`. -/
def Announces (hb : HbicapIf) (n : Nat) (e : Access) : Prop :=
  ∃ v, e = .ctrlWriteU32 (hb.ctrlIf.baseAddr + Reg.size.offset) v ∧ v.toNat = n

/-- A DMA write of bytes that decode to exactly `words`. -/
def Sends (hb : HbicapIf) (words : List UInt32) (e : Access) : Prop :=
  ∃ buf, e = .dmaWrite hb.dmaIf.baseAddr buf ∧ buf.length = 4 * words.length ∧ leWords buf = words

def requestRead (hb : HbicapIf) : Access :=
  .ctrlWriteU32 (hb.ctrlIf.baseAddr + Reg.control.offset) ControlRegBit.read.mask

/-- The stages that send a program: its length, its words, and the wait until they are written. -/
def program (hb : HbicapIf) (words : List UInt32) : List PortStage :=
  [issue (Announces hb words.length), issue (Sends hb words),
    await hb .status StatusRegBit.idle.mask StatusRegBit.idle.mask]

/-- The stages of a read of `n` words. -/
def readOut (hb : HbicapIf) (n : Nat) : List PortStage :=
  [issue (Announces hb n), issue (· = requestRead hb), issue (· = .dmaRead hb.dmaIf.baseAddr (4 * n)),
    await hb .control ControlRegBit.read.mask 0]

/-- What `read_programming` is to do, with an output buffer of `n` words. -/
def readScript (hb : HbicapIf) (opening closing : List UInt32) (n : Nat) : List PortStage :=
  program hb opening ++ (readOut hb n ++ program hb closing)

def ReadRequested (hb : HbicapIf) (ev : CardEvent) : Prop := ev.1 = requestRead hb

def ReadClearSeen (hb : HbicapIf) (ev : CardEvent) : Prop :=
  ∃ v, ev = ⟨.ctrlReadU32 (hb.ctrlIf.baseAddr + Reg.control.offset), .ok v⟩ ∧
    v &&& ControlRegBit.read.mask = 0

def IsDmaWrite (e : Access) : Prop := ∃ addr buf, e = .dmaWrite addr buf

/-- A second DMA write comes after a read that was requested and then seen to be over. -/
def ClosesAfterRead (hb : HbicapIf) (h : List CardEvent) (e : Access) : Prop :=
  IsDmaWrite e → (∃ ev ∈ h, IsDmaWrite ev.1) → InOrder [ReadRequested hb, ReadClearSeen hb] h

section
variable {hb : HbicapIf} {words opening closing : List UInt32} {buf : List UInt8} {n : Nat}
  {t : List CardEvent} {e : Access} {α : Type} {P : Access → Prop}

/-! ## Words on the wire -/

lemma length_words : (words.flatMap toLeBytes).length = 4 * words.length := by
  induction words with
  | nil => rfl
  | cons w words ih =>
    rw [List.flatMap_cons, List.length_append, ih, List.length_cons, Nat.mul_succ, Nat.add_comm]
    rfl

/-- The bytes of words decode to them. -/
lemma leWords_words : leWords (words.flatMap toLeBytes) = words := by
  induction words with
  | nil => rfl
  | cons w words ih => exact congrArg₂ List.cons (fromLeBytes_toLeBytes w) ih

/-- Only one buffer of the right length decodes to the words. -/
lemma eq_words (len : buf.length = 4 * words.length) (decodes : leWords buf = words) :
    buf = words.flatMap toLeBytes := by
  induction words generalizing buf with
  | nil => exact List.length_eq_zero_iff.mp len
  | cons w words ih =>
    match buf with
    | b₀ :: b₁ :: b₂ :: b₃ :: rest =>
      obtain ⟨first, others⟩ := List.cons.inj decodes
      rw [List.flatMap_cons, ← first, toLeBytes_fromLeBytes, ← ih ?_ others]
      · rfl
      · simp only [List.length_cons] at len
        omega
    -- Fewer than four bytes decode to nothing.
    | [] => cases decodes
    | [_] => cases decodes
    | [_, _] => cases decodes
    | [_, _, _] => cases decodes

/-- Sending the words is one DMA write, of their bytes. -/
lemma sends_iff : Sends hb words e ↔ e = .dmaWrite (hb.dmaIf.baseAddr + 0) (words.flatMap toLeBytes) := by
  apply Iff.intro
  · intro ⟨buf, eq, len, decodes⟩
    rw [eq, eq_words len decodes]
    rfl
  · intro eq
    exact ⟨_, eq, length_words, leWords_words⟩

/-- The announced size of whole words is their number. -/
lemma announcedWords_words (small : n < 2 ^ 32) : (announcedWords (4 * n)).toNat = n := by
  rw [announcedWords, icapWordBytes, Nat.mul_div_cancel_left n (by decide), UInt32.toNat_ofNat']
  exact Nat.mod_eq_of_lt small

/-- Announcing the words is one write of Size. -/
lemma sizes_iff (small : n < 2 ^ 32) : Announces hb n e ↔
    e = .ctrlWriteU32 (hb.ctrlIf.baseAddr + Reg.size.offset) (announcedWords (4 * n)) := by
  apply Iff.intro
  · intro ⟨v, eq, value⟩
    rw [eq]
    congr 1
    apply UInt32.toNat_inj.mp
    rw [value, announcedWords_words small]
  · intro eq
    exact ⟨_, eq, announcedWords_words small⟩

/-! ## The code follows the script -/

/-- The runs of a program of one access. -/
lemma run_issue {k : e.Answer → Outcome BasedError α} {o : Outcome Error α} :
    Run (Io.mapErr Error.basedError ((Prog.access e).bind fun r => .ret (k r))) t o ↔
      ∃ r, t = [⟨e, r⟩] ∧ o = (k r).mapErr .basedError := by
  apply Io.run_mapErr.trans
  apply Iff.intro
  · intro ⟨o', run, eq⟩
    obtain ⟨t₁, t₂, r, rfl, access, rest⟩ := run_bind.mp run
    obtain ⟨rfl, rfl⟩ := run_ret.mp rest
    exact ⟨r, by rw [List.append_nil, run_access.mp access], eq⟩
  · intro ⟨r, eq, result⟩
    refine ⟨k r, run_bind.mpr ⟨t, [], r, (List.append_nil t).symm, ?_, .ret⟩, result⟩
    exact run_access.mpr eq

/-- A program of one access follows the stage that asks for just this access. -/
lemma follows_access {k : e.Answer → Outcome BasedError α} (only : ∀ e', P e' ↔ e' = e)
    (answer : ∀ r, (failure ⟨e, r⟩ = none ∧ ∃ a, k r = .ok a) ∨
      ∃ err, failure ⟨e, r⟩ = some err ∧ k r = .err err) :
    Follows (Io.mapErr Error.basedError ((Prog.access e).bind fun r => .ret (k r))) [issue P] := by
  apply Follows.single
  · intro t
    apply Iff.intro
    · intro ⟨a, run⟩
      obtain ⟨r, rfl, eq⟩ := run_issue.mp run
      obtain ⟨fine, _⟩ | ⟨err, _, same⟩ := answer r
      · exact ⟨⟨e, r⟩, rfl, (only e).mpr rfl, fine⟩
      · rw [same] at eq
        cases eq
    · intro ⟨⟨e', r⟩, eq, kind, fine⟩
      obtain rfl := (only e').mp kind
      obtain ⟨_, a, same⟩ | ⟨err, fails, _⟩ := answer r
      · exact ⟨a, run_issue.mpr ⟨r, eq, by rw [same]; rfl⟩⟩
      · rw [fine] at fails
        cases fails
  · intro t error
    apply Iff.intro
    · intro run
      obtain ⟨r, rfl, eq⟩ := run_issue.mp run
      obtain ⟨_, a, same⟩ | ⟨err, fails, same⟩ := answer r
      · rw [same] at eq
        cases eq
      · rw [same] at eq
        cases eq
        exact ⟨⟨e, r⟩, err, rfl, (only e).mpr rfl, fails, rfl⟩
    · intro ⟨⟨e', r⟩, err, eq, kind, fails, result⟩
      obtain rfl := (only e').mp kind
      obtain ⟨fine, _⟩ | ⟨err', fails', same⟩ := answer r
      · rw [fine] at fails
        cases fails
      · rw [fails] at fails'
        cases fails'
        exact run_issue.mpr ⟨r, eq, by rw [same, result]; rfl⟩
  · intro t run
    obtain ⟨r, _, eq⟩ := run_issue.mp run
    obtain ⟨_, a, same⟩ | ⟨err, _, same⟩ := answer r
    · rw [same] at eq
      cases eq
    · rw [same] at eq
      cases eq

/-- A register write follows the stage that asks for it. -/
lemma follows_write {reg : Reg} {v : UInt32}
    (only : ∀ e, P e ↔ e = .ctrlWriteU32 (hb.ctrlIf.baseAddr + reg.offset) v) :
    Follows (setHbicapReg hb reg v) [issue P] := by
  apply follows_access only
  intro r
  cases r with
  | error e => exact .inr ⟨e, rfl, rfl⟩
  | ok _ => exact .inl ⟨rfl, _, rfl⟩

/-- A DMA write follows the stage that asks for it. -/
lemma follows_dmaWrite (only : ∀ e, P e ↔ e = .dmaWrite (hb.dmaIf.baseAddr + 0) buf) :
    Follows ((basedDmaWrite hb.dmaIf buf 0).mapErr Error.basedError) [issue P] := by
  apply follows_access only
  intro r
  cases r with
  | error e => exact .inr ⟨e, rfl, rfl⟩
  | ok _ => exact .inl ⟨rfl, _, rfl⟩

/-- A DMA read follows the stage that asks for it. -/
lemma follows_dmaRead (only : ∀ e, P e ↔ e = .dmaRead (hb.dmaIf.baseAddr + 0) n) :
    Follows ((basedDmaRead hb.dmaIf n 0).mapErr Error.basedError) [issue P] := by
  apply follows_access only
  intro r
  cases r with
  | error e => exact .inr ⟨e, rfl, rfl⟩
  | ok b => exact .inl ⟨rfl, b, rfl⟩

/-- A wait follows the stage that awaits it. -/
lemma follows_poll {reg : Reg} {mask expected : UInt32} :
    Follows (pollEvery10ms hb reg mask expected (Duration.fromSecs 10))
      [await hb reg mask expected] := by
  apply Follows.single
  · intro t
    apply Iff.intro
    · intro ⟨k, run⟩
      obtain ⟨pos, searched, _⟩ | ⟨_, eq⟩ := run_pollEvery10ms.mp run
      · exact ⟨pos, polls_ten_seconds ▸ searched⟩
      · cases eq
    · intro ⟨pos, searched⟩
      exact ⟨pos + 1, run_pollEvery10ms.mpr (.inl ⟨pos, polls_ten_seconds ▸ searched, rfl⟩)⟩
  · intro t error
    apply Iff.intro
    · intro run
      obtain ⟨_, _, eq⟩ | ⟨searched, eq⟩ := run_pollEvery10ms.mp run
      · cases eq
      · cases eq
        exact ⟨polls_ten_seconds ▸ searched, rfl⟩
    · intro ⟨searched, eq⟩
      subst eq
      exact run_pollEvery10ms.mpr (.inr ⟨polls_ten_seconds ▸ searched, rfl⟩)
  · intro t run
    obtain ⟨_, _, eq⟩ | ⟨_, eq⟩ := run_pollEvery10ms.mp run
    · cases eq
    · cases eq

/-- Sending a program, as `read_programming` does it twice. -/
lemma follows_program (small : words.length < 2 ^ 32) {ss : List PortStage} {k : Driver Error α}
    (rest : Follows k ss) :
    Follows (writeBitstream hb (words.flatMap toLeBytes) >>= fun _ =>
      pollDoneEvery10ms hb (Duration.fromSecs 10) >>= fun _ => k) (program hb words ++ ss) := by
  rw [writeBitstream, length_words, Io.bind_assoc]
  apply Follows.bind (follows_write fun e => sizes_iff small)
  intro _
  apply Follows.bind (follows_dmaWrite fun e => sends_iff)
  intro _
  exact Follows.bind follows_poll fun _ => rest

/-- The code of `read_programming` follows its script. -/
theorem follows_readProgramming (opens : opening.length < 2 ^ 32) (small : n < 2 ^ 32)
    (closes : closing.length < 2 ^ 32) :
    Follows (readProgramming hb opening closing (4 * n)) (readScript hb opening closing n) := by
  apply follows_program opens
  -- What `read_programming` does in between, in the order of `readOut`.
  rw [readBitstream, Io.bind_assoc]
  apply Follows.bind (follows_write fun e => sizes_iff small)
  intro _
  rw [Io.bind_assoc]
  apply Follows.bind (follows_write fun e => Iff.rfl)
  intro _
  apply Follows.bind (follows_dmaRead fun e => Iff.rfl)
  intro output
  apply Follows.bind follows_poll
  intro _
  have ends : Follows _ (program hb closing ++ []) := follows_program closes (.pure output)
  rwa [List.append_nil] at ends

/-! ## Order of the accesses -/

variable {h : List CardEvent} {len : Nat}

lemma closesAfterRead_other (other : ¬ IsDmaWrite e) : ClosesAfterRead hb h e :=
  fun isWrite => absurd isWrite other

/-- The read: what follows it finds the bytes of the DMA read and a Read bit seen clear behind it. -/
lemma wp_readOut {Q : Outcome Error α → List CardEvent → Prop} {k : Bytes len → Driver Error α}
    (fails : ∀ e h', Q (.err e) h')
    (next : ∀ b h', ⟨.dmaRead hb.dmaIf.baseAddr len, .ok b⟩ ∈ h' →
      InOrder [ReadRequested hb, ReadClearSeen hb] h' →
        (history _ _).wp (ClosesAfterRead hb) (k b) Q h') :
    (history _ _).wp (ClosesAfterRead hb) (readBitstream hb len >>= fun output =>
      pollReadClearEvery10ms hb (Duration.fromSecs 10) >>= fun _ => k output : Driver Error α) Q h := by
  rw [readBitstream, Io.bind_assoc]
  apply step_write (closesAfterRead_other nofun) (fun e => fails _ _)
  rw [Io.bind_assoc]
  apply step_write (closesAfterRead_other nofun) (fun e => fails _ _)
  apply step_dmaRead (closesAfterRead_other nofun) (fun e => fails _ _)
  intro b
  apply step_poll (fun _ => closesAfterRead_other nofun) (fun _ _ _ => fails _ _)
  intro ms v _ _ clear
  -- The read was requested, the bytes came, and then the bit was seen clear.
  apply next
  · exact List.mem_append_left _ (List.mem_append_left ms List.mem_concat_self)
  · have requested : ∀ {h}, InOrder [ReadRequested hb] (h ++ [⟨requestRead hb, .ok ()⟩]) :=
      InOrder.nil.concat rfl
    exact ((requested.append _).append ms).concat ⟨v, rfl, clear⟩

/-- Sending a program where it is allowed. -/
lemma wp_program {Q : Outcome Error α → List CardEvent → Prop} {k : Driver Error α}
    (allowed : (∃ ev ∈ h, IsDmaWrite ev.1) → InOrder [ReadRequested hb, ReadClearSeen hb] h)
    (fails : ∀ e h', Q (.err e) h')
    (next : ∀ t, (history _ _).wp (ClosesAfterRead hb) k Q (h ++ t)) :
    (history _ _).wp (ClosesAfterRead hb) (writeBitstream hb buf >>= fun _ =>
      pollDoneEvery10ms hb (Duration.fromSecs 10) >>= fun _ => k : Driver Error α) Q h := by
  rw [writeBitstream, Io.bind_assoc]
  apply step_write (closesAfterRead_other nofun) (fun e => fails _ _)
  apply step_dmaWrite _ (fun e => fails _ _)
  · apply step_poll (fun _ => closesAfterRead_other nofun) (fun _ _ _ => fails _ _)
    intro ms v _ _ _
    simp only [List.append_assoc]
    exact next _
  · intro _ ⟨ev, mem, sent⟩
    obtain mem | mem := List.mem_append.mp mem
    -- The Size write in front of it is no DMA write, so the other one came before.
    · exact (allowed ⟨ev, mem, sent⟩).append _
    · rw [List.mem_singleton.mp mem] at sent
      obtain ⟨_, _, eq⟩ := sent
      cases eq

/-- What the output is filled with is what the DMA read returned, and the closing program is not sent
    before the Read bit was seen clear. -/
lemma wp_readProgramming :
    (history _ _).wp (ClosesAfterRead hb) (readProgramming hb opening closing len)
      (fun o h => ∀ b, o = .ok b → ⟨.dmaRead hb.dmaIf.baseAddr len, .ok b⟩ ∈ h) [] := by
  apply wp_program (fun ⟨_, mem, _⟩ => absurd mem List.not_mem_nil) (fun _ _ _ => nofun)
  intro _
  apply wp_readOut (fun _ _ _ => nofun)
  intro b h filled ended
  apply wp_program (fun _ => ended) (fun _ _ _ => nofun)
  intro t
  refine history_ret.mpr fun b' eq => ?_
  cases eq
  exact List.mem_append_left t filled

end

/-- `read_programming` sends exactly the two programs around one read. Its accesses carry out the
    script, up to the stage that fails; it returns what the DMA read gave when the script is carried
    out, and otherwise the error of the failed stage; and it does not send the closing program before
    the Read bit was seen clear. -/
theorem readProgramming_sends (hb : HbicapIf) (opening closing : List UInt32) (n : Nat)
    (opens : opening.length < 2 ^ 32) (small : n < 2 ^ 32) (closes : closing.length < 2 ^ 32)
    {t : List CardEvent} {o : Outcome Error (Bytes (4 * n))}
    (run : Run (readProgramming hb opening closing (4 * n)) t o) :
    ((∃ b, o = .ok b) ↔ Performs (readScript hb opening closing n) t none) ∧
    ((∃ b, o = .ok b) ∨ ∃ e, o = .err e ∧ Performs (readScript hb opening closing n) t (some e)) ∧
    (∀ b, o = .ok b → ⟨.dmaRead hb.dmaIf.baseAddr (4 * n), .ok b⟩ ∈ t) ∧
    ∀ pre e r post, t = pre ++ ⟨e, r⟩ :: post → ClosesAfterRead hb pre e := by
  obtain ⟨returns, ends⟩ := (follows_readProgramming opens small closes).run run
  obtain ⟨filled, order⟩ := wp_run wp_readProgramming run
  exact ⟨returns, ends, filled, order⟩

/-- On a card where the port is idle at once, a program of one word is carried out. -/
theorem readProgramming_sends_sync :
    let hb : HbicapIf := ⟨⟨0x04050000⟩, ⟨0x1000000000000000⟩⟩
    Performs (readScript hb [syncCmd] [dummyCmd] 1)
      ((readProgramming hb [syncCmd] [dummyCmd] (4 * 1)).runWith (fun _ => Access.succeed 1) []).1
      none :=
  (readProgramming_sends _ _ _ _ (by decide) (by decide) (by decide) (run_runWith _ _ [])).1.mp
    ⟨_, rfl⟩

end Warpshell.Hbicap
