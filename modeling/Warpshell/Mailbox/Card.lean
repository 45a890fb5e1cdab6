import Warpshell.Cores.Cms
import Warpshell.Interaction.Trace

/-!
# The mailbox and its firmware

The other side of `cores/cms.rs`: the Control register, the host message error and the mailbox words
of the core, and the firmware that serves requests. The firmware acts only while the mailbox status
bit is set; it then overwrites the mailbox with a response to the header it finds, sets the error,
and only afterwards clears the bit. Which response and which error it chooses is left open.

A register read gives the value that the register has, or fails. A write has its effect, or fails
with or without it. The card logs all effects, those of the host with the party they come from.
-/

namespace Warpshell.Cms
open Interaction

/-- Where the registers and the mailbox of a core are. -/
structure Map where
  core : BaseParam
  hostMsgOffset : UInt32
  inRange : 0x1000 ≤ hostMsgOffset.toNat ∧ hostMsgOffset.toNat ≤ 0x1ffc

/-- What the firmware is doing. -/
inductive Phase where
  | idle
  | posted (header : UInt32) (response : Nat → UInt32)
  | answered (header : UInt32) (response : Nat → UInt32) (error : UInt32)

instance (p : Phase) : Decidable (p = .idle) :=
  match p with
  | .idle => isTrue rfl
  | .posted _ _ => isFalse nofun
  | .answered _ _ _ => isFalse nofun

/-- Effects on the card: reads and writes of the host, posted responses, and requests served. -/
inductive Entry (τ : Type) where
  | read (who : τ) (addr : Nat) (value : UInt32)
  | wrote (who : τ) (addr : Nat) (value : UInt32)
  | posted (header : UInt32) (response : Nat → UInt32)
  | served (header : UInt32) (response : Nat → UInt32) (error : UInt32)

/-- The state of the card. -/
structure Card (τ : Type) where
  control : UInt32
  hostMsgError : UInt32
  mailbox : Nat → UInt32
  phase : Phase
  log : List (Entry τ)

/-- What an address stands for. -/
inductive Location where
  | control
  | hostMsgOffset
  | hostMsgError
  | word (i : Nat)
  | other
  deriving DecidableEq, Repr

/-- The mailbox status bit of a Control value. -/
def Busy (control : UInt32) : Prop := control &&& ControlRegBit.mailboxStatus.mask ≠ 0

instance (control : UInt32) : Decidable (Busy control) := inferInstanceAs (Decidable (_ ≠ _))

namespace Map

def reg (m : Map) (r : CmsReg) : Nat := m.core.baseAddr + r.offset

def mboxOffset (m : Map) : Nat := 0x28000 + m.hostMsgOffset.toNat

def word (m : Map) (i : Nat) : Nat := m.core.baseAddr + (m.mboxOffset + 4 * i)

/-- What an address stands for. -/
def locate (m : Map) (addr : Nat) : Location :=
  if addr = m.reg .control then .control
  else if addr = m.reg .hostMsgOffset then .hostMsgOffset
  else if addr = m.reg .hostMsgError then .hostMsgError
  else if m.word 0 ≤ addr ∧ (addr - m.word 0) % 4 = 0 then .word ((addr - m.word 0) / 4)
  else .other

end Map

namespace Card
variable {τ : Type}

/-- The mailbox status bit is set. -/
abbrev busy (s : Card τ) : Prop := Busy s.control

def record (s : Card τ) (e : Entry τ) : Card τ := { s with log := s.log ++ [e] }

/-- What can be read at a location. -/
def Holds (m : Map) (s : Card τ) (v : UInt32) : Location → Prop
  | .control => v = s.control
  | .hostMsgOffset => v = m.hostMsgOffset
  | .hostMsgError => v = s.hostMsgError
  | .word i => v = s.mailbox i
  | .other => True

/-- The effect of a write at a location. -/
def put (s : Card τ) (v : UInt32) : Location → Card τ
  | .control => { s with control := v }
  | .hostMsgOffset => s
  | .hostMsgError => { s with hostMsgError := v }
  | .word i => { s with mailbox := fun j => if j = i then v else s.mailbox j }
  | .other => s

/-- Reading an address can give a value. -/
def Reads (m : Map) (s : Card τ) (addr : Nat) (v : UInt32) : Prop := s.Holds m v (m.locate addr)

/-- The effect of a write. -/
def write (m : Map) (who : τ) (s : Card τ) (addr : Nat) (v : UInt32) : Card τ :=
  (s.record (.wrote who addr v)).put v (m.locate addr)

/-- How the card answers an access of `who`. -/
inductive Answers (m : Map) (who : τ) : Card τ → (e : Access) → e.Answer → Card τ → Prop where
  | read {s addr v} : s.Reads m addr v →
    Answers m who s (.ctrlReadU32 addr) (.ok v) (s.record (.read who addr v))
  | readFailed {s addr err} : Answers m who s (.ctrlReadU32 addr) (.error err) s
  | write {s addr v} : Answers m who s (.ctrlWriteU32 addr v) (.ok ()) (s.write m who addr v)
  | writeFailed {s addr v err} : Answers m who s (.ctrlWriteU32 addr v) (.error err) s
  | writeUnsure {s addr v err} :
    Answers m who s (.ctrlWriteU32 addr v) (.error err) (s.write m who addr v)
  | dmaRead {s addr len r} : Answers m who s (.dmaRead addr len) r s
  | dmaWrite {s addr buf r} : Answers m who s (.dmaWrite addr buf) r s

/-- The card when every access succeeds; `others` are the registers that it does not model. -/
def respond (m : Map) (who : τ) (others : Nat → UInt32) (s : Card τ) :
    (e : Access) → e.Answer × Card τ
  | .ctrlReadU32 addr =>
    let v := match m.locate addr with
      | .control => s.control
      | .hostMsgOffset => m.hostMsgOffset
      | .hostMsgError => s.hostMsgError
      | .word i => s.mailbox i
      | .other => others addr
    (.ok v, s.record (.read who addr v))
  | .ctrlWriteU32 addr v => (.ok (), s.write m who addr v)
  | .dmaRead addr len => (Access.succeed 0 (.dmaRead addr len), s)
  | .dmaWrite _ _ => (.ok (), s)

/-- The executable response is one of the card's answers. -/
lemma respond_answers (m : Map) (who : τ) (others : Nat → UInt32) (s : Card τ) (e : Access) :
    Answers m who s e (s.respond m who others e).1 (s.respond m who others e).2 := by
  cases e with
  | ctrlReadU32 addr =>
    apply Answers.read
    rw [Reads]
    cases m.locate addr with
    | other => trivial
    | control => rfl
    | hostMsgOffset => rfl
    | hostMsgError => rfl
    | word i => rfl
  | ctrlWriteU32 addr v => exact .write
  | dmaRead addr len => exact .dmaRead
  | dmaWrite addr buf => exact .dmaWrite

/-- One step of the firmware. -/
inductive Firmware : Card τ → Card τ → Prop where
  | post {s : Card τ} (response) : s.busy → s.phase = .idle → Firmware s
      { s with
        mailbox := response
        phase := .posted (s.mailbox 0) response
        log := s.log ++ [.posted (s.mailbox 0) response] }
  | setError {s : Card τ} {header response} (error) : s.busy → s.phase = .posted header response →
      Firmware s { s with hostMsgError := error, phase := .answered header response error }
  | clear {s : Card τ} {header response error} : s.busy →
      s.phase = .answered header response error → Firmware s
      { s with
        control := s.control &&& ~~~ControlRegBit.mailboxStatus.mask
        phase := .idle
        log := s.log ++ [.served header response error] }

/-- The card after the firmware has served the request that it found. -/
def serve (s : Card τ) (response : Nat → UInt32) (error : UInt32) : Card τ where
  control := s.control &&& ~~~ControlRegBit.mailboxStatus.mask
  hostMsgError := error
  mailbox := response
  phase := .idle
  log := s.log ++ [.posted (s.mailbox 0) response] ++ [.served (s.mailbox 0) response error]

/-- The firmware can serve a request at once. -/
lemma firmware_serve (s : Card τ) (busy : s.busy) (idle : s.phase = .idle) (response : Nat → UInt32)
    (error : UInt32) : Relation.ReflTransGen Firmware s (s.serve response error) :=
  .head (.post response busy idle) (.head (.setError error busy rfl) (.single (.clear busy rfl)))

/-- The firmware is serving a request only while the status bit is set. -/
def Consistent (s : Card τ) : Prop := s.phase ≠ .idle → s.busy

end Card

/-- The core where the shell has it. -/
def shellMap : Map := ⟨⟨0x04000000⟩, 0x1000, by decide⟩

/-- A card whose mailbox has not been used. -/
def idleCard {τ : Type} : Card τ := ⟨0, 0, fun _ => 0, .idle, []⟩

lemma idleCard_consistent {τ : Type} : (idleCard : Card τ).Consistent :=
  fun phase => absurd rfl phase

end Warpshell.Cms
