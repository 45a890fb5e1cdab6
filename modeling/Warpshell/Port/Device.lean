import Warpshell.Port.Packets
import Warpshell.Port.Programs

/-!
# The configuration port

The other side of `cores/hbicap.rs`. Two queues stand between the host and the configuration logic:
words written over DMA wait in the one until they are put on the port, words read out of a
configuration register wait in the other until the host fetches them. The Size register says how many
words are to be moved, Control says in which direction, and nothing is moved while the host has one of
its accesses answered; the port does it in steps of its own, in between.

The configuration logic takes one word after the other (`Logic.take`). It ignores everything until it
is synchronised; after that a header of a packet names a register, and the words that follow the header
are the payload of the packet, or are read out of that register.

A register of the core shows what the port is doing, and no more than the driver relies on: Idle is not
set while there is something to move, Read and Abort are set for as long as it takes to do what they
ask for. As elsewhere, a write that fails may have had its effect.
-/

namespace Warpshell.Hbicap
open Interaction

/-! ## Reading headers -/

def Opcode.ofBits (n : Nat) : Option Opcode :=
  [noop, read, write].find? (·.code.toNat == n)

def ConfigLogicReg.ofBits (n : Nat) : Option ConfigLogicReg :=
  all.find? (·.code.toNat == n)

/-- The packet with a given header word. -/
def Packet.decode (w : UInt32) : Option Packet :=
  if bits 31 29 w = PacketType.type1.code.toNat then do
    let opcode ← Opcode.ofBits (bits 28 27 w)
    let reg ← ConfigLogicReg.ofBits (bits 26 13 w)
    pure (.type1 ⟨opcode, reg, UInt32.ofNat (bits 10 0 w)⟩)
  else if bits 31 29 w = PacketType.type2.code.toNat then do
    let opcode ← Opcode.ofBits (bits 28 27 w)
    pure (.type2 ⟨opcode, UInt32.ofNat (bits 26 0 w)⟩)
  else none

/-- A packet with the word count that its header has room for. -/
def Packet.trimmed : Packet → Packet
  | .type1 p => .type1 { p with nWords := p.nWords &&& type1NWordsMask }
  | .type2 p => .type2 { p with nWords := p.nWords &&& type2NWordsMask }

lemma Opcode.ofBits_code (o : Opcode) : ofBits o.code.toNat = some o := by
  cases o <;> rfl

lemma ConfigLogicReg.ofBits_code (r : ConfigLogicReg) : ofBits r.code.toNat = some r := by
  cases r <;> rfl

/-- The lowest bits of a word are the word under their mask. -/
lemma ofNat_masked (v mask : UInt32) {w : Nat} (lowest : mask.toNat = 2 ^ w - 1) :
    UInt32.ofNat (v.toNat % 2 ^ w) = v &&& mask := by
  apply UInt32.toNat_inj.mp
  rw [UInt32.toNat_and, lowest, Nat.and_two_pow_sub_one_eq_mod]
  exact UInt32.toNat_ofNat_of_lt (Nat.lt_of_le_of_lt (Nat.mod_le _ _) v.toNat_lt)

/-- A header is read back as what it is made from. -/
lemma Packet.decode_header (p : Packet) : decode p.header = some p.trimmed := by
  cases p with
  | type1 p =>
    obtain ⟨kind, opcode, reg, count⟩ := p.bits_toU32
    simp only [header, decode, kind, opcode, reg, count, if_true, Opcode.ofBits_code,
      ConfigLogicReg.ofBits_code, ofNat_masked p.nWords type1NWordsMask (w := 11) rfl]
    rfl
  | type2 p =>
    obtain ⟨kind, opcode, count⟩ := p.bits_toU32
    have other : ¬ PacketType.type2.code.toNat = PacketType.type1.code.toNat := by decide
    simp only [header, decode, kind, opcode, count, if_neg other, if_true, Opcode.ofBits_code,
      ofNat_masked p.nWords type2NWordsMask (w := 27) rfl]
    rfl

/-! ## Configuration logic -/

/-- What the configuration logic is in the middle of: the register named last, the words of a write
    packet that are still to come, and the words of a read packet that are still to be read out. -/
structure Logic where
  synced : Bool
  reg : ConfigLogicReg
  payload : Nat
  requested : Nat
  deriving DecidableEq, Repr

namespace Logic

/-- The effect of a header. A type 2 packet is about the register named before. -/
def packet (l : Logic) (p : Packet) : Logic :=
  match p.opcode with
  | .noop => l
  | .read => { l with reg := p.reg.getD l.reg, requested := p.count }
  | .write => { l with reg := p.reg.getD l.reg, payload := p.count }

/-- The effect of a word put on the port. -/
def take (l : Logic) (w : UInt32) : Logic :=
  if !l.synced then { l with synced := w == syncCmd }
  else if 0 < l.payload then
    { l with
      payload := l.payload - 1
      synced := !(l.reg == .cmd && w == CmdRegCode.desync.code) }
  else
    match Packet.decode w with
    | some p => l.packet p
    | none => l

/-- The effect of a program. -/
def takeAll (l : Logic) (ws : List UInt32) : Logic := ws.foldl take l

/-- `n` words were read out. -/
def deliver (l : Logic) (n : Nat) : Logic := { l with requested := l.requested - n }

end Logic

/-! ## The port -/

/-- A word that crosses the port: one that is put on it, one that is read out of a register, or one
    that is read out although nothing was asked for. -/
inductive Move where
  | put (w : UInt32)
  | read (reg : ConfigLogicReg) (v : UInt32)
  | stray (v : UInt32)
  deriving DecidableEq, Repr

/-- The state of the port. -/
structure Port where
  /-- The contents of the configuration registers. -/
  regs : ConfigLogicReg → UInt32
  logic : Logic
  /-- Words announced, and not moved yet. -/
  left : Nat
  /-- Words on the way to the port. -/
  writeFifo : List UInt32
  /-- Words on the way to the host. -/
  readFifo : List UInt32
  /-- The Read bit of Control. -/
  reading : Bool
  /-- The Abort bit of Control. -/
  aborting : Bool
  /-- What has crossed the port so far. -/
  log : List Move

namespace Port

/-- There is something to move. -/
def Busy (s : Port) : Prop := s.reading = true ∨ 0 < s.left ∧ s.writeFifo ≠ []

/-- One step of the port. -/
inductive Acts : Port → Port → Prop where
  /-- Configuration registers change for reasons of their own. -/
  | change {s : Port} (regs) : Acts s { s with regs := regs }
  | put {s : Port} {w ws n} : s.reading = false → s.left = n + 1 → s.writeFifo = w :: ws →
      Acts s
      { s with
        left := n
        writeFifo := ws
        logic := s.logic.take w
        log := s.log ++ [.put w] }
  | deliver {s : Port} {n m} : s.reading = true → s.left = n + 1 → s.logic.requested = m + 1 →
      Acts s
      { s with
        left := n
        logic := s.logic.deliver 1
        readFifo := s.readFifo ++ [s.regs s.logic.reg]
        log := s.log ++ [.read s.logic.reg (s.regs s.logic.reg)] }
  /-- Nothing was asked for, so whatever is there is read out. -/
  | starve {s : Port} {n} (v) : s.reading = true → s.left = n + 1 → s.logic.requested = 0 →
      Acts s { s with left := n, readFifo := s.readFifo ++ [v], log := s.log ++ [.stray v] }
  | readDone {s : Port} : s.reading = true → s.left = 0 → Acts s { s with reading := false }
  /-- The packet in progress is given up, and the queues are cleared. -/
  | abortDone {s : Port} (synced) : s.aborting = true → Acts s
      { s with
        logic := { s.logic with synced := synced, payload := 0, requested := 0 }
        left := 0
        writeFifo := []
        readFifo := []
        reading := false
        aborting := false }

/-- The effect of a write of Control. -/
def setControl (s : Port) (v : UInt32) : Port :=
  let sets (bit : ControlRegBit) : Bool := v &&& bit.mask != 0
  let clears : Bool := sets .fifoClear || sets .swReset
  { s with
    left := if sets .swReset then 0 else s.left
    writeFifo := if clears then [] else s.writeFifo
    readFifo := if clears then [] else s.readFifo
    reading := sets .read || !sets .swReset && s.reading
    aborting := sets .abort || !sets .swReset && s.aborting }

/-- The effect of a register write. Size has 30 bits. -/
def set (s : Port) (v : UInt32) : Reg → Port
  | .size => { s with left := v.toNat % 2 ^ 30 }
  | .control => s.setControl v
  | _ => s

/-- What can be read from a register. -/
def Shows (s : Port) (v : UInt32) : Reg → Prop
  | .status => v &&& StatusRegBit.idle.mask = StatusRegBit.idle.mask → ¬ s.Busy
  | .control => (v &&& ControlRegBit.read.mask ≠ 0 ↔ s.reading = true) ∧
      (v &&& ControlRegBit.abort.mask ≠ 0 ↔ s.aborting = true)
  | _ => True

end Port

/-! ## Accesses -/

/-- The registers, in the order of the source. -/
def Reg.all : List Reg :=
  [.globalIntEn, .intStatus, .ipIntEn, .size, .control, .status, .writeFifoVacancy,
    .readFifoOccupancy, .abortStatus]

/-- The register at an address. -/
def HbicapIf.locate (hb : HbicapIf) (addr : Nat) : Option Reg :=
  Reg.all.find? (hb.ctrlIf.baseAddr + ·.offset == addr)

/-- How the port answers an access. -/
inductive Port.Answers (hb : HbicapIf) : Port → (e : Access) → e.Answer → Port → Prop where
  | read {s addr v} : (∀ reg, hb.locate addr = some reg → s.Shows v reg) →
      Answers hb s (.ctrlReadU32 addr) (.ok v) s
  | readFailed {s addr err} : Answers hb s (.ctrlReadU32 addr) (.error err) s
  | write {s addr v reg r} : hb.locate addr = some reg →
      Answers hb s (.ctrlWriteU32 addr v) r (s.set v reg)
  | writeElsewhere {s addr v r} : hb.locate addr = none → Answers hb s (.ctrlWriteU32 addr v) r s
  | writeFailed {s addr v err} : Answers hb s (.ctrlWriteU32 addr v) (.error err) s
  /-- The read lasts until the words are there. -/
  | dmaRead {s : Port} {len b rest} : s.readFifo = leWords b.1 ++ rest →
      Answers hb s (.dmaRead hb.dmaIf.baseAddr len) (.ok b) { s with readFifo := rest }
  | dmaReadFailed {s : Port} {len err n} :
      Answers hb s (.dmaRead hb.dmaIf.baseAddr len) (.error err)
        { s with readFifo := s.readFifo.drop n }
  | dmaWrite {s : Port} {buf} : Answers hb s (.dmaWrite hb.dmaIf.baseAddr buf) (.ok ())
        { s with writeFifo := s.writeFifo ++ leWords buf }
  | dmaWriteFailed {s : Port} {buf err n} :
      Answers hb s (.dmaWrite hb.dmaIf.baseAddr buf) (.error err)
        { s with writeFifo := s.writeFifo ++ (leWords buf).take n }
  | dmaElsewhere {s e r} : (∀ addr v, e ≠ .ctrlWriteU32 addr v) → (∀ addr, e ≠ .ctrlReadU32 addr) →
      (∀ len, e ≠ .dmaRead hb.dmaIf.baseAddr len) → (∀ buf, e ≠ .dmaWrite hb.dmaIf.baseAddr buf) →
      Answers hb s e r s

/-- The port, as its host sees it. -/
def HbicapIf.world (hb : HbicapIf) : World Access Access.Answer Port where
  env := Port.Acts
  answers := Port.Answers hb

end Warpshell.Hbicap
