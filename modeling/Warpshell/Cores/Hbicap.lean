import Warpshell.Base

/-!
# High bandwidth internal configuration access port

The operations of `cores/hbicap.rs`: registers, configuration packets, bitstream transfers, the
polling loops, and the readback and abort sequences built from them.

`debug!` evaluates its arguments only when debug logging is on, and two of the register reads of the
abort sequence are such arguments, so `abort` takes the log level as a parameter. A `DmaBuffer` is
its contents; its alignment has no effect on what is transferred.
-/

namespace Warpshell.Hbicap
open Interaction

/-- Bytes in a configuration word (Rust `ICAP_WORD_BYTES`). -/
def icapWordBytes : Nat := 4

/-! ## Commands and packets -/

def dummyCmd : UInt32 := 0xffffffff
def busWidthSyncCmd : UInt32 := 0x000000bb
def busWidthDetectCmd : UInt32 := 0x11220044
def syncCmd : UInt32 := 0xaa995566

/-- Word count field of a type 1 packet. -/
def type1NWordsMask : UInt32 := 0x000007ff
/-- Word count field of a type 2 packet. -/
def type2NWordsMask : UInt32 := 0x07ffffff

inductive PacketType where
  | type1
  | type2
  deriving DecidableEq, Repr

def PacketType.code : PacketType → UInt32
  | .type1 => 0b001
  | .type2 => 0b010

inductive Opcode where
  | noop
  | read
  | write
  deriving DecidableEq, Repr

def Opcode.code : Opcode → UInt32
  | .noop => 0b00
  | .read => 0b01
  | .write => 0b10

/-- Configuration control logic registers. -/
inductive ConfigLogicReg where
  | crc | far | fdri | fdro | cmd | ctl0 | mask | stat | lout | cor0 | mfwr | cbc | idcode | axss
  | cor1 | wbstar | timer | bootsts | ctl1 | bspi
  deriving DecidableEq, Repr

def ConfigLogicReg.code : ConfigLogicReg → UInt32
  | .crc => 0b00000
  | .far => 0b00001
  | .fdri => 0b00010
  | .fdro => 0b00011
  | .cmd => 0b00100
  | .ctl0 => 0b00101
  | .mask => 0b00110
  | .stat => 0b00111
  | .lout => 0b01000
  | .cor0 => 0b01001
  | .mfwr => 0b01011
  | .cbc => 0b01010
  | .idcode => 0b01100
  | .axss => 0b01101
  | .cor1 => 0b01110
  | .wbstar => 0b10000
  | .timer => 0b10001
  | .bootsts => 0b10110
  | .ctl1 => 0b11000
  | .bspi => 0b11111

inductive CmdRegCode where
  | null
  | start
  | desync
  deriving DecidableEq, Repr

def CmdRegCode.code : CmdRegCode → UInt32
  | .null => 0b00000
  | .start => 0b00101
  | .desync => 0b01101

structure Type1Packet where
  opcode : Opcode
  reg : ConfigLogicReg
  nWords : UInt32
  deriving DecidableEq, Repr

def Type1Packet.noop : Type1Packet := ⟨.noop, .crc, 0⟩

/-- The header word of a type 1 packet (Rust `From<Type1Packet> for u32`). -/
def Type1Packet.toU32 (p : Type1Packet) : UInt32 :=
  PacketType.type1.code <<< 29 ||| p.opcode.code <<< 27 ||| p.reg.code <<< 13
    ||| (p.nWords &&& type1NWordsMask)

structure Type2Packet where
  opcode : Opcode
  nWords : UInt32
  deriving DecidableEq, Repr

/-- The header word of a type 2 packet (Rust `From<Type2Packet> for u32`). -/
def Type2Packet.toU32 (p : Type2Packet) : UInt32 :=
  PacketType.type2.code <<< 29 ||| p.opcode.code <<< 27 ||| (p.nWords &&& type2NWordsMask)

/-! ## Registers -/

/-- Errors of the core (Rust `hbicap::Error`). -/
inductive Error where
  | basedError (err : BasedError)
  deriving DecidableEq, Repr

/-- HBICAP registers (Rust `HbicapReg`). -/
inductive Reg where
  | globalIntEn
  | intStatus
  | ipIntEn
  | size
  | control
  | status
  | writeFifoVacancy
  | readFifoOccupancy
  | abortStatus
  deriving DecidableEq, Repr

def Reg.offset : Reg → Nat
  | .globalIntEn => 0x1c
  | .intStatus => 0x20
  | .ipIntEn => 0x28
  | .size => 0x108
  | .control => 0x10c
  | .status => 0x110
  | .writeFifoVacancy => 0x114
  | .readFifoOccupancy => 0x118
  | .abortStatus => 0x11c

/-- Control register bits (Rust `ControlRegBit`). -/
inductive ControlRegBit where
  | read
  | fifoClear
  | swReset
  | abort
  | lock
  | setAdditionalReadDelay
  deriving DecidableEq, Repr

def ControlRegBit.mask : ControlRegBit → UInt32
  | .read => (1 : UInt32) <<< 1
  | .fifoClear => (1 : UInt32) <<< 2
  | .swReset => (1 : UInt32) <<< 3
  | .abort => (1 : UInt32) <<< 4
  | .lock => (1 : UInt32) <<< 5
  | .setAdditionalReadDelay => (1 : UInt32) <<< 11

/-- Status register bits (Rust `StatusRegBit`). -/
inductive StatusRegBit where
  | idle
  | eos
  deriving DecidableEq, Repr

def StatusRegBit.mask : StatusRegBit → UInt32
  | .idle => (1 : UInt32) <<< 0
  | .eos => (1 : UInt32) <<< 2

/-- The two interfaces of an HBICAP core (Rust `GetHbicapIf`). -/
structure HbicapIf where
  ctrlIf : BaseParam
  dmaIf : BaseParam
  deriving DecidableEq, Repr

def getHbicapReg (hb : HbicapIf) (reg : Reg) : Driver Error UInt32 :=
  (basedCtrlReadU32 hb.ctrlIf reg.offset).mapErr .basedError

def setHbicapReg (hb : HbicapIf) (reg : Reg) (value : UInt32) : Driver Error Unit :=
  (basedCtrlWriteU32 hb.ctrlIf reg.offset value).mapErr .basedError

def isReady (hb : HbicapIf) : Driver Error Bool := do
  let v ← getHbicapReg hb .status
  pure (v &&& StatusRegBit.idle.mask == StatusRegBit.idle.mask)

def reset (hb : HbicapIf) : Driver Error Unit := do
  let v ← getHbicapReg hb .control
  setHbicapReg hb .control (v ||| ControlRegBit.fifoClear.mask ||| ControlRegBit.swReset.mask)

/-! ## Transfers -/

/-- The number of words announced for a buffer of `len` bytes: `(len / ICAP_WORD_BYTES) as u32`. -/
def announcedWords (len : Nat) : UInt32 := UInt32.ofNat (len / icapWordBytes)

/-- Writes the entire bitstream in one iteration. Doesn't block until completion. -/
def writeBitstream (hb : HbicapIf) (buf : List UInt8) : Driver Error Unit := do
  setHbicapReg hb .size (announcedWords buf.length)
  (basedDmaWrite hb.dmaIf buf 0).mapErr .basedError

/-- Fills a buffer of `len` bytes in one iteration. Doesn't block until completion. -/
def readBitstream (hb : HbicapIf) (len : Nat) : Driver Error (Bytes len) := do
  setHbicapReg hb .size (announcedWords len)
  setHbicapReg hb .control ControlRegBit.read.mask
  (basedDmaRead hb.dmaIf len 0).mapErr .basedError

/-- The number of polls in `duration` at a period of 10 ms. -/
def pollsEvery10ms (duration : Duration) : Nat :=
  usizeOrDefault (duration.asNanos / (Duration.fromMillis 10).asNanos)

/-- Polls a register until `mask` reads `expected`, at 10 ms intervals for `duration`. -/
def pollEvery10ms (hb : HbicapIf) (reg : Reg) (mask expected : UInt32) (duration : Duration) :
    Driver Error Nat :=
  (pollRegMaskSleep hb.ctrlIf reg.offset mask expected (pollsEvery10ms duration)
    (Duration.fromMillis 10)).mapErr .basedError

def pollDoneEvery10ms (hb : HbicapIf) (duration : Duration) : Driver Error Nat :=
  pollEvery10ms hb .status StatusRegBit.idle.mask StatusRegBit.idle.mask duration

/-- Polls for the clearance of the read flag in the control register. -/
def pollReadClearEvery10ms (hb : HbicapIf) (duration : Duration) : Driver Error Nat :=
  pollEvery10ms hb .control ControlRegBit.read.mask 0 duration

/-- Polls for the end of abort procedure. -/
def pollAbortFinishedEvery10ms (hb : HbicapIf) (duration : Duration) : Driver Error Nat :=
  pollEvery10ms hb .control ControlRegBit.abort.mask 0 duration

/-! ## Sequences -/

/-- Control logic read programming sequence. Returns what `output`, a buffer of `len` bytes, was
    filled with. -/
def readProgramming (hb : HbicapIf) (opening closing : List UInt32) (len : Nat) :
    Driver Error (Bytes len) := do
  writeBitstream hb (opening.flatMap toLeBytes)
  let _ ← pollDoneEvery10ms hb (Duration.fromSecs 10)
  let output ← readBitstream hb len
  let _ ← pollReadClearEvery10ms hb (Duration.fromSecs 10)
  writeBitstream hb (closing.flatMap toLeBytes)
  let _ ← pollDoneEvery10ms hb (Duration.fromSecs 10)
  pure output

/-- The program that asks for a configuration register. -/
def readbackOpening (reg : ConfigLogicReg) : List UInt32 :=
  let noop := Type1Packet.noop.toU32
  [dummyCmd, busWidthSyncCmd, busWidthDetectCmd, dummyCmd, syncCmd, noop,
    Type1Packet.toU32 ⟨.read, reg, 1⟩, noop, noop]

/-- The program that desynchronises the port. -/
def readbackClosing : List UInt32 :=
  let noop := Type1Packet.noop.toU32
  [Type1Packet.toU32 ⟨.write, .cmd, 1⟩, CmdRegCode.desync.code, noop, noop]

/-- Returns the value of a config logic register. -/
def configLogicRegReadback (hb : HbicapIf) (reg : ConfigLogicReg) : Driver Error UInt32 := do
  let readBuf ← readProgramming hb (readbackOpening reg) readbackClosing icapWordBytes
  pure (fromLeBytes readBuf)

/-- A register read that is only an argument of `debug!`. -/
def debugHbicapReg (debug : Bool) (hb : HbicapIf) (reg : Reg) : Driver Error Unit :=
  if debug then do
    let _ ← getHbicapReg hb reg
    pure ()
  else pure ()

/-- Control logic abort sequence. -/
def abort (debug : Bool) (hb : HbicapIf) : Driver Error Unit := do
  setHbicapReg hb .control ControlRegBit.abort.mask
  let _ ← pollDoneEvery10ms hb (Duration.fromSecs 10)
  debugHbicapReg debug hb .abortStatus
  debugHbicapReg debug hb .control
  let _ ← pollAbortFinishedEvery10ms hb (Duration.fromSecs 10)
  pure ()

/-- The longest burst, in words (Rust `MAX_BURST_SIZE`). -/
def maxBurstSize : UInt32 := 256

/-- A burst is of at most 256 words. -/
lemma toNat_burst (len : UInt32) : (min maxBurstSize len).toNat = min 256 len.toNat := by
  show (if maxBurstSize ≤ len then maxBurstSize else len).toNat = _
  split
  next le => exact (Nat.min_eq_left (UInt32.le_iff_toNat_le.mp le)).symm
  next more =>
    have lt : len.toNat < 256 := Nat.not_le.mp fun le => more (UInt32.le_iff_toNat_le.mpr le)
    exact (Nat.min_eq_right (Nat.le_of_lt lt)).symm

/-- What is left after a burst, without wrapping. -/
lemma toNat_sub_burst (len : UInt32) :
    (len - min maxBurstSize len).toNat = len.toNat - min 256 len.toNat := by
  have le : min maxBurstSize len ≤ len := by
    rw [UInt32.le_iff_toNat_le, toNat_burst]
    exact Nat.min_le_right 256 len.toNat
  rw [UInt32.toNat_sub_of_le _ _ le, toNat_burst]

/-- The loop of `write_programming`, which announces one burst after the other. -/
def announceBursts (hb : HbicapIf) (len : UInt32) : Driver Error Unit :=
  if _h : 0 < len then do
    let size := min maxBurstSize len
    setHbicapReg hb .size size
    announceBursts hb (len - size)
  else pure ()
termination_by len.toNat
decreasing_by
  have pos : 0 < len.toNat := UInt32.lt_iff_toNat_lt.mp _h
  rw [toNat_sub_burst]
  omega

/-- Control logic write programming sequence, which ends in a `todo!()`. -/
def writeProgramming (hb : HbicapIf) (words : List UInt32) : Driver Error Unit := do
  announceBursts hb (UInt32.ofNat words.length)
  .ofOutcome .panic

end Warpshell.Hbicap
