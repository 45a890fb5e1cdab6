import Mathlib.Data.List.Nodup
import Warpshell.BitFields
import Warpshell.Cores.Hbicap

/-!
# Packet headers

The two encoders of header words as layouts of bit fields: three bits of packet type and two of opcode
on top, then either the register, two unused bits and eleven bits of word count, or 27 bits of word
count. A word count that is too large for its field is cut off by the mask.
-/

namespace Warpshell.Hbicap
open BitFields

/-! ## Packets of either type -/

inductive Packet where
  | type1 (p : Type1Packet)
  | type2 (p : Type2Packet)
  deriving DecidableEq, Repr

def Packet.header : Packet → UInt32
  | .type1 p => p.toU32
  | .type2 p => p.toU32

def Packet.packetType : Packet → PacketType
  | .type1 _ => .type1
  | .type2 _ => .type2

def Packet.opcode : Packet → Opcode
  | .type1 p => p.opcode
  | .type2 p => p.opcode

/-- The register a packet is about. A type 2 packet names none. -/
def Packet.reg : Packet → Option ConfigLogicReg
  | .type1 p => some p.reg
  | .type2 _ => none

/-- The word count, as far as it fits the field. -/
def Packet.count : Packet → Nat
  | .type1 p => p.nWords.toNat % 2 ^ 11
  | .type2 p => p.nWords.toNat % 2 ^ 27

/-- Bits `hi` to `lo` of a word. -/
def bits (hi lo : Nat) (v : UInt32) : Nat := (v.toBitVec.extractLsb hi lo).toNat

/-! ## Codes -/

/-- The lowest `w` bits of a word, as a field. -/
def lowest (w : Nat) (v : UInt32) : BitVec w := v.toBitVec.setWidth w

section
variable {w : Nat} {v v' : UInt32}

lemma toNat_lowest : (lowest w v).toNat = v.toNat % 2 ^ w := BitVec.toNat_setWidth w v.toBitVec

/-- The lowest bits agree exactly if the numbers do, up to the width. -/
lemma lowest_inj : lowest w v = lowest w v' ↔ v.toNat % 2 ^ w = v'.toNat % 2 ^ w := by
  rw [← BitVec.toNat_inj, toNat_lowest, toNat_lowest]

lemma toNat_lowest_code (small : v.toNat < 2 ^ w) : (lowest w v).toNat = v.toNat := by
  rw [toNat_lowest, Nat.mod_eq_of_lt small]

/-- A code that fits its field is not cut off. -/
lemma setWidth_lowest (small : v.toNat < 2 ^ w) : (lowest w v).setWidth 32 = v.toBitVec := by
  apply BitVec.eq_of_toNat_eq
  rw [BitVec.toNat_setWidth, toNat_lowest_code small]
  exact Nat.mod_eq_of_lt v.toNat_lt

/-- A mask keeps the lowest bits. -/
lemma toBitVec_masked (mask : v'.toBitVec = (BitVec.allOnes w).setWidth 32) :
    (v &&& v').toBitVec = (lowest w v).setWidth 32 := by
  rw [UInt32.toBitVec_and, mask, and_lowMask, lowest]

end

/-- Packet types take three bits. -/
lemma PacketType.code_lt (t : PacketType) : t.code.toNat < 2 ^ 3 := by
  cases t <;> decide

/-- Opcodes take two bits. -/
lemma Opcode.code_lt (o : Opcode) : o.code.toNat < 2 ^ 2 := by
  cases o <;> decide

/-- Register addresses take fourteen bits. -/
lemma ConfigLogicReg.code_lt (r : ConfigLogicReg) : r.code.toNat < 2 ^ 14 := by
  cases r <;> decide

lemma PacketType.code_inj {t t' : PacketType} (eq : t.code.toNat = t'.code.toNat) : t = t' := by
  cases t <;> cases t' <;> first | rfl | exact absurd eq (by decide)

lemma Opcode.code_inj {o o' : Opcode} (eq : o.code.toNat = o'.code.toNat) : o = o' := by
  cases o <;> cases o' <;> first | rfl | exact absurd eq (by decide)

/-- The registers, in the order of the source. -/
def ConfigLogicReg.all : List ConfigLogicReg :=
  [.crc, .far, .fdri, .fdro, .cmd, .ctl0, .mask, .stat, .lout, .cor0, .mfwr, .cbc, .idcode, .axss,
    .cor1, .wbstar, .timer, .bootsts, .ctl1, .bspi]

lemma ConfigLogicReg.mem_all (r : ConfigLogicReg) : r ∈ all := by
  cases r <;> decide

lemma ConfigLogicReg.code_inj {r r' : ConfigLogicReg} (eq : r.code.toNat = r'.code.toNat) :
    r = r' := by
  have distinct : (all.map code).Nodup := by decide
  exact List.inj_on_of_nodup_map distinct r.mem_all r'.mem_all (UInt32.toNat_inj.mp eq)

/-! ## Layouts -/

/-- Type, opcode, register, two unused bits, word count. -/
def type1Layout : List Nat := [3, 2, 14, 2, 11]

def Type1Packet.fields (p : Type1Packet) : Fields type1Layout :=
  .cons (lowest 3 PacketType.type1.code) (.cons (lowest 2 p.opcode.code)
    (.cons (lowest 14 p.reg.code) (.cons 0 (.cons (lowest 11 p.nWords) .nil))))

/-- Type, opcode, word count. -/
def type2Layout : List Nat := [3, 2, 27]

def Type2Packet.fields (p : Type2Packet) : Fields type2Layout :=
  .cons (lowest 3 PacketType.type2.code) (.cons (lowest 2 p.opcode.code)
    (.cons (lowest 27 p.nWords) .nil))

/-- The header of a type 1 packet is its fields, side by side. -/
lemma Type1Packet.toBitVec_toU32 (p : Type1Packet) : p.toU32.toBitVec = overlay 32 p.fields := by
  have count : (p.nWords &&& type1NWordsMask).toBitVec = (lowest 11 p.nWords).setWidth 32 :=
    toBitVec_masked rfl
  rw [toU32, UInt32.toBitVec_or, count, fields]
  simp [overlay, width, setWidth_lowest PacketType.type1.code_lt, setWidth_lowest p.opcode.code_lt,
    setWidth_lowest p.reg.code_lt, BitVec.or_assoc]

/-- The header of a type 2 packet is its fields, side by side. -/
lemma Type2Packet.toBitVec_toU32 (p : Type2Packet) : p.toU32.toBitVec = overlay 32 p.fields := by
  have count : (p.nWords &&& type2NWordsMask).toBitVec = (lowest 27 p.nWords).setWidth 32 :=
    toBitVec_masked rfl
  rw [toU32, UInt32.toBitVec_or, count, fields]
  simp [overlay, width, setWidth_lowest PacketType.type2.code_lt, setWidth_lowest p.opcode.code_lt,
    BitVec.or_assoc]

/-! ## Reading the fields back -/

/-- The fields of a type 1 header. -/
lemma Type1Packet.bits_toU32 (p : Type1Packet) :
    bits 31 29 p.toU32 = PacketType.type1.code.toNat ∧ bits 28 27 p.toU32 = p.opcode.code.toNat ∧
      bits 26 13 p.toU32 = p.reg.code.toNat ∧ bits 10 0 p.toU32 = p.nWords.toNat % 2 ^ 11 := by
  have field := extract_overlay (Nat.le_refl 32) p.fields
  rw [← p.toBitVec_toU32] at field
  refine ⟨?_, ?_, ?_, ?_⟩
  · exact (congrArg BitVec.toNat (field ⟨0, by decide⟩)).trans
      (toNat_lowest_code PacketType.type1.code_lt)
  · exact (congrArg BitVec.toNat (field ⟨1, by decide⟩)).trans (toNat_lowest_code p.opcode.code_lt)
  · exact (congrArg BitVec.toNat (field ⟨2, by decide⟩)).trans (toNat_lowest_code p.reg.code_lt)
  · exact (congrArg BitVec.toNat (field ⟨4, by decide⟩)).trans toNat_lowest

/-- The fields of a type 2 header. -/
lemma Type2Packet.bits_toU32 (p : Type2Packet) :
    bits 31 29 p.toU32 = PacketType.type2.code.toNat ∧ bits 28 27 p.toU32 = p.opcode.code.toNat ∧
      bits 26 0 p.toU32 = p.nWords.toNat % 2 ^ 27 := by
  have field := extract_overlay (Nat.le_refl 32) p.fields
  rw [← p.toBitVec_toU32] at field
  refine ⟨?_, ?_, ?_⟩
  · exact (congrArg BitVec.toNat (field ⟨0, by decide⟩)).trans
      (toNat_lowest_code PacketType.type2.code_lt)
  · exact (congrArg BitVec.toNat (field ⟨1, by decide⟩)).trans (toNat_lowest_code p.opcode.code_lt)
  · exact (congrArg BitVec.toNat (field ⟨2, by decide⟩)).trans toNat_lowest

/-- The top three bits of a header are the packet type. -/
lemma Packet.bits_header (p : Packet) : bits 31 29 p.header = p.packetType.code.toNat := by
  cases p with
  | type1 p => exact p.bits_toU32.1
  | type2 p => exact p.bits_toU32.1

/-- The bits above a masked count do not depend on the count. -/
lemma shiftRight_masked {v n m mask k : UInt32} (above : mask >>> k = 0) :
    (v ||| (n &&& mask)) >>> k = (v ||| (m &&& mask)) >>> k := by
  rw [UInt32.shiftRight_or, UInt32.shiftRight_or, UInt32.shiftRight_and, UInt32.shiftRight_and, above,
    UInt32.and_zero, UInt32.and_zero]

/-! ## Equal headers -/

/-- Headers of type 1 packets agree exactly if all fields do, the count up to 11 bits. -/
lemma Type1Packet.toU32_inj {p q : Type1Packet} :
    p.toU32 = q.toU32 ↔
      p.opcode = q.opcode ∧ p.reg = q.reg ∧ p.nWords.toNat % 2 ^ 11 = q.nWords.toNat % 2 ^ 11 := by
  apply Iff.intro
  · intro eq
    obtain ⟨_, opcode, reg, count⟩ := p.bits_toU32
    obtain ⟨_, opcode', reg', count'⟩ := q.bits_toU32
    rw [eq] at opcode reg count
    exact ⟨Opcode.code_inj (opcode.symm.trans opcode'), ConfigLogicReg.code_inj (reg.symm.trans reg'),
      count.symm.trans count'⟩
  · intro ⟨opcode, reg, count⟩
    apply UInt32.toBitVec_inj.mp
    rw [toBitVec_toU32, toBitVec_toU32, fields, fields, opcode, reg, lowest_inj.mpr count]

/-- Headers of type 2 packets agree exactly if all fields do, the count up to 27 bits. -/
lemma Type2Packet.toU32_inj {p q : Type2Packet} :
    p.toU32 = q.toU32 ↔
      p.opcode = q.opcode ∧ p.nWords.toNat % 2 ^ 27 = q.nWords.toNat % 2 ^ 27 := by
  apply Iff.intro
  · intro eq
    obtain ⟨_, opcode, count⟩ := p.bits_toU32
    obtain ⟨_, opcode', count'⟩ := q.bits_toU32
    rw [eq] at opcode count
    exact ⟨Opcode.code_inj (opcode.symm.trans opcode'), count.symm.trans count'⟩
  · intro ⟨opcode, count⟩
    apply UInt32.toBitVec_inj.mp
    rw [toBitVec_toU32, toBitVec_toU32, fields, fields, opcode, lowest_inj.mpr count]

/-- Headers of different types differ in the type field. -/
lemma Packet.packetType_eq {p q : Packet} (eq : p.header = q.header) : p.packetType = q.packetType := by
  apply PacketType.code_inj
  rw [← p.bits_header, eq, q.bits_header]

/-- Headers agree exactly if the packets do, up to the width of the count. -/
lemma Packet.header_inj (p q : Packet) :
    p.header = q.header ↔
      p.packetType = q.packetType ∧ p.opcode = q.opcode ∧ p.reg = q.reg ∧ p.count = q.count := by
  cases p with
  | type1 p =>
    cases q with
    | type1 q =>
      apply Type1Packet.toU32_inj.trans
      simp [packetType, opcode, reg, count]
    | type2 q =>
      apply Iff.intro
      · intro eq
        cases packetType_eq eq
      · intro ⟨eq, _⟩
        cases eq
  | type2 p =>
    cases q with
    | type1 q =>
      apply Iff.intro
      · intro eq
        cases packetType_eq eq
      · intro ⟨eq, _⟩
        cases eq
    | type2 q =>
      apply Type2Packet.toU32_inj.trans
      simp [packetType, opcode, reg, count]

/-- A word with another type field than those of packets is no header. -/
lemma Packet.header_ne {v : UInt32} (other : ∀ t : PacketType, bits 31 29 v ≠ t.code.toNat)
    (p : Packet) : p.header ≠ v := by
  intro eq
  apply other p.packetType
  rw [← eq, p.bits_header]

/-- Header words are unambiguous. Type, opcode, register and word count are read back from their bits,
    the count modulo the width of its field; a count, however large, has no effect above its field;
    two packets of either type have equal headers exactly when they agree in what is read back; and no
    header is one of the command words. -/
theorem headers_unambiguous :
    (∀ p : Type1Packet,
      bits 31 29 p.toU32 = PacketType.type1.code.toNat ∧ bits 28 27 p.toU32 = p.opcode.code.toNat ∧
        bits 26 13 p.toU32 = p.reg.code.toNat ∧ bits 10 0 p.toU32 = p.nWords.toNat % 2 ^ 11) ∧
    (∀ p : Type2Packet,
      bits 31 29 p.toU32 = PacketType.type2.code.toNat ∧ bits 28 27 p.toU32 = p.opcode.code.toNat ∧
        bits 26 0 p.toU32 = p.nWords.toNat % 2 ^ 27) ∧
    (∀ opcode reg n m,
      Type1Packet.toU32 ⟨opcode, reg, n⟩ >>> 11 = Type1Packet.toU32 ⟨opcode, reg, m⟩ >>> 11) ∧
    (∀ opcode n m,
      Type2Packet.toU32 ⟨opcode, n⟩ >>> 27 = Type2Packet.toU32 ⟨opcode, m⟩ >>> 27) ∧
    (∀ p q : Packet, p.header = q.header ↔
      p.packetType = q.packetType ∧ p.opcode = q.opcode ∧ p.reg = q.reg ∧ p.count = q.count) ∧
    ∀ p : Packet, p.header ≠ dummyCmd ∧ p.header ≠ syncCmd ∧ p.header ≠ busWidthSyncCmd ∧
      p.header ≠ busWidthDetectCmd := by
  refine ⟨Type1Packet.bits_toU32, Type2Packet.bits_toU32, ?_, ?_, Packet.header_inj, ?_⟩
  · intro _ _ _ _
    exact shiftRight_masked (by decide)
  · intro _ _ _
    exact shiftRight_masked (by decide)
  · intro p
    -- The commands have 7, 5, 0 and 0 in the type field.
    refine ⟨p.header_ne ?_, p.header_ne ?_, p.header_ne ?_, p.header_ne ?_⟩
    all_goals
      intro t
      cases t <;> decide

end Warpshell.Hbicap
