import Warpshell.Base

/-!
# Byte-addressed memory

The control channel of `xdma/mod.rs` in front of a memory of bytes: `ctrl_read` fills a buffer from
the bytes at an offset, and a register is four of them, lowest byte first. The two conversions between
a word and its bytes are inverse to each other (`toLeBytes_fromLeBytes`, `fromLeBytes_toLeBytes`), so
a region reads the same word by word and byte by byte.
-/

namespace Warpshell

/-- The bytes behind a channel. -/
abbrev Memory : Type := Nat → UInt8

namespace Memory

def bytes (mem : Memory) (addr : Nat) : Nat → List UInt8
  | 0 => []
  | n + 1 => mem addr :: mem.bytes (addr + 1) n

lemma length_bytes {mem : Memory} {addr n : Nat} : (mem.bytes addr n).length = n := by
  induction n generalizing addr with
  | zero => rfl
  | succ n ih => exact congrArg (· + 1) ih

/-- The bytes of a range, in two parts. -/
lemma bytes_add {mem : Memory} {addr m n : Nat} :
    mem.bytes addr (m + n) = mem.bytes addr m ++ mem.bytes (addr + m) n := by
  induction m generalizing addr with
  | zero => simp [bytes]
  | succ m ih => simp [bytes, ih, Nat.add_right_comm m 1 n, Nat.add_assoc, Nat.add_comm 1 m]

/-- The first bytes of a range are those of a shorter one. -/
lemma take_bytes {mem : Memory} {addr n k : Nat} :
    (mem.bytes addr n).take k = mem.bytes addr (min n k) := by
  induction n generalizing addr k with
  | zero => simp [bytes]
  | succ n ih =>
    cases k with
    | zero => rfl
    | succ k => simp [bytes, ih, Nat.succ_min_succ]

/-- Reads from `offset` to fill a buffer of `len` bytes completely. -/
def ctrlRead (mem : Memory) (len offset : Nat) : Bytes len :=
  ⟨mem.bytes offset len, length_bytes⟩

def basedCtrlRead (mem : Memory) (core : BaseParam) (len offset : Nat) : Bytes len :=
  mem.ctrlRead len (core.baseAddr + offset)

/-- The register at an absolute address. -/
def word (mem : Memory) (addr : Nat) : UInt32 := fromLeBytes (mem.ctrlRead 4 addr)

end Memory

/-! ## Words and bytes -/

/-- Four bytes survive the way through a word. -/
lemma toLeBytes_fromLeBytes (b : Bytes 4) : toLeBytes (fromLeBytes b) = b.1 := by
  obtain ⟨bytes, len⟩ := b
  match bytes, len with
  | [b₀, b₁, b₂, b₃], _ =>
    simp only [fromLeBytes, toLeBytes, List.cons.injEq, and_true]
    refine ⟨?_, ?_, ?_, ?_⟩
    all_goals
      apply UInt8.toBitVec_inj.mp
      ext i hi
      simp
      try grind

/-- A word survives the way through its bytes. -/
lemma fromLeBytes_toLeBytes (w : UInt32) : fromLeBytes ⟨toLeBytes w, rfl⟩ = w := by
  apply UInt32.toBitVec_inj.mp
  ext i hi
  simp only [fromLeBytes, toLeBytes, UInt32.toBitVec_or, UInt32.toBitVec_shiftLeft,
    UInt8.toBitVec_toUInt32, UInt32.toBitVec_toUInt8, UInt32.toBitVec_shiftRight]
  simp [-BitVec.setWidth_setWidth]
  grind

lemma Memory.toLeBytes_word {mem : Memory} {addr : Nat} :
    toLeBytes (mem.word addr) = mem.bytes addr 4 := toLeBytes_fromLeBytes _

/-! ## Stores -/

namespace Memory
variable {mem : Memory} {addr a n : Nat} {bs cs : List UInt8}

/-- The bytes from an address on replaced by others. -/
def store (mem : Memory) (addr : Nat) (bs : List UInt8) : Memory := fun a =>
  if addr ≤ a then bs.getD (a - addr) (mem a) else mem a

lemma store_nil : mem.store addr [] = mem := by
  funext a
  simp [store]

lemma store_append : mem.store addr (bs ++ cs) = (mem.store addr bs).store (addr + bs.length) cs := by
  funext a
  by_cases below : addr ≤ a
  · by_cases first : a - addr < bs.length
    · have apart : ¬ addr + bs.length ≤ a := by omega
      simp [store, below, apart, List.getElem?_append_left first]
    · have past : addr + bs.length ≤ a := by omega
      have rest : a - addr - bs.length = a - (addr + bs.length) := by omega
      simp [store, below, past, List.getElem?_append_right (Nat.le_of_not_lt first), rest,
        List.getElem?_eq_none (Nat.le_of_not_lt first)]
  · have apart : ¬ addr + bs.length ≤ a := by omega
    simp [store, below, apart]

end Memory

end Warpshell
