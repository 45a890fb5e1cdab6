import Mathlib.Tactic.Common

/-!
# Bit fields

A word made of fields of fixed widths, highest field first. `overlay` builds it the way code does, by
or-ing the shifted fields; `pack` is the concatenation of the fields. The two agree
(`overlay_eq_pack`), so no field reaches into another one, and in a word that is wide enough every field
is read back at its offset (`extract_overlay`).
-/

namespace Warpshell.BitFields

/-- The number of bits of a layout, given by the widths of its fields. -/
def width : List Nat → Nat
  | [] => 0
  | w :: ws => w + width ws

/-- One value for each field of a layout. -/
inductive Fields : List Nat → Type where
  | nil : Fields []
  | cons {w ws} : BitVec w → Fields ws → Fields (w :: ws)

def Fields.get {ws : List Nat} : Fields ws → (i : Fin ws.length) → BitVec (ws.get i)
  | .cons x _, ⟨0, _⟩ => x
  | .cons _ xs, ⟨i + 1, h⟩ => xs.get ⟨i, Nat.lt_of_succ_lt_succ h⟩

/-- The number of bits below a field. -/
def offset : (ws : List Nat) → Fin ws.length → Nat
  | _ :: ws, ⟨0, _⟩ => width ws
  | _ :: ws, ⟨i + 1, h⟩ => offset ws ⟨i, Nat.lt_of_succ_lt_succ h⟩

/-- The fields one after the other. -/
def pack {ws : List Nat} : Fields ws → BitVec (width ws)
  | .nil => 0#0
  | .cons x xs => x ++ pack xs

/-- The fields in a word of `n` bits, each shifted to its place. -/
def overlay (n : Nat) {ws : List Nat} : Fields ws → BitVec n
  | .nil => 0#n
  | @Fields.cons _ ws x xs => x.setWidth n <<< width ws ||| overlay n xs

section
variable {n w : Nat} {ws : List Nat}

/-- An overlay keeps the low `n` bits of the packed fields. -/
lemma overlay_eq_pack (xs : Fields ws) : overlay n xs = (pack xs).setWidth n := by
  induction xs with
  | nil => exact (BitVec.setWidth_zero n 0).symm
  | cons x xs ih =>
    rw [overlay, ih]
    exact BitVec.setWidth_append_eq_shiftLeft_setWidth_or.symm

/-- A field ends within the width of all of them. -/
lemma offset_add_le (i : Fin ws.length) : offset ws i + ws.get i ≤ width ws := by
  induction ws with
  | nil => exact i.elim0
  | cons w ws ih =>
    match i with
    | ⟨0, _⟩ => exact Nat.le_of_eq (Nat.add_comm _ _)
    | ⟨i + 1, h⟩ => exact Nat.le_trans (ih ⟨i, _⟩) (Nat.le_add_left _ _)

/-- A field of a packed word is read back at its offset. -/
lemma extract_pack (xs : Fields ws) (i : Fin ws.length) :
    (pack xs).extractLsb' (offset ws i) (ws.get i) = xs.get i := by
  induction xs with
  | nil => exact i.elim0
  | cons x xs ih =>
    match i with
    | ⟨0, _⟩ => exact BitVec.extractLsb'_append_eq_left
    | ⟨i + 1, h⟩ =>
      -- The field lies below the highest one.
      exact (BitVec.extractLsb'_append_eq_of_add_le (offset_add_le _)).trans (ih ⟨i, _⟩)

/-- Each field is read back from an overlay that is wide enough. -/
lemma extract_overlay (fits : width ws ≤ n) (xs : Fields ws) (i : Fin ws.length) :
    (overlay n xs).extractLsb' (offset ws i) (ws.get i) = xs.get i := by
  have inside : offset ws i + ws.get i ≤ n := Nat.le_trans (offset_add_le i) fits
  rw [overlay_eq_pack, BitVec.extractLsb'_setWidth_of_le inside, extract_pack]

/-- Masking with the lowest `w` bits set is truncation to a field of `w` bits. -/
lemma and_lowMask (x : BitVec n) : x &&& (BitVec.allOnes w).setWidth n = (x.setWidth w).setWidth n := by
  ext i lt
  simp [BitVec.getLsbD_eq_getElem lt, Bool.and_comm]

end

end Warpshell.BitFields
