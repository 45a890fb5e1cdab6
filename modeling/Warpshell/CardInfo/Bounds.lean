import Warpshell.CardInfo.Parse

/-!
# Bounds and coverage of the card info parser

The loop of `CardInfo::try_from` goes on while more than two bytes are left, lets an item end one
byte past the input, and slices up to the item's end. Two properties depend on how these three
bounds meet: that an item that overruns the input is reported rather than sliced
(`tryFrom_bounds`), and that an accepted input is frames from end to end (`tryFrom_covers`). Both
are given with the exact inputs on which they hold.
-/

namespace Warpshell.Cms.CardInfo
open Interaction Framing

/-- Behind accepted frames, an item declares a length that ends exactly one byte past the end. -/
def OverrunByOne (input : List UInt8) : Prop :=
  ∃ items rest len, Split Accepted input items rest ∧ 2 < rest.length ∧ rest[1]? = some len ∧
    len.toNat + 2 = rest.length + 1

/-- Behind accepted frames, the input ends with a key and a nonzero length. -/
def EndsInHeader (input : List UInt8) : Prop :=
  ∃ items rest len, Split Accepted input items rest ∧ rest.length = 2 ∧ rest[1]? = some len ∧
    0 < len.toNat

/-- Behind accepted frames, the input ends with one or two bytes. -/
def LeavesRemainder (input : List UInt8) : Prop :=
  ∃ items rest, Split Accepted input items rest ∧ (rest.length = 1 ∨ rest.length = 2)

/-- An item behind accepted frames that declares a length past the end is reported. -/
def ReportsOverruns (input : List UInt8) : Prop :=
  ∀ items rest len, Split Accepted input items rest → rest[1]? = some len →
    rest.length < len.toNat + 2 → tryFrom input = .err .itemLengthOutOfBounds

/-- The input is a sequence of accepted frames, one for each item, and nothing else. -/
def Covers (input : List UInt8) (items : List CardInfoItem) : Prop :=
  ∃ frames : List (List UInt8), input = frames.flatten ∧ List.Forall₂ Accepted frames items

/-- The parser panics exactly on an item that ends one byte past the input. -/
lemma tryFrom_panic_iff {input : List UInt8} : tryFrom input = .panic ↔ OverrunByOne input := by
  apply Iff.intro
  · intro panics
    obtain ⟨items, rest, o, sp, stop, eq⟩ := tryFrom_stop input
    rw [eq] at panics
    cases stop with
    | byOne more hlen one => exact ⟨items, rest, _, sp, more, hlen, one⟩
    | short _ => cases panics
    | far _ _ _ => cases panics
    | item _ _ _ _ => cases panics
  · intro ⟨items, rest, len, sp, more, hlen, one⟩
    have stop : Stop rest .panic := .byOne more hlen one
    rw [tryFrom_split sp, stop.tryFrom, prepend_panic]

/-- Overruns are reported exactly where they are of more than one byte and not of a mere header. -/
lemma reportsOverruns_iff {input : List UInt8} :
    ReportsOverruns input ↔ ¬ OverrunByOne input ∧ ¬ EndsInHeader input := by
  apply Iff.intro
  · intro reports
    refine ⟨fun past => ?_, fun ends => ?_⟩
    · have panics := tryFrom_panic_iff.mpr past
      obtain ⟨items, rest, len, sp, more, hlen, one⟩ := past
      have reported := reports items rest len sp hlen (by omega)
      rw [panics] at reported
      cases reported
    · obtain ⟨items, rest, len, sp, two, hlen, pos⟩ := ends
      have reported := reports items rest len sp hlen (by omega)
      rw [tryFrom_split sp, tryFrom_short (by omega)] at reported
      cases reported
  · intro ⟨noOver, noHeader⟩ items rest len sp hlen past
    obtain ⟨two, _⟩ := List.getElem?_eq_some_iff.mp hlen
    by_cases bare : rest.length = 2
    · exact absurd ⟨items, rest, len, sp, bare, hlen, by omega⟩ noHeader
    · by_cases one : len.toNat + 2 = rest.length + 1
      · exact absurd ⟨items, rest, len, sp, by omega, hlen, one⟩ noOver
      · have stop : Stop rest _ := .far (by omega) hlen (by omega)
        rw [tryFrom_split sp, stop.tryFrom, prepend_err]

/-- `CardInfo::try_from` returns `Ok` or `Err` exactly when no item ends one byte past the input; it
    also reports every declared length that overruns the input exactly when, moreover, the input
    does not end in a bare header. -/
theorem tryFrom_bounds (input : List UInt8) :
    (tryFrom input ≠ .panic ↔ ¬ OverrunByOne input) ∧
      (tryFrom input ≠ .panic ∧ ReportsOverruns input ↔
        ¬ OverrunByOne input ∧ ¬ EndsInHeader input) := by
  have panics : tryFrom input ≠ .panic ↔ ¬ OverrunByOne input := not_congr tryFrom_panic_iff
  refine ⟨panics, ?_⟩
  rw [reportsOverruns_iff]
  apply Iff.intro
  · intro ⟨_, clean⟩; exact clean
  · intro clean; exact ⟨panics.mpr clean.1, clean⟩

/-- A serial number of two bytes with only one of them there: the slice is out of range. -/
theorem tryFrom_panics : tryFrom [0x21, 0x02, 0x31] = .panic := by decide +kernel

/-- `CardInfo::try_from` accepts frames from end to end, and nothing else, exactly when no one or two
    bytes are left behind accepted frames. -/
theorem tryFrom_covers (input : List UInt8) :
    (∀ info, tryFrom input = .ok info → Covers input info.items) ↔ ¬ LeavesRemainder input := by
  apply Iff.intro
  · intro covers ⟨items, rest, sp, size⟩
    have parsed : tryFrom input = .ok ⟨items⟩ := by
      rw [tryFrom_split sp, tryFrom_short (by omega), prepend_ok, List.append_nil]
    obtain ⟨frames, eq, all⟩ := covers _ parsed
    have whole : Split Accepted input items [] := split_iff.mpr ⟨frames, by simp [eq], all⟩
    -- The remainder is shorter than any frame, so it cannot be one more sequence of frames.
    rcases Split.compare accepted_prefixFree sp whole with ⟨js, more⟩ | ⟨js, more⟩
    · cases more with
      | nil => simp at size
      | cons acc _ =>
        have three := acc.three_le
        rw [List.length_append] at size
        omega
    · generalize e : ([] : List UInt8) = r at more
      cases more with
      | nil => rw [← e] at size; simp at size
      | cons acc _ =>
        have three := acc.three_le
        have size := congrArg List.length e
        rw [List.length_append, List.length_nil] at size
        omega
  · intro clean info parsed
    obtain ⟨items, rest, o, sp, stop, eq⟩ := tryFrom_stop input
    rw [parsed] at eq
    cases stop with
    | short short =>
      have none : rest = [] := by
        by_contra some
        have pos := List.length_pos_iff.mpr some
        exact clean ⟨items, rest, sp, by omega⟩
      subst none
      rw [prepend_ok, List.append_nil] at eq
      cases eq
      obtain ⟨frames, eq, all⟩ := split_iff.mp sp
      exact ⟨frames, by rw [eq, List.append_nil], all⟩
    | far _ _ _ => cases eq
    | byOne _ _ _ => cases eq
    | item _ _ _ _ => cases eq

/-- A card revision, and then a serial number of which only the header is there: accepted, without
    the serial number. -/
theorem tryFrom_drops_tail :
    tryFrom [0x26, 0x02, 0x31, 0x00, 0x21, 0x05] = .ok ⟨[.cardRev ⟨[0x31]⟩]⟩ ∧
      ¬ Covers [0x26, 0x02, 0x31, 0x00, 0x21, 0x05] [.cardRev ⟨[0x31]⟩] := by
  refine ⟨by decide +kernel, ?_⟩
  intro ⟨frames, eq, all⟩
  cases all with
  | cons acc all =>
    cases all with
    | nil =>
      obtain ⟨len, hlen, size⟩ := acc.frame
      rw [List.flatten_singleton] at eq
      rw [← eq] at hlen size
      obtain rfl : (0x02 : UInt8) = len := by simpa using hlen
      exact absurd size (by decide)

end Warpshell.Cms.CardInfo
