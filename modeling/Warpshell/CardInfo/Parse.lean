import Warpshell.Cores.CardInfo
import Warpshell.Framing

/-!
# The card info parser, frame by frame

`CardInfo::try_from` walks an index through its input. Here the loop is brought into a form without
the index: `tryFromLoop_eq` says that parsing from a position is parsing the suffix there, and
`tryFrom_step` what one round does to a suffix. From these follow how parsing composes
(`tryFrom_split`) and where it can stop (`tryFrom_stop`).
-/

namespace Warpshell.Cms
open Interaction Framing

/-! ## Accepted frames -/

/-- As long as its length byte says: key, length byte, and that many bytes of payload. -/
def IsFrame (b : List UInt8) : Prop := ∃ len, b[1]? = some len ∧ b.length = 2 + len.toNat

/-- A frame that the item parser accepts. -/
structure Accepted (b : List UInt8) (item : CardInfoItem) : Prop where
  frame : IsFrame b
  parses : CardInfoItem.tryFrom b = .ok item

namespace CardInfoItem

/-- The item parser reads the key and the length, and then the payload of the key. -/
lemma tryFrom_cons (b len : UInt8) (iter : List UInt8) :
    tryFrom (b :: len :: iter) =
      match CardInfoKey.tryFromPrimitive b with
      | .ok key => payload key len.toNat iter
      | .error number => .error (.cardInfoKey number) := by
  show ((CardInfoKey.tryFromPrimitive b).mapError .cardInfoKey).bind
      (fun key => payload key len.toNat iter) = _
  cases CardInfoKey.tryFromPrimitive b <;> rfl

lemma payload_zero (key : CardInfoKey) (iter : List UInt8) :
    payload key 0 iter = .error .incorrectLength := by
  cases key <;> rfl

end CardInfoItem

/-- An accepted frame has a payload. -/
lemma Accepted.three_le {b item} (acc : Accepted b item) : 3 ≤ b.length := by
  obtain ⟨⟨len, hlen, size⟩, parses⟩ := acc
  by_contra short
  have zero : len.toNat = 0 := by omega
  match b, hlen with
  | [key, l], hlen =>
    obtain rfl : l = len := by simpa using hlen
    rw [CardInfoItem.tryFrom_cons, zero] at parses
    split at parses
    · rw [CardInfoItem.payload_zero] at parses; cases parses
    · cases parses
  | _ :: _ :: _ :: _, _ => simp at short

/-- No accepted frame is a prefix of another one. -/
lemma accepted_prefixFree : PrefixFree Accepted := by
  intro b b' s s' i i' acc acc' eq
  obtain ⟨len, hlen, size⟩ := acc.frame
  obtain ⟨len', hlen', size'⟩ := acc'.frame
  have h : (b ++ s)[1]? = some len := by
    rw [List.getElem?_append_left (by omega), hlen]
  have h' : (b ++ s)[1]? = some len' := by
    rw [eq, List.getElem?_append_left (by omega), hlen']
  have eqlen : len = len' := by rw [h] at h'; exact Option.some.inj h'
  subst eqlen
  exact List.append_inj_left eq (by omega)

namespace CardInfo

/-! ## The loop without its index -/

def prepend (items : List CardInfoItem) (o : Outcome CardInfoParseError CardInfo) :
    Outcome CardInfoParseError CardInfo :=
  o.bind fun info => .ok ⟨items ++ info.items⟩

@[simp] lemma prepend_ok {items : List CardInfoItem} {info : CardInfo} :
    prepend items (.ok info) = .ok ⟨items ++ info.items⟩ := rfl
@[simp] lemma prepend_err {items : List CardInfoItem} {e : CardInfoParseError} :
    prepend items (.err e) = .err e := rfl
@[simp] lemma prepend_panic {items : List CardInfoItem} : prepend items .panic = .panic := rfl

lemma prepend_prepend {is js : List CardInfoItem} {o : Outcome CardInfoParseError CardInfo} :
    prepend is (prepend js o) = prepend (is ++ js) o := by
  cases o <;> simp

/-- A round of the loop: the length is checked, the slice is taken and the item is parsed. -/
lemma tryFromLoop_step {input : List UInt8} {pos : Nat} {items : List CardInfoItem} {len : UInt8}
    (more : pos + 2 < input.length) (hlen : (input.drop pos)[1]? = some len) :
    tryFromLoop input pos items =
      if (input.drop pos).length + 1 < len.toNat + 2 then .err .itemLengthOutOfBounds
      else if (input.drop pos).length < len.toNat + 2 then .panic
      else match CardInfoItem.tryFrom ((input.drop pos).take (len.toNat + 2)) with
        | .ok item => tryFromLoop input (pos + (len.toNat + 2)) (items ++ [item])
        | .error e => .err (.cardInfoItem e) := by
  have hindex : index input (pos + 1) = .ok len := by
    have h : input[pos + 1]? = some len := by rw [← hlen, List.getElem?_drop]
    rw [index, h]
  have dropped : (input.drop pos).length = input.length - pos := List.length_drop
  rw [tryFromLoop, dif_pos more, hindex, Outcome.ok_bind]
  simp only [dropped]
  by_cases far : input.length - pos + 1 < len.toNat + 2
  · rw [if_pos far, if_pos (by omega)]
  · rw [if_neg far, if_neg (by omega)]
    by_cases fits : input.length - pos < len.toNat + 2
    · rw [if_pos fits, slice, if_neg (by omega), Outcome.panic_bind]
    · rw [if_neg fits, slice, if_pos (by omega), Outcome.ok_bind]
      rw [show (input.take (pos + (len.toNat + 2))).drop pos
            = (input.drop pos).take (len.toNat + 2) from by
              rw [List.drop_take]; congr 1; omega]
      cases CardInfoItem.tryFrom ((input.drop pos).take (len.toNat + 2)) <;> rfl

/-- The loop ends with two bytes left, or fewer. -/
lemma tryFromLoop_done {input : List UInt8} {pos : Nat} {items : List CardInfoItem}
    (done : input.length ≤ pos + 2) : tryFromLoop input pos items = .ok ⟨items⟩ := by
  rw [tryFromLoop, dif_neg (by omega)]

/-- Parsing from a position is parsing the suffix there. -/
lemma tryFromLoop_eq (input : List UInt8) (pos : Nat) (items : List CardInfoItem) :
    tryFromLoop input pos items = prepend items (tryFrom (input.drop pos)) := by
  induction h : input.length - pos using Nat.strongRecOn generalizing input pos items with
  | ind n ih =>
    subst h
    unfold tryFrom
    by_cases more : pos + 2 < input.length
    · have hsuffix : 0 + 2 < (input.drop pos).length := by rw [List.length_drop]; omega
      obtain ⟨len, hlen⟩ : ∃ len, (input.drop pos)[1]? = some len :=
        ⟨_, List.getElem?_eq_getElem (by omega)⟩
      rw [tryFromLoop_step more hlen, tryFromLoop_step hsuffix (by rw [List.drop_zero]; exact hlen)]
      rw [List.drop_zero]
      split
      · rfl
      split
      · rfl
      split
      · -- Both loops go on behind the frame; the induction hypothesis shifts them to its end.
        next item _ =>
        rw [ih _ (by omega) input _ _ rfl]
        rw [ih _ (by rw [List.length_drop]; omega) (input.drop pos) _ _ rfl, prepend_prepend]
        rw [List.drop_drop]
        simp
      · rfl
    · rw [tryFromLoop_done (by omega), tryFromLoop_done (by rw [List.length_drop]; omega)]
      simp

/-! ## Parsing a suffix -/

/-- At most two bytes are dropped without a word. -/
lemma tryFrom_short {s : List UInt8} (short : s.length ≤ 2) : tryFrom s = .ok ⟨[]⟩ :=
  tryFromLoop_done (by omega)

/-- The first item, and then the bytes behind it. -/
lemma tryFrom_step {s : List UInt8} {len : UInt8} (more : 2 < s.length) (hlen : s[1]? = some len) :
    tryFrom s =
      if s.length + 1 < len.toNat + 2 then .err .itemLengthOutOfBounds
      else if s.length < len.toNat + 2 then .panic
      else match CardInfoItem.tryFrom (s.take (len.toNat + 2)) with
        | .ok item => prepend [item] (tryFrom (s.drop (len.toNat + 2)))
        | .error e => .err (.cardInfoItem e) := by
  unfold tryFrom
  rw [tryFromLoop_step (by omega) (by rw [List.drop_zero]; exact hlen), List.drop_zero]
  simp only [tryFromLoop_eq s, Nat.zero_add, List.nil_append]
  rfl

/-- An accepted frame in front adds its item. -/
lemma tryFrom_frame {b s : List UInt8} {item : CardInfoItem} (acc : Accepted b item) :
    tryFrom (b ++ s) = prepend [item] (tryFrom s) := by
  have three := acc.three_le
  obtain ⟨⟨len, hlen, size⟩, parses⟩ := acc
  have more : 2 < (b ++ s).length := by rw [List.length_append]; omega
  have hlen' : (b ++ s)[1]? = some len := by
    rw [List.getElem?_append_left (by omega), hlen]
  have taken : (b ++ s).take (len.toNat + 2) = b := by
    rw [show len.toNat + 2 = b.length from by omega, List.take_left]
  have dropped : (b ++ s).drop (len.toNat + 2) = s := by
    rw [show len.toNat + 2 = b.length from by omega, List.drop_left]
  rw [tryFrom_step more hlen', taken, dropped, parses, List.length_append]
  rw [if_neg (by omega), if_neg (by omega)]

/-- Accepted frames in front add their items. -/
lemma tryFrom_split {input rest : List UInt8} {items : List CardInfoItem}
    (sp : Split Accepted input items rest) : tryFrom input = prepend items (tryFrom rest) := by
  induction sp with
  | nil => cases tryFrom _ <;> simp
  | cons acc _ ih => rw [tryFrom_frame acc, ih, prepend_prepend, List.singleton_append]

/-! ## Where parsing stops -/

/-- The ways in which parsing stops at a suffix. -/
inductive Stop : List UInt8 → Outcome CardInfoParseError CardInfo → Prop where
  /-- No more than two bytes are left. -/
  | short {s} : s.length ≤ 2 → Stop s (.ok ⟨[]⟩)
  /-- The item declares a length that ends two or more bytes past the end. -/
  | far {s len} : 2 < s.length → s[1]? = some len → s.length + 1 < len.toNat + 2 →
    Stop s (.err .itemLengthOutOfBounds)
  /-- The item declares a length that ends one byte past the end. -/
  | byOne {s len} : 2 < s.length → s[1]? = some len → len.toNat + 2 = s.length + 1 → Stop s .panic
  /-- The item is not accepted. -/
  | item {s len e} : 2 < s.length → s[1]? = some len → len.toNat + 2 ≤ s.length →
    CardInfoItem.tryFrom (s.take (len.toNat + 2)) = .error e → Stop s (.err (.cardInfoItem e))

/-- What the parser returns where it stops. -/
lemma Stop.tryFrom {s o} (stop : Stop s o) : tryFrom s = o := by
  cases stop with
  | short short => exact tryFrom_short short
  | far more hlen far => rw [tryFrom_step more hlen, if_pos far]
  | byOne more hlen eq => rw [tryFrom_step more hlen, if_neg (by omega), if_pos (by omega)]
  | item more hlen fits bad =>
    rw [tryFrom_step more hlen, if_neg (by omega), if_neg (by omega), bad]

/-- Every input is a sequence of accepted frames and a suffix at which parsing stops. -/
theorem tryFrom_stop (input : List UInt8) :
    ∃ items rest o, Split Accepted input items rest ∧ Stop rest o ∧
      tryFrom input = prepend items o := by
  induction h : input.length using Nat.strongRecOn generalizing input with
  | ind n ih =>
    subst h
    by_cases more : 2 < input.length
    · obtain ⟨len, hlen⟩ : ∃ len, input[1]? = some len := ⟨_, List.getElem?_eq_getElem (by omega)⟩
      by_cases fits : len.toNat + 2 ≤ input.length
      · cases parses : CardInfoItem.tryFrom (input.take (len.toNat + 2)) with
        | error e =>
          have stop : Stop input _ := .item more hlen fits parses
          exact ⟨[], input, _, .nil, stop, by rw [stop.tryFrom]; rfl⟩
        | ok item =>
          have frame : IsFrame (input.take (len.toNat + 2)) :=
            ⟨len, by rw [List.getElem?_take_of_lt (by omega), hlen], by rw [List.length_take]; omega⟩
          have acc : Accepted (input.take (len.toNat + 2)) item := ⟨frame, parses⟩
          obtain ⟨items, rest, o, sp, stop, eq⟩ :=
            ih _ (by rw [List.length_drop]; omega) (input.drop (len.toNat + 2)) rfl
          have whole : Split Accepted input (item :: items) rest := by
            have sp' := Split.cons acc sp
            rwa [List.take_append_drop] at sp'
          exact ⟨item :: items, rest, o, whole, stop, by rw [tryFrom_split whole, stop.tryFrom]⟩
      · by_cases one : len.toNat + 2 = input.length + 1
        · have stop : Stop input _ := .byOne more hlen one
          exact ⟨[], input, _, .nil, stop, by rw [stop.tryFrom]; rfl⟩
        · have stop : Stop input _ := .far more hlen (by omega)
          exact ⟨[], input, _, .nil, stop, by rw [stop.tryFrom]; rfl⟩
    · have stop : Stop input _ := .short (by omega)
      exact ⟨[], input, _, .nil, stop, by rw [stop.tryFrom]; rfl⟩

/-! ## Composition -/

/-- Parsing is compositional: behind accepted frames, an input has the outcome of what follows them,
    with the items of the frames in front; and the first frame that is not accepted determines the
    error, whatever comes after it. -/
theorem tryFrom_append {frames : List (List UInt8)} {items : List CardInfoItem}
    (all : List.Forall₂ Accepted frames items) (s : List UInt8) :
    (∀ info, tryFrom s = .ok info →
      tryFrom (frames.flatten ++ s) = .ok ⟨items ++ info.items⟩) ∧
    (∀ e, tryFrom s = .err e → tryFrom (frames.flatten ++ s) = .err e) ∧
    (tryFrom (frames.flatten ++ s) = .panic ↔ tryFrom s = .panic) ∧
    ∀ b rest e, s = b ++ rest → IsFrame b → CardInfoItem.tryFrom b = .error e → 2 < s.length →
      tryFrom (frames.flatten ++ s) = .err (.cardInfoItem e) := by
  have split : tryFrom (frames.flatten ++ s) = prepend items (tryFrom s) :=
    tryFrom_split (split_iff.mpr ⟨frames, rfl, all⟩)
  refine ⟨fun info ok => ?_, fun e err => ?_, ?_, fun b rest e eq frame bad more => ?_⟩
  · rw [split, ok, prepend_ok]
  · rw [split, err, prepend_err]
  · rw [split]
    cases tryFrom s with
    | ok info => exact ⟨nofun, nofun⟩
    | err e => exact ⟨nofun, nofun⟩
    | panic => exact Iff.rfl
  · obtain ⟨len, hlen, size⟩ := frame
    have wide : s.length = b.length + rest.length := by rw [eq, List.length_append]
    have declared : s[1]? = some len := by rw [eq, List.getElem?_append_left (by omega), hlen]
    have stop : Stop s (.err (.cardInfoItem e)) := by
      apply Stop.item more declared (by omega)
      rw [eq, show len.toNat + 2 = b.length from by omega, List.take_left, bad]
    rw [split, stop.tryFrom, prepend_err]

/-- A card revision in front of an item that overruns the input; and a card revision and a serial number
    in front of a fan presence that is parsed. -/
theorem tryFrom_append_rev :
    tryFrom ([0x26, 0x02, 0x31, 0x00] ++ [0x21, 0x09, 0x31]) = .err .itemLengthOutOfBounds ∧
    tryFrom ([0x26, 0x02, 0x31, 0x00] ++ [0x21, 0x03, 0x41, 0x42, 0x00] ++ [0x2a, 0x01, 0x50]) =
      .ok ⟨[.cardRev ⟨[0x31]⟩, .serialNumber ⟨[0x41, 0x42]⟩, .fanPresence 'P']⟩ := by
  have rev : Accepted [0x26, 0x02, 0x31, 0x00] (.cardRev ⟨[0x31]⟩) := ⟨⟨2, rfl, rfl⟩, rfl⟩
  have serial : Accepted [0x21, 0x03, 0x41, 0x42, 0x00] (.serialNumber ⟨[0x41, 0x42]⟩) :=
    ⟨⟨3, rfl, rfl⟩, rfl⟩
  have fan : tryFrom [0x2a, 0x01, 0x50] = .ok ⟨[.fanPresence 'P']⟩ := by decide +kernel
  apply And.intro
  · exact (tryFrom_append (.cons rev .nil) [0x21, 0x09, 0x31]).2.1 _ (by decide +kernel)
  · exact (tryFrom_append (.cons rev (.cons serial .nil)) [0x2a, 0x01, 0x50]).1 _ fan

end CardInfo

end Warpshell.Cms
