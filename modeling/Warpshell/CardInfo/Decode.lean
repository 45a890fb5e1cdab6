import Warpshell.CardInfo.Frames

/-!
# The item decoder

`CardInfoItem::try_from` reads the payload that the length byte announces and nothing else, whatever
the key is (`decodes_payload`), and reads it as the item whose frame it is (`carries_of_payload`). So a frame
determines its item and, up to one reserved byte, the item its frame (`tryFrom_exact`).
-/

namespace Warpshell.Cms
open Interaction Parsing

namespace CardInfoItem

/-! ## What a payload reads -/

/-- A parser of an item that never runs out of input where the announced bytes are there. -/
abbrev ReadsBytes {α : Type} (n : Nat) (p : Parse α) : Prop := Reads .incompleteInput n p

/-- Taking a byte reads one byte. -/
lemma reads_next : ReadsBytes 1 next := by
  refine ⟨fun {input b rest} read => ?_, fun {input e} long read => ?_⟩
  · cases input with
    | nil => cases read
    | cons b' iter =>
      cases read
      exact ⟨[b], rfl, rfl, fun s => rfl⟩
  · cases input with
    | nil => exact absurd long (by decide)
    | cons b iter => cases read

/-- Taking `n` bytes reads `n` bytes. -/
lemma reads_nextN {n : Nat} : ReadsBytes n (nextN n) := by
  induction n with
  | zero => exact .done
  | succ n ih =>
    have step : ReadsBytes (1 + (n + 0)) (nextN (n + 1)) :=
      reads_next.bind fun b => ih.bind fun v => .done
    rwa [Nat.add_zero, Nat.add_comm] at step

/-- A text and its terminator take the declared length. -/
lemma reads_nulTerminated {len : Nat} (pos : 0 < len) : ReadsBytes len (nulTerminated len) := by
  have last : ∀ (v : List UInt8) (b : UInt8), ReadsBytes 0 fun iter : List UInt8 =>
      if b != 0 then .error .nonNullTerminator else .ok (v, iter) := by
    intro v b
    split
    · exact .fail nofun
    · exact .done
  have all : ReadsBytes (len - 1 + (1 + 0)) (nulTerminated len) :=
    reads_nextN.bind fun v => reads_next.bind fun b => last v b
  rwa [Nat.add_zero, Nat.sub_add_cancel pos] at all

/-- A string takes the declared length. -/
lemma reads_stringPayload {len : Nat} : ReadsBytes len (stringPayload len) := by
  unfold stringPayload
  split
  · exact .fail nofun
  next pos => exact (reads_nulTerminated (by omega)).bind fun v => .done

/-- A wrong number of bytes is not an end of the input. -/
lemma tryIntoArray_complete {n : Nat} {v : List UInt8} :
    tryIntoArray n v ≠ .error .incompleteInput := by
  unfold tryIntoArray
  split
  · nofun
  · nofun

/-- The bytes of an array, and what is made of it. -/
lemma reads_array {α : Type} {m n : Nat} {p : Parse (List UInt8)} (reads : ReadsBytes m p)
    (f : Bytes n → α) : ReadsBytes m fun iter =>
      p iter >>= fun x => tryIntoArray n x.1 >>= fun array => .ok (f array, x.2) := by
  have convert : ∀ v : List UInt8, ReadsBytes 0 fun iter =>
      tryIntoArray n v >>= fun array => .ok (f array, iter) :=
    fun v => .convert f tryIntoArray_complete
  exact reads.bind convert

/-- An old MAC address takes the declared length, if it is read at all. -/
lemma reads_oldMacPayload {len : Nat} : ReadsBytes len (oldMacPayload len) := by
  unfold oldMacPayload
  split
  · exact .fail nofun
  next size =>
    have pos : 0 < len := by omega
    exact reads_array (reads_nulTerminated pos) OldMacAddress.mk

/-- A payload of one byte takes the declared length, if it is read at all. -/
lemma reads_bytePayload {α : Type} {conv : UInt8 → Except CardInfoItemParseError α} {len : Nat}
    (other : ∀ b, conv b ≠ .error .incompleteInput) : ReadsBytes len (bytePayload conv len) := by
  unfold bytePayload
  split
  · exact .fail nofun
  next size =>
    obtain rfl : len = 1 := not_not.mp size
    exact reads_next.bind fun b => .convert id (other b)

/-- A new MAC scheme takes the declared length, if it is read at all. -/
lemma reads_newMacPayload {len : Nat} : ReadsBytes len (newMacPayload len) := by
  unfold newMacPayload
  split
  · exact .fail nofun
  next size =>
    obtain rfl : len = 8 := not_not.mp size
    have octets : ReadsBytes 6 (nextN 6) := reads_nextN
    have address (count : UInt8) :=
      reads_array octets fun mac : Bytes 6 => (count, MacAddress.mk mac)
    have reserved (count : UInt8) := reads_next.bind fun _ => address count
    exact reads_next.bind reserved

/-- Renaming the errors does not make an end of the input. -/
lemma mapError_complete {ε α : Type} {x : Except ε α} {f : ε → CardInfoItemParseError}
    (other : ∀ e, f e ≠ .incompleteInput) : x.mapError f ≠ .error .incompleteInput := by
  cases x with
  | ok a => nofun
  | error e => exact fun eq => other e (Except.error.inj eq)

/-- An enumeration takes the declared length, if it is read at all. -/
lemma reads_enum {ε α : Type} (len : Nat) (conv : UInt8 → Except ε α)
    (f : ε → CardInfoItemParseError) (other : ∀ e, f e ≠ .incompleteInput) :
    ReadsBytes len (bytePayload (fun b => (conv b).mapError f) len) :=
  reads_bytePayload fun _ => mapError_complete other

/-- Whatever the key, the payload is read from the announced bytes. -/
lemma decodes_payload (key : CardInfoKey) (len : Nat) :
    Decodes .incompleteInput len (payload key len) := by
  have cage : ReadsBytes len (bytePayload cageType len) :=
    reads_enum len CageType.tryFromPrimitive .cageType nofun
  cases key with
  | serialNumber => exact reads_stringPayload.decodes CardInfoItem.serialNumber
  | cardRev => exact reads_stringPayload.decodes CardInfoItem.cardRev
  | cardName => exact reads_stringPayload.decodes CardInfoItem.cardName
  | satelliteVersion => exact reads_stringPayload.decodes CardInfoItem.satelliteVersion
  | macAddress0 => exact reads_oldMacPayload.decodes CardInfoItem.macAddress0
  | macAddress1 => exact reads_oldMacPayload.decodes CardInfoItem.macAddress1
  | macAddress2 => exact reads_oldMacPayload.decodes CardInfoItem.macAddress2
  | macAddress3 => exact reads_oldMacPayload.decodes CardInfoItem.macAddress3
  | totalPowerAvail =>
    have power := reads_enum len TotalPowerAvail.tryFromPrimitive .totalPowerAvail nofun
    exact power.decodes CardInfoItem.totalPowerAvail
  | fanPresence =>
    have char : ReadsBytes len (bytePayload (fun b => .ok (Char.ofNat b.toNat)) len) :=
      reads_bytePayload fun _ eq => by cases eq
    exact char.decodes CardInfoItem.fanPresence
  | configMode =>
    have mode := reads_enum len ConfigMode.tryFromPrimitive .configMode nofun
    exact mode.decodes CardInfoItem.configMode
  | newMacScheme => exact reads_newMacPayload.decodes fun x => CardInfoItem.newMacScheme x.1 x.2
  | cageType0 => exact cage.decodes CardInfoItem.cageType0
  | cageType1 => exact cage.decodes CardInfoItem.cageType1
  | cageType2 => exact cage.decodes CardInfoItem.cageType2
  | cageType3 => exact cage.decodes CardInfoItem.cageType3

/-! ## What a payload is read as -/

/-- The bytes taken are the first ones. -/
lemma nextN_eq {n : Nat} {iter v rest : List UInt8} (read : nextN n iter = .ok (v, rest)) :
    iter = v ++ rest := by
  induction n generalizing iter v rest with
  | zero =>
    cases read
    rfl
  | succ n ih =>
    cases iter with
    | nil => cases read
    | cons b iter =>
      obtain ⟨x, h, made⟩ := ok_of_bind (x := nextN n iter) read
      cases made
      exact congrArg (b :: ·) (ih h)

/-- The text is in front of its terminator. -/
lemma nulTerminated_eq {len : Nat} {iter v rest : List UInt8}
    (read : nulTerminated len iter = .ok (v, rest)) : iter = v ++ 0 :: rest := by
  obtain ⟨⟨v', mid⟩, h, made⟩ := ok_of_bind (x := nextN (len - 1) iter) read
  cases mid with
  | nil => cases made
  | cons b mid =>
    change (if b != 0 then Except.error _ else Except.ok (v', mid)) = _ at made
    split at made
    · cases made
    next nul =>
      cases made
      rw [nextN_eq h, show b = 0 by simpa using nul]

/-- The string is in front of its terminator. -/
lemma stringPayload_eq {len : Nat} {iter rest : List UInt8} {s : ByteString}
    (read : stringPayload len iter = .ok (s, rest)) : iter = s.bytes ++ 0 :: rest := by
  unfold stringPayload at read
  split at read
  · cases read
  · obtain ⟨⟨v, rest'⟩, h, made⟩ := ok_of_bind (x := nulTerminated len iter) read
    cases made
    exact nulTerminated_eq h

/-- The byte read is the first one. -/
lemma bytePayload_eq {α : Type} {conv : UInt8 → Except CardInfoItemParseError α} {len : Nat}
    {iter rest : List UInt8} {a : α} (read : bytePayload conv len iter = .ok (a, rest)) :
    ∃ b, iter = b :: rest ∧ conv b = .ok a := by
  unfold bytePayload at read
  split at read
  · cases read
  · cases iter with
    | nil => cases read
    | cons b iter =>
      obtain ⟨a', h, made⟩ := ok_of_bind (x := conv b) read
      cases made
      exact ⟨b, rfl, h⟩

/-- The count, a reserved byte and the address are the first eight bytes. -/
lemma newMacPayload_eq {len : Nat} {iter rest : List UInt8} {count : UInt8} {mac : MacAddress}
    (read : newMacPayload len iter = .ok ((count, mac), rest)) :
    ∃ reserved, iter = count :: reserved :: mac.octets.1 ++ rest := by
  unfold newMacPayload at read
  split at read
  · cases read
  · match iter, read with
    | [], read => cases read
    | [b], read => cases read
    | b :: reserved :: iter, read =>
      obtain ⟨⟨v, rest'⟩, h, made⟩ := ok_of_bind (x := nextN 6 iter) read
      obtain ⟨octets, h', made⟩ := ok_of_bind (x := tryIntoArray 6 v) made
      cases made
      unfold tryIntoArray at h'
      split at h'
      · cases h'
        exact ⟨reserved, congrArg (_ :: reserved :: ·) (nextN_eq h)⟩
      · cases h'

/-- Renaming the errors does not change a success. -/
lemma mapError_ok {ε ε' α : Type} {x : Except ε α} {f : ε → ε'} {a : α}
    (h : x.mapError f = .ok a) : x = .ok a := by
  cases x with
  | error e => cases h
  | ok a' =>
    cases h
    rfl

/-- A cage type is read from its own byte. -/
lemma cageType_eq {b : UInt8} {cage : CageType} (h : cageType b = .ok cage) : b = cage.toByte := by
  have h := mapError_ok h
  unfold CageType.tryFromPrimitive at h
  split at h
  all_goals cases h <;> rfl

/-- A string that takes all bytes is all of them but the terminator. -/
lemma stringPayload_exact {bytes rest : List UInt8} {s : ByteString}
    (read : stringPayload bytes.length bytes = .ok (s, rest)) : bytes = s.bytes ++ [0] := by
  have none := reads_stringPayload.rest_nil read rfl
  rw [stringPayload_eq read, none]

/-- A payload that takes all bytes is the single one. -/
lemma bytePayload_exact {α : Type} {conv : UInt8 → Except CardInfoItemParseError α}
    {bytes rest : List UInt8} {a : α} (read : bytePayload conv bytes.length bytes = .ok (a, rest)) :
    ∃ b, bytes = [b] ∧ conv b = .ok a := by
  obtain ⟨b, rfl, h⟩ := bytePayload_eq read
  unfold bytePayload at read
  split at read
  · cases read
  next size =>
    rw [List.length_cons] at size
    exact ⟨b, congrArg (b :: ·) (List.length_eq_zero_iff.mp (by omega)), h⟩

/-- What is read from the payload of a frame is an item that the frame carries. -/
lemma carries_of_payload {f : Frame} {item : CardInfoItem}
    (read : payload f.key f.payload.length f.payload = .ok item) : f.Carries item := by
  obtain ⟨key, bytes, fits⟩ := f
  have oldMac : ¬ key.IsOldMac := fun old => payload_oldMac old _ _ _ read
  refine ⟨(payload_key read).symm, ?_⟩
  cases key with
  | serialNumber | cardRev | cardName | satelliteVersion =>
    obtain ⟨x, h, made⟩ := ok_of_bind (x := stringPayload _ bytes) read
    cases made
    exact stringPayload_exact h
  | macAddress0 => exact absurd (.inl rfl) oldMac
  | macAddress1 => exact absurd (.inr (.inl rfl)) oldMac
  | macAddress2 => exact absurd (.inr (.inr (.inl rfl))) oldMac
  | macAddress3 => exact absurd (.inr (.inr (.inr rfl))) oldMac
  | totalPowerAvail =>
    obtain ⟨⟨power, rest⟩, h, made⟩ := ok_of_bind (x := bytePayload _ _ bytes) read
    cases made
    obtain ⟨b, rfl, conv⟩ := bytePayload_exact h
    have conv := mapError_ok conv
    unfold TotalPowerAvail.tryFromPrimitive at conv
    split at conv
    all_goals cases conv <;> rfl
  | fanPresence =>
    obtain ⟨⟨c, rest⟩, h, made⟩ := ok_of_bind (x := bytePayload _ _ bytes) read
    cases made
    obtain ⟨b, rfl, conv⟩ := bytePayload_exact h
    cases conv
    exact ⟨b, rfl, rfl⟩
  | configMode =>
    obtain ⟨⟨mode, rest⟩, h, made⟩ := ok_of_bind (x := bytePayload _ _ bytes) read
    cases made
    obtain ⟨b, rfl, conv⟩ := bytePayload_exact h
    have conv := mapError_ok conv
    unfold ConfigMode.tryFromPrimitive at conv
    split at conv
    all_goals cases conv <;> rfl
  | newMacScheme =>
    obtain ⟨⟨⟨count, mac⟩, rest⟩, h, made⟩ := ok_of_bind (x := newMacPayload _ bytes) read
    cases made
    obtain ⟨reserved, eq⟩ := newMacPayload_eq h
    -- The payload of a frame is just what is read of it.
    have none := reads_newMacPayload.rest_nil h rfl
    rw [none, List.append_nil] at eq
    exact ⟨reserved, eq⟩
  | cageType0 | cageType1 | cageType2 | cageType3 =>
    obtain ⟨⟨cage, rest⟩, h, made⟩ := ok_of_bind (x := bytePayload _ _ bytes) read
    cases made
    obtain ⟨b, rfl, conv⟩ := bytePayload_exact h
    exact congrArg ([·]) (cageType_eq conv)

end CardInfoItem

/-! ## Frames -/

/-- A key is read from its own byte. -/
lemma CardInfoKey.toByte_of_tryFrom {b : UInt8} {key : CardInfoKey}
    (h : CardInfoKey.tryFromPrimitive b = .ok key) : key.toByte = b := by
  unfold CardInfoKey.tryFromPrimitive at h
  split at h
  all_goals cases h <;> rfl

/-- What an accepted frame is the frame of. -/
lemma Accepted.carries {b item} (acc : Accepted b item) :
    ∃ f : Frame, f.bytes = b ∧ f.Carries item := by
  obtain ⟨⟨len, hlen, size⟩, parses⟩ := acc
  match b, hlen with
  | k :: l :: iter, hlen =>
    obtain rfl : l = len := by simpa using hlen
    have long : iter.length = l.toNat := by
      rw [List.length_cons, List.length_cons] at size
      omega
    rw [CardInfoItem.tryFrom_cons] at parses
    split at parses
    next key known =>
      have byte := CardInfoKey.toByte_of_tryFrom known
      let f : Frame := ⟨key, iter, by rw [long]; exact l.toNat_lt⟩
      refine ⟨f, ?_, ?_⟩
      · show key.toByte :: UInt8.ofNat iter.length :: iter = _
        rw [byte, long, UInt8.ofNat_toNat]
      · apply CardInfoItem.carries_of_payload
        show CardInfoItem.payload key iter.length iter = _
        rw [long, parses]
    · cases parses

lemma char_injective {b b' : UInt8} (eq : Char.ofNat b.toNat = Char.ofNat b'.toNat) : b = b' := by
  have value : ∀ b : UInt8, (Char.ofNat b.toNat).toNat = b.toNat := by
    intro b
    have small := b.toNat_lt
    have valid : b.toNat.isValidChar := .inl (by omega)
    rw [Char.ofNat, dif_pos valid]
    rfl
  apply UInt8.toNat_inj.mp
  rw [← value b, ← value b', eq]

/-- Frames that carry the same item are the same, up to the reserved byte of a new MAC scheme. -/
lemma Frame.Carries.agree {f f' : Frame} {item : CardInfoItem} (carries : f.Carries item)
    (carries' : f'.Carries item) : f.bytes.length = f'.bytes.length ∧
      ∀ i, (i = 3 → item.key ≠ .newMacScheme) → f.bytes[i]? = f'.bytes[i]? := by
  obtain ⟨key, bytes, fits⟩ := f
  obtain ⟨key', bytes', fits'⟩ := f'
  obtain ⟨rfl, same⟩ := carries
  obtain ⟨rfl, same'⟩ := carries'
  cases item with
  | fanPresence c =>
    obtain ⟨b, rfl, eq⟩ := same
    obtain ⟨b', rfl, eq'⟩ := same'
    obtain rfl := char_injective (eq.symm.trans eq')
    exact ⟨rfl, fun _ _ => rfl⟩
  | newMacScheme count mac =>
    obtain ⟨reserved, rfl⟩ := same
    obtain ⟨reserved', rfl⟩ := same'
    refine ⟨rfl, fun i other => ?_⟩
    -- Key, length and count agree, and the address does; the byte between them is reserved.
    match i with
    | 0 | 1 | 2 => rfl
    | 3 => exact absurd rfl (other rfl)
    | i + 4 => rfl
  | _ =>
    obtain rfl : bytes = bytes' := Eq.trans same (Eq.symm same')
    exact ⟨rfl, fun _ _ => rfl⟩

namespace CardInfoItem

/-- What follows the announced bytes does not matter, and where they are there, the input is not too
    short. -/
lemma tryFrom_local {k l : UInt8} {rest : List UInt8} (long : l.toNat ≤ rest.length) :
    tryFrom (k :: l :: rest) = tryFrom (k :: l :: rest.take l.toNat) ∧
      tryFrom (k :: l :: rest) ≠ .error .incompleteInput := by
  rw [tryFrom_cons, tryFrom_cons]
  cases CardInfoKey.tryFromPrimitive k with
  | error number => exact ⟨rfl, nofun⟩
  | ok key =>
    have decodes := decodes_payload key l.toNat
    exact ⟨(decodes.take long).symm, fun read => (decodes.error long read).1 rfl⟩

/-- What is accepted has the announced bytes. -/
lemma tryFrom_long {k l : UInt8} {rest : List UInt8} {item : CardInfoItem}
    (read : tryFrom (k :: l :: rest) = .ok item) : l.toNat ≤ rest.length := by
  rw [tryFrom_cons] at read
  split at read
  next key _ => exact ((decodes_payload key l.toNat).ok read).1
  · cases read

/-- A key alone is no item. -/
lemma tryFrom_key {k : UInt8} {item : CardInfoItem} : tryFrom [k] ≠ .ok item := by
  intro read
  obtain ⟨key, _, read⟩ :=
    ok_of_bind (x := (CardInfoKey.tryFromPrimitive k).mapError _) read
  cases read

/-- The item parser is an exact and local decoder: for all keys but those of the old MAC addresses it
    accepts an input as an item exactly when the announced bytes are there and make up a frame of that
    item; for every key it looks at the announced bytes only, and does not miss any when they are
    there; it accepts no strict prefix of a frame; and two frames accepted as the same item are the
    same, except for the reserved byte of a new MAC scheme. -/
theorem tryFrom_exact :
    (∀ k l rest item, (∀ key, CardInfoKey.tryFromPrimitive k = .ok key → ¬ key.IsOldMac) →
      (tryFrom (k :: l :: rest) = .ok item ↔ 2 + l.toNat ≤ (k :: l :: rest).length ∧
        ∃ f : Frame, f.bytes = (k :: l :: rest).take (2 + l.toNat) ∧ f.Carries item)) ∧
    (∀ k l rest, 2 + l.toNat ≤ (k :: l :: rest).length →
      tryFrom (k :: l :: rest) = tryFrom ((k :: l :: rest).take (2 + l.toNat)) ∧
        tryFrom (k :: l :: rest) ≠ .error .incompleteInput) ∧
    (∀ b n item, IsFrame b → n < b.length → tryFrom (b.take n) ≠ .ok item) ∧
    ∀ b b' item, Accepted b item → Accepted b' item → b.length = b'.length ∧
      ∀ i, (i = 3 → item.key ≠ .newMacScheme) → b[i]? = b'[i]? := by
  have taken : ∀ (k l : UInt8) (rest : List UInt8),
      (k :: l :: rest).take (2 + l.toNat) = k :: l :: rest.take l.toNat := by
    intro k l rest
    rw [Nat.add_comm]
    rfl
  have size : ∀ (k l : UInt8) (rest : List UInt8),
      2 + l.toNat ≤ (k :: l :: rest).length ↔ l.toNat ≤ rest.length := by
    intro k l rest
    rw [List.length_cons, List.length_cons]
    omega
  refine ⟨fun k l rest item new => ?_, fun k l rest long => ?_, fun b n item frame short read => ?_,
    fun b b' item acc acc' => ?_⟩
  · rw [taken, size]
    apply Iff.intro
    · intro read
      have long := tryFrom_long read
      rw [(tryFrom_local long).1] at read
      have frame : IsFrame (k :: l :: rest.take l.toNat) := by
        refine ⟨l, rfl, ?_⟩
        rw [List.length_cons, List.length_cons, List.length_take]
        omega
      exact ⟨long, Accepted.carries ⟨frame, read⟩⟩
    · intro ⟨long, f, eq, carries⟩
      have key : f.key.toByte = k := (List.cons.inj eq).1
      have acc := carries.accepted (new f.key (key ▸ CardInfoKey.tryFromPrimitive_toByte f.key))
      rw [(tryFrom_local long).1, ← eq, acc.parses]
  · rw [taken]
    exact tryFrom_local ((size k l rest).mp long)
  · obtain ⟨len, hlen, total⟩ := frame
    match b, hlen with
    | k :: l :: rest, hlen =>
      obtain rfl : l = len := by simpa using hlen
      -- A prefix without key and length reads as nothing; with them it is too short for the length.
      match n with
      | 0 => cases read
      | 1 => exact tryFrom_key read
      | n + 2 =>
        have long := tryFrom_long read
        rw [List.length_take] at long
        rw [List.length_cons, List.length_cons] at short total
        omega
  · obtain ⟨f, rfl, carries⟩ := acc.carries
    obtain ⟨f', rfl, carries'⟩ := acc'.carries
    exact carries.agree carries'

/-- A card revision, and a byte behind it. -/
theorem tryFrom_exact_rev :
    tryFrom [0x26, 0x02, 0x31, 0x00, 0xff] = .ok (.cardRev ⟨[0x31]⟩) := by
  refine (tryFrom_exact.1 _ _ _ _ fun key known => ?_).mpr ⟨by decide, ?_⟩
  · cases known
    simp [CardInfoKey.IsOldMac]
  · exact ⟨⟨.cardRev, [0x31, 0x00], by decide⟩, rfl, rfl, rfl⟩

end CardInfoItem

end Warpshell.Cms
