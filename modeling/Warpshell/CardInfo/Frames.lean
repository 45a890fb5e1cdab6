import Warpshell.CardInfo.Parse
import Warpshell.Parsing

/-!
# Well-formed frames are accepted

The card info format, described on its own: which payloads are well formed for each key, and which
item a frame carries. `tryFrom_frames` compares it with the parser. The parser takes every list of
well-formed frames apart, except that it has no room for an old MAC address: it reads the 17
characters of the text and then asks for 16.
-/

namespace Warpshell.Cms
open Interaction Framing Parsing

/-! ## The format -/

def TotalPowerAvail.toByte : TotalPowerAvail → UInt8
  | .power75W => 0
  | .power150W => 1
  | .power225W => 2
  | .power300W => 3

def ConfigMode.toByte : ConfigMode → UInt8
  | .slaveSerialX1 => 0
  | .slaveSelectMapX8 => 1
  | .slaveMapX16 => 2
  | .slaveSelectMapX32 => 3
  | .jtagBoudaryScanX1 => 4
  | .masterSpiX1 => 5
  | .masterSpiX2 => 6
  | .masterSpiX4 => 7
  | .masterSpiX8 => 8
  | .masterSpiX16 => 9
  | .masterSerialX1 => 10
  | .masterSelectMapX8 => 11
  | .masterSelectMapX16 => 12

def CageType.toByte : CageType → UInt8
  | .qsfp => 0
  | .dsfp => 1
  | .sfp => 2

def CardInfoItem.key : CardInfoItem → CardInfoKey
  | .serialNumber _ => .serialNumber
  | .macAddress0 _ => .macAddress0
  | .macAddress1 _ => .macAddress1
  | .macAddress2 _ => .macAddress2
  | .macAddress3 _ => .macAddress3
  | .cardRev _ => .cardRev
  | .cardName _ => .cardName
  | .satelliteVersion _ => .satelliteVersion
  | .totalPowerAvail _ => .totalPowerAvail
  | .fanPresence _ => .fanPresence
  | .configMode _ => .configMode
  | .newMacScheme _ _ => .newMacScheme
  | .cageType0 _ => .cageType0
  | .cageType1 _ => .cageType1
  | .cageType2 _ => .cageType2
  | .cageType3 _ => .cageType3

/-- The four keys of MAC addresses in text form. -/
def CardInfoKey.IsOldMac (key : CardInfoKey) : Prop :=
  key = .macAddress0 ∨ key = .macAddress1 ∨ key = .macAddress2 ∨ key = .macAddress3

/-- A key with a payload that one length byte can announce. -/
structure Frame where
  key : CardInfoKey
  payload : List UInt8
  fits : payload.length < 256

namespace Frame

def bytes (f : Frame) : List UInt8 :=
  f.key.toByte :: UInt8.ofNat f.payload.length :: f.payload

/-- The payload is one the format allows for the key. -/
def WellFormed (f : Frame) : Prop :=
  match f.key with
  | .serialNumber | .cardRev | .cardName | .satelliteVersion => ∃ text, f.payload = text ++ [0]
  | .macAddress0 | .macAddress1 | .macAddress2 | .macAddress3 =>
    ∃ text : Bytes 17, f.payload = text.1 ++ [0]
  | .totalPowerAvail => ∃ power : TotalPowerAvail, f.payload = [power.toByte]
  | .fanPresence => ∃ b, f.payload = [b]
  | .configMode => ∃ mode : ConfigMode, f.payload = [mode.toByte]
  | .newMacScheme => ∃ count reserved, ∃ mac : Bytes 6, f.payload = count :: reserved :: mac.1
  | .cageType0 | .cageType1 | .cageType2 | .cageType3 =>
    ∃ cage : CageType, f.payload = [cage.toByte]

/-- The item that a frame carries. -/
def Carries (f : Frame) (item : CardInfoItem) : Prop :=
  f.key = item.key ∧
    match item with
    | .serialNumber s | .cardRev s | .cardName s | .satelliteVersion s =>
      f.payload = s.bytes ++ [0]
    | .macAddress0 mac | .macAddress1 mac | .macAddress2 mac | .macAddress3 mac =>
      f.payload = mac.text.1 ++ [0]
    | .totalPowerAvail power => f.payload = [power.toByte]
    | .fanPresence c => ∃ b, f.payload = [b] ∧ c = Char.ofNat b.toNat
    | .configMode mode => f.payload = [mode.toByte]
    | .newMacScheme count mac => ∃ reserved, f.payload = count :: reserved :: mac.octets.1
    | .cageType0 cage | .cageType1 cage | .cageType2 cage | .cageType3 cage =>
      f.payload = [cage.toByte]

end Frame

/-- A frame with a payload that the format allows. -/
structure WellFormedFrame extends Frame where
  wellFormed : toFrame.WellFormed

/-! ## Payloads -/

/-- A key is read from its byte. -/
lemma CardInfoKey.tryFromPrimitive_toByte (key : CardInfoKey) :
    tryFromPrimitive key.toByte = .ok key := by
  cases key <;> rfl

namespace CardInfoItem

/-- An item has the key that its payload was read for. -/
lemma payload_key {key : CardInfoKey} {len : Nat} {iter : List UInt8} {item : CardInfoItem}
    (read : payload key len iter = .ok item) : item.key = key := by
  cases key
  all_goals
    obtain ⟨x, _, made⟩ := ok_of_bind read
    cases made
    rfl

lemma nextN_append (v s : List UInt8) : nextN v.length (v ++ s) = .ok (v, s) := by
  induction v with
  | nil => rfl
  | cons b v ih =>
    show (nextN v.length (v ++ s)).bind (fun x => .ok (b :: x.1, x.2)) = _
    rw [ih]
    rfl

/-- As many bytes are taken as were asked for. -/
lemma nextN_length {n : Nat} {iter v rest : List UInt8} (read : nextN n iter = .ok (v, rest)) :
    v.length = n := by
  induction n generalizing iter v rest with
  | zero => cases read; rfl
  | succ n ih =>
    cases iter with
    | nil => cases read
    | cons b iter =>
      obtain ⟨x, h, made⟩ := ok_of_bind (x := nextN n iter) read
      cases made
      exact congrArg (· + 1) (ih h)

lemma nulTerminated_append (text : List UInt8) :
    nulTerminated (text.length + 1) (text ++ [0]) = .ok (text, []) := by
  show (nextN text.length (text ++ [0])).bind _ = _
  rw [nextN_append]
  rfl

/-- The text is one byte shorter than declared. -/
lemma nulTerminated_length {len : Nat} {iter v rest : List UInt8}
    (read : nulTerminated len iter = .ok (v, rest)) : v.length = len - 1 := by
  obtain ⟨⟨v', rest'⟩, h, made⟩ := ok_of_bind (x := nextN (len - 1) iter) read
  obtain ⟨⟨b, rest''⟩, _, made⟩ := ok_of_bind (x := next rest') made
  change (if b != 0 then Except.error _ else Except.ok (v', rest'')) = _ at made
  split at made
  · cases made
  · cases made
    exact nextN_length h

lemma stringPayload_append (text : List UInt8) :
    stringPayload (text.length + 1) (text ++ [0]) = .ok (⟨text⟩, []) := by
  rw [stringPayload, if_neg (by omega), nulTerminated_append]
  rfl

/-- A new MAC scheme is read from its eight bytes. -/
lemma newMacPayload_append (count reserved : UInt8) (mac : Bytes 6) :
    newMacPayload 8 (count :: reserved :: mac.1) = .ok ((count, ⟨mac⟩), []) := by
  obtain ⟨mac, size⟩ := mac
  show (nextN 6 mac).bind (fun x => (tryIntoArray 6 x.1).bind _) = _
  have read := nextN_append mac []
  rw [List.append_nil, size] at read
  rw [read]
  show (tryIntoArray 6 mac).bind _ = _
  rw [tryIntoArray, dif_pos size]
  rfl

/-- An old MAC address is never read: 17 bytes do not make an array of 16. -/
lemma oldMacPayload_fails (len : Nat) (iter : List UInt8) (x) :
    oldMacPayload len iter ≠ .ok x := by
  intro read
  unfold oldMacPayload at read
  split at read
  · cases read
  next size =>
    obtain ⟨⟨v, rest⟩, h, made⟩ := ok_of_bind (x := nulTerminated len iter) read
    obtain ⟨mac, h', _⟩ := ok_of_bind (x := tryIntoArray 16 v) made
    have long := nulTerminated_length h
    have size : len = 18 := not_not.mp size
    rw [tryIntoArray, dif_neg (by omega)] at h'
    cases h'

/-- An old MAC address is never read. -/
lemma payload_oldMac {key : CardInfoKey} (old : key.IsOldMac) (len : Nat) (iter : List UInt8)
    (item : CardInfoItem) : payload key len iter ≠ .ok item := by
  intro read
  obtain rfl | rfl | rfl | rfl := old
  all_goals
    obtain ⟨x, h, _⟩ := ok_of_bind (x := oldMacPayload len iter) read
    exact oldMacPayload_fails len iter x h

/-- The payload of a frame is read as the item that the frame carries. -/
lemma payload_of_carries {f : Frame} {item : CardInfoItem} (carries : f.Carries item)
    (new : ¬ f.key.IsOldMac) : payload f.key f.payload.length f.payload = .ok item := by
  obtain ⟨key, bytes, fits⟩ := f
  obtain ⟨eq, carries⟩ := carries
  cases item with
  | serialNumber s | cardRev s | cardName s | satelliteVersion s =>
    obtain rfl : bytes = s.bytes ++ [0] := carries
    cases eq
    simp only [payload, List.length_append, List.length_singleton, stringPayload_append]
    rfl
  | macAddress0 mac => exact absurd (.inl eq) new
  | macAddress1 mac => exact absurd (.inr (.inl eq)) new
  | macAddress2 mac => exact absurd (.inr (.inr (.inl eq))) new
  | macAddress3 mac => exact absurd (.inr (.inr (.inr eq))) new
  | totalPowerAvail power =>
    obtain rfl : bytes = [power.toByte] := carries
    cases eq
    cases power <;> rfl
  | fanPresence c =>
    obtain ⟨b, rfl, rfl⟩ := carries
    cases eq
    rfl
  | configMode mode =>
    obtain rfl : bytes = [mode.toByte] := carries
    cases eq
    cases mode <;> rfl
  | newMacScheme count mac =>
    obtain ⟨reserved, rfl⟩ := carries
    cases eq
    have size : (count :: reserved :: mac.octets.1).length = 8 := by simp [mac.octets.2]
    simp only [payload, size, newMacPayload_append]
    rfl
  | cageType0 cage | cageType1 cage | cageType2 cage | cageType3 cage =>
    obtain rfl : bytes = [cage.toByte] := carries
    cases eq
    cases cage <;> rfl

end CardInfoItem

/-! ## Frames -/

namespace Frame

/-- A frame declares its own length. -/
lemma isFrame (f : Frame) : IsFrame f.bytes := by
  refine ⟨UInt8.ofNat f.payload.length, rfl, ?_⟩
  rw [UInt8.toNat_ofNat_of_lt' f.fits]
  show f.payload.length + 1 + 1 = _
  omega

/-- The item parser reads the payload of a frame by its key. -/
lemma tryFrom_bytes (f : Frame) :
    CardInfoItem.tryFrom f.bytes = CardInfoItem.payload f.key f.payload.length f.payload := by
  rw [bytes, CardInfoItem.tryFrom_cons, CardInfoKey.tryFromPrimitive_toByte]
  rw [UInt8.toNat_ofNat_of_lt' f.fits]

/-- A frame that carries an item is accepted, unless it is an old MAC address. -/
lemma Carries.accepted {f : Frame} {item : CardInfoItem} (carries : f.Carries item)
    (new : ¬ f.key.IsOldMac) : Accepted f.bytes item :=
  ⟨f.isFrame, by rw [tryFrom_bytes, CardInfoItem.payload_of_carries carries new]⟩

/-- A well-formed payload belongs to an item. -/
lemma WellFormed.carries {f : Frame} (wf : f.WellFormed) (new : ¬ f.key.IsOldMac) :
    ∃ item, f.Carries item := by
  obtain ⟨key, bytes, fits⟩ := f
  cases key with
  | serialNumber =>
    obtain ⟨text, rfl⟩ := wf
    exact ⟨.serialNumber ⟨text⟩, rfl, rfl⟩
  | cardRev =>
    obtain ⟨text, rfl⟩ := wf
    exact ⟨.cardRev ⟨text⟩, rfl, rfl⟩
  | cardName =>
    obtain ⟨text, rfl⟩ := wf
    exact ⟨.cardName ⟨text⟩, rfl, rfl⟩
  | satelliteVersion =>
    obtain ⟨text, rfl⟩ := wf
    exact ⟨.satelliteVersion ⟨text⟩, rfl, rfl⟩
  | macAddress0 => exact absurd (.inl rfl) new
  | macAddress1 => exact absurd (.inr (.inl rfl)) new
  | macAddress2 => exact absurd (.inr (.inr (.inl rfl))) new
  | macAddress3 => exact absurd (.inr (.inr (.inr rfl))) new
  | totalPowerAvail =>
    obtain ⟨power, rfl⟩ := wf
    exact ⟨.totalPowerAvail power, rfl, rfl⟩
  | fanPresence =>
    obtain ⟨b, rfl⟩ := wf
    exact ⟨.fanPresence (Char.ofNat b.toNat), rfl, b, rfl, rfl⟩
  | configMode =>
    obtain ⟨mode, rfl⟩ := wf
    exact ⟨.configMode mode, rfl, rfl⟩
  | newMacScheme =>
    obtain ⟨count, reserved, mac, rfl⟩ := wf
    exact ⟨.newMacScheme count ⟨mac⟩, rfl, reserved, rfl⟩
  | cageType0 =>
    obtain ⟨cage, rfl⟩ := wf
    exact ⟨.cageType0 cage, rfl, rfl⟩
  | cageType1 =>
    obtain ⟨cage, rfl⟩ := wf
    exact ⟨.cageType1 cage, rfl, rfl⟩
  | cageType2 =>
    obtain ⟨cage, rfl⟩ := wf
    exact ⟨.cageType2 cage, rfl, rfl⟩
  | cageType3 =>
    obtain ⟨cage, rfl⟩ := wf
    exact ⟨.cageType3 cage, rfl, rfl⟩

/-- A well-formed frame is accepted, unless it is an old MAC address. -/
lemma accepted (f : WellFormedFrame) (new : ¬ f.key.IsOldMac) :
    ∃ item, Accepted f.bytes item ∧ f.Carries item := by
  obtain ⟨item, carries⟩ := f.wellFormed.carries new
  exact ⟨item, carries.accepted new, carries⟩

/-- The payload of an old MAC address is 17 characters and a terminator. -/
lemma oldMac_payload (f : WellFormedFrame) (old : f.key.IsOldMac) :
    ∃ text : Bytes 17, f.payload = text.1 ++ [0] := by
  obtain ⟨⟨key, payload, fits⟩, wf⟩ := f
  obtain rfl | rfl | rfl | rfl := old
  all_goals exact wf

/-- A well-formed old MAC address is refused for its length. -/
lemma tryFrom_oldMac (f : WellFormedFrame) (old : f.key.IsOldMac) :
    CardInfoItem.tryFrom f.bytes = .error .incorrectLength := by
  obtain ⟨⟨text, size⟩, eq⟩ := oldMac_payload f old
  have refused : CardInfoItem.oldMacPayload 18 (text ++ [0]) = .error .incorrectLength := by
    have read := CardInfoItem.nulTerminated_append text
    rw [size] at read
    show (CardInfoItem.nulTerminated 18 (text ++ [0])).bind _ = _
    rw [read]
    show (CardInfoItem.tryIntoArray 16 text).bind _ = _
    rw [CardInfoItem.tryIntoArray, dif_neg (by omega)]
    rfl
  have len : f.payload.length = 18 := by rw [eq, List.length_append, size]; rfl
  rw [tryFrom_bytes, len, eq]
  obtain key | key | key | key := old
  all_goals
    rw [key, CardInfoItem.payload]
    simp only [refused]
    rfl

/-- A well-formed frame of an old MAC address carries no item: an item has room for 16 bytes. -/
lemma not_carries (f : WellFormedFrame) (old : f.key.IsOldMac) (item : CardInfoItem) :
    ¬ f.Carries item := by
  intro ⟨eq, carries⟩
  obtain ⟨text, eqt⟩ := oldMac_payload f old
  cases item with
  | macAddress0 mac | macAddress1 mac | macAddress2 mac | macAddress3 mac =>
    have eqm : f.payload = mac.text.1 ++ [0] := carries
    have size := congrArg List.length (eqt.symm.trans eqm)
    rw [List.length_append, List.length_append, text.2, mac.text.2] at size
    omega
  | _ =>
    rw [eq] at old
    simp [CardInfoKey.IsOldMac, CardInfoItem.key] at old

end Frame

/-- No old MAC address is accepted. -/
lemma Accepted.not_oldMac {b item} (acc : Accepted b item) : ¬ item.key.IsOldMac := by
  obtain ⟨len, hlen, _⟩ := acc.frame
  have parses := acc.parses
  match b, hlen with
  | key :: l :: iter, _ =>
    rw [CardInfoItem.tryFrom_cons] at parses
    split at parses
    next k _ =>
      have eq := CardInfoItem.payload_key parses
      intro old
      exact CardInfoItem.payload_oldMac (eq ▸ old) _ _ _ parses
    · cases parses

/-! ## Completeness -/

namespace CardInfo

/-- Well-formed frames are split into the items that they carry. -/
lemma split_frames (fs : List WellFormedFrame) (new : ∀ f ∈ fs, ¬ f.key.IsOldMac)
    (rest : List UInt8) :
    ∃ items, Split Accepted (fs.flatMap (·.bytes) ++ rest) items rest ∧
      List.Forall₂ (fun f item => f.Carries item) fs items := by
  induction fs with
  | nil => exact ⟨[], .nil, .nil⟩
  | cons f fs ih =>
    obtain ⟨item, acc, carries⟩ := Frame.accepted f (new f List.mem_cons_self)
    obtain ⟨items, sp, all⟩ := ih fun g hg => new g (List.mem_cons_of_mem f hg)
    refine ⟨item :: items, ?_, .cons carries all⟩
    rw [List.flatMap_cons, List.append_assoc]
    exact .cons acc sp

/-- Each item of a card info was accepted in some frame. -/
lemma mem_accepted {input : List UInt8} {info : CardInfo} {item : CardInfoItem}
    (parsed : tryFrom input = .ok info) (mem : item ∈ info.items) : ∃ b, Accepted b item := by
  obtain ⟨items, rest, o, sp, stop, eq⟩ := tryFrom_stop input
  rw [parsed] at eq
  cases stop with
  | short _ =>
    rw [prepend_ok, List.append_nil] at eq
    cases eq
    clear parsed
    induction sp with
    | nil => cases mem
    | @cons b i s is r acc _ ih =>
      rcases List.mem_cons.mp mem with rfl | mem
      · exact ⟨b, acc⟩
      · exact ih ‹_› mem
  | far _ _ _ => cases eq
  | byOne _ _ _ => cases eq
  | item _ _ _ _ => cases eq

/-- There is a well-formed frame for each key, old MAC addresses apart. -/
lemma exists_wellFormed (key : CardInfoKey) (new : ¬ key.IsOldMac) :
    ∃ f : WellFormedFrame, f.key = key := by
  cases key with
  | serialNumber => exact ⟨⟨⟨.serialNumber, [0], by decide⟩, [], rfl⟩, rfl⟩
  | cardRev => exact ⟨⟨⟨.cardRev, [0], by decide⟩, [], rfl⟩, rfl⟩
  | cardName => exact ⟨⟨⟨.cardName, [0], by decide⟩, [], rfl⟩, rfl⟩
  | satelliteVersion => exact ⟨⟨⟨.satelliteVersion, [0], by decide⟩, [], rfl⟩, rfl⟩
  | macAddress0 => exact absurd (.inl rfl) new
  | macAddress1 => exact absurd (.inr (.inl rfl)) new
  | macAddress2 => exact absurd (.inr (.inr (.inl rfl))) new
  | macAddress3 => exact absurd (.inr (.inr (.inr rfl))) new
  | totalPowerAvail => exact ⟨⟨⟨.totalPowerAvail, [0], by decide⟩, .power75W, rfl⟩, rfl⟩
  | fanPresence => exact ⟨⟨⟨.fanPresence, [0], by decide⟩, 0, rfl⟩, rfl⟩
  | configMode => exact ⟨⟨⟨.configMode, [0], by decide⟩, .slaveSerialX1, rfl⟩, rfl⟩
  | newMacScheme =>
    exact ⟨⟨⟨.newMacScheme, [0, 0, 0, 0, 0, 0, 0, 0], by decide⟩, 0, 0, ⟨[0, 0, 0, 0, 0, 0], rfl⟩,
      rfl⟩, rfl⟩
  | cageType0 => exact ⟨⟨⟨.cageType0, [0], by decide⟩, .qsfp, rfl⟩, rfl⟩
  | cageType1 => exact ⟨⟨⟨.cageType1, [0], by decide⟩, .qsfp, rfl⟩, rfl⟩
  | cageType2 => exact ⟨⟨⟨.cageType2, [0], by decide⟩, .qsfp, rfl⟩, rfl⟩
  | cageType3 => exact ⟨⟨⟨.cageType3, [0], by decide⟩, .qsfp, rfl⟩, rfl⟩

/-- The first old MAC address among well-formed frames is where parsing stops. -/
theorem tryFrom_oldMac (fs : List WellFormedFrame) (old : ∃ f ∈ fs, f.key.IsOldMac) :
    tryFrom (fs.flatMap (·.bytes)) = .err (.cardInfoItem .incorrectLength) := by
  induction fs with
  | nil =>
    obtain ⟨f, mem, _⟩ := old
    cases mem
  | cons f fs ih =>
    rw [List.flatMap_cons]
    by_cases here : f.key.IsOldMac
    · obtain ⟨len, hlen, size⟩ := f.isFrame
      have parses := Frame.tryFrom_oldMac f here
      have long : f.bytes.length = f.payload.length + 2 := rfl
      obtain ⟨text, eq⟩ := Frame.oldMac_payload f here
      have wide : f.payload.length = text.1.length + 1 := by rw [eq, List.length_append]; rfl
      have stop : Stop (f.bytes ++ fs.flatMap (·.bytes))
          (.err (.cardInfoItem .incorrectLength)) := by
        have declared : (f.bytes ++ fs.flatMap (·.bytes))[1]? = some len := by
          rw [List.getElem?_append_left (by omega), hlen]
        refine .item ?_ declared ?_ ?_
        · rw [List.length_append]; omega
        · rw [List.length_append]; omega
        · rw [show len.toNat + 2 = f.bytes.length from by omega, List.take_left, parses]
      exact stop.tryFrom
    · obtain ⟨item, acc, _⟩ := Frame.accepted f here
      obtain ⟨g, mem, old⟩ := old
      rcases List.mem_cons.mp mem with rfl | mem
      · exact absurd old here
      · rw [tryFrom_frame acc, ih ⟨g, mem, old⟩, prepend_err]

/-- The items of an accepted sequence of frames are the ones that the frames carry. -/
lemma tryFrom_carries (fs : List WellFormedFrame) {info : CardInfo}
    (parsed : tryFrom (fs.flatMap (·.bytes)) = .ok info) :
    List.Forall₂ (fun f item => Accepted f.bytes item ∧ f.Carries item) fs info.items := by
  by_cases old : ∃ f ∈ fs, f.key.IsOldMac
  · rw [tryFrom_oldMac fs old] at parsed
    cases parsed
  · have new : ∀ f ∈ fs, ¬ f.key.IsOldMac := fun f mem key => old ⟨f, mem, key⟩
    obtain ⟨items, sp, all⟩ := split_frames fs new []
    rw [List.append_nil] at sp
    rw [tryFrom_split sp, tryFrom_short (by simp), prepend_ok, List.append_nil] at parsed
    cases parsed
    clear sp old
    induction all with
    | nil => exact .nil
    | @cons f item fs items carries _ ih =>
      obtain ⟨here, rest⟩ := List.forall_mem_cons.mp new
      exact .cons ⟨carries.accepted here, carries⟩ (ih rest)

/-- A list of well-formed frames is taken apart into the items they carry, one for each frame and in
    order, exactly when none of them is an old MAC address; and an item of a given key is produced by
    some input exactly when the key is not one of an old MAC address. -/
theorem tryFrom_frames (fs : List WellFormedFrame) (key : CardInfoKey) :
    ((∃ items, tryFrom (fs.flatMap (·.bytes)) = .ok ⟨items⟩ ∧
        List.Forall₂ (fun f item => f.Carries item) fs items) ↔
      ∀ f ∈ fs, ¬ f.key.IsOldMac) ∧
    ((∃ input info, tryFrom input = .ok info ∧ ∃ item ∈ info.items, item.key = key) ↔
      ¬ key.IsOldMac) := by
  refine ⟨⟨?_, ?_⟩, ⟨?_, ?_⟩⟩
  · intro ⟨items, parsed, all⟩ f mem old
    clear parsed
    induction all with
    | nil => cases mem
    | cons carries _ ih =>
      rcases List.mem_cons.mp mem with rfl | mem
      · exact Frame.not_carries f old _ carries
      · exact ih mem
  · intro new
    obtain ⟨items, sp, all⟩ := split_frames fs new []
    rw [List.append_nil] at sp
    refine ⟨items, ?_, all⟩
    rw [tryFrom_split sp, tryFrom_short (by simp), prepend_ok, List.append_nil]
  · intro ⟨input, info, parsed, item, mem, eq⟩
    obtain ⟨b, acc⟩ := mem_accepted parsed mem
    exact eq ▸ acc.not_oldMac
  · intro new
    obtain ⟨f, rfl⟩ := exists_wellFormed key new
    obtain ⟨item, acc, carries⟩ := Frame.accepted f new
    have sp : Split Accepted (f.bytes ++ []) [item] [] := .cons acc .nil
    have parsed : tryFrom (f.bytes ++ []) = .ok ⟨[item]⟩ := by
      rw [tryFrom_split sp, tryFrom_short (by simp)]
      rfl
    exact ⟨_, _, parsed, item, List.mem_cons_self, carries.1.symm⟩

/-- The MAC address 00:0a:35:00:00:00 in text form, as one frame: well formed, and refused. -/
theorem tryFrom_refuses_mac :
    (⟨.macAddress0, [0x30, 0x30, 0x3a, 0x30, 0x61, 0x3a, 0x33, 0x35, 0x3a, 0x30, 0x30, 0x3a, 0x30,
      0x30, 0x3a, 0x30, 0x30, 0x00], by decide⟩ : Frame).WellFormed ∧
    tryFrom [0x22, 18, 0x30, 0x30, 0x3a, 0x30, 0x61, 0x3a, 0x33, 0x35, 0x3a, 0x30, 0x30, 0x3a, 0x30,
      0x30, 0x3a, 0x30, 0x30, 0x00] = .err (.cardInfoItem .incorrectLength) :=
  ⟨⟨⟨[0x30, 0x30, 0x3a, 0x30, 0x61, 0x3a, 0x33, 0x35, 0x3a, 0x30, 0x30, 0x3a, 0x30, 0x30, 0x3a, 0x30,
    0x30], rfl⟩, rfl⟩, by decide +kernel⟩

end CardInfo

end Warpshell.Cms
