import Warpshell.CardInfo.Decode

/-!
# Printed card infos

The texts of a card info and its parts, as they are printed: a line for each item, with its name and its
value. An item is determined by its text (`CardInfoItem.asString_injective`), and a card info by its
text as long as no value contains a line break. With the parser in front, so are the frames that were
sent (`printed_exact`).
-/

namespace Warpshell.Cms
open Interaction Framing Parsing

/-! ## Texts -/

/-- A byte as a character (Rust `b as char`). -/
def toChar (b : UInt8) : Char := Char.ofNat b.toNat

def ByteString.asString (s : ByteString) : String := .ofList (s.bytes.map toChar)

def OldMacAddress.asString (mac : OldMacAddress) : String := .ofList (mac.text.1.map toChar)

/-- Two hexadecimal digits (Rust `{:02x}`). -/
def hexOctet (b : UInt8) : String := .ofList [Nat.digitChar (b.toNat / 16), Nat.digitChar (b.toNat % 16)]

def MacAddress.asString (mac : MacAddress) : String := ":".intercalate (mac.octets.1.map hexOctet)

def TotalPowerAvail.asString : TotalPowerAvail → String
  | .power75W => "75W"
  | .power150W => "150W"
  | .power225W => "225W"
  | .power300W => "300W"

def ConfigMode.asString : ConfigMode → String
  | .slaveSerialX1 => "SlaveSerialX1"
  | .slaveSelectMapX8 => "SlaveSelectMapX8"
  | .slaveMapX16 => "SlaveMapX16"
  | .slaveSelectMapX32 => "SlaveSelectMapX32"
  | .jtagBoudaryScanX1 => "JtagBoudaryScanX1"
  | .masterSpiX1 => "MasterSpiX1"
  | .masterSpiX2 => "MasterSpiX2"
  | .masterSpiX4 => "MasterSpiX4"
  | .masterSpiX8 => "MasterSpiX8"
  | .masterSpiX16 => "MasterSpiX16"
  | .masterSerialX1 => "MasterSerialX1"
  | .masterSelectMapX8 => "MasterSelectMapX8"
  | .masterSelectMapX16 => "MasterSelectMapX16"

def CageType.asString : CageType → String
  | .qsfp => "QSFP"
  | .dsfp => "DSFP"
  | .sfp => "SFP"

def CardInfoItem.asString : CardInfoItem → String
  | .serialNumber s => "serial number: " ++ s.asString
  | .macAddress0 mac => "MAC address 0: " ++ mac.asString
  | .macAddress1 mac => "MAC address 1: " ++ mac.asString
  | .macAddress2 mac => "MAC address 2: " ++ mac.asString
  | .macAddress3 mac => "MAC address 3: " ++ mac.asString
  | .cardRev s => "card revision: " ++ s.asString
  | .cardName s => "card name: " ++ s.asString
  | .satelliteVersion s => "satellite controller version: " ++ s.asString
  | .totalPowerAvail power => "total power available: " ++ power.asString
  | .fanPresence c => "fan presence: " ++ .ofList [c]
  | .configMode mode => "config mode: " ++ mode.asString
  | .newMacScheme numAddresses mac =>
    "new MAC scheme: " ++ toString numAddresses.toNat ++ " addresses starting from " ++ mac.asString
  | .cageType0 cage => "cage 0 type: " ++ cage.asString
  | .cageType1 cage => "cage 1 type: " ++ cage.asString
  | .cageType2 cage => "cage 2 type: " ++ cage.asString
  | .cageType3 cage => "cage 3 type: " ++ cage.asString

def CardInfo.asString (info : CardInfo) : String :=
  info.items.foldl (fun s item => s ++ (item.asString ++ "\n")) ""

/-! ## Values -/

lemma toChar_injective : Function.Injective toChar := fun _ _ eq => char_injective eq

lemma ByteString.asString_injective : Function.Injective ByteString.asString := by
  intro s s' eq
  obtain ⟨bytes⟩ := s
  obtain ⟨bytes'⟩ := s'
  exact congrArg ByteString.mk (List.map_injective_iff.mpr toChar_injective (String.ofList_injective eq))

lemma OldMacAddress.asString_injective : Function.Injective OldMacAddress.asString := by
  intro mac mac' eq
  obtain ⟨text⟩ := mac
  obtain ⟨text'⟩ := mac'
  have same := List.map_injective_iff.mpr toChar_injective (String.ofList_injective eq)
  exact congrArg OldMacAddress.mk (Subtype.ext same)

lemma TotalPowerAvail.asString_injective : Function.Injective TotalPowerAvail.asString := by
  intro power power' eq
  cases power <;> cases power' <;> first | rfl | exact absurd eq (by decide)

lemma ConfigMode.asString_injective : Function.Injective ConfigMode.asString := by
  intro mode mode' eq
  cases mode <;> cases mode' <;> first | rfl | exact absurd eq (by decide)

lemma CageType.asString_injective : Function.Injective CageType.asString := by
  intro cage cage' eq
  cases cage <;> cases cage' <;> first | rfl | exact absurd eq (by decide)

lemma hexOctet_injective : Function.Injective hexOctet := by
  intro b b' eq
  have digit : ∀ m < 16, ∀ n < 16, Nat.digitChar m = Nat.digitChar n → m = n := by decide
  have bound := b.toNat_lt
  have bound' := b'.toNat_lt
  obtain ⟨high, low⟩ := List.cons.inj (String.ofList_injective eq)
  have high := digit _ (by omega) _ (by omega) high
  have low := digit _ (by omega) _ (by omega) (List.cons.inj low).1
  exact UInt8.toNat_inj.mp (by omega)

/-- Texts that go on after a separator are the same before it and behind it. -/
lemma cut {a : Char} {xs ys xs' ys' : List Char} (new : a ∉ xs) (new' : a ∉ xs')
    (eq : xs ++ a :: ys = xs' ++ a :: ys') : xs = xs' ∧ ys = ys' := by
  have parts := congrArg (List.splitOn a) eq
  rw [List.splitOn_append_cons_self_of_not_mem new, List.splitOn_append_cons_self_of_not_mem new']
    at parts
  obtain ⟨rfl, _⟩ := List.cons.inj parts
  exact ⟨rfl, (List.cons.inj (List.append_cancel_left eq)).2⟩

/-- Different MAC addresses are printed differently. -/
lemma MacAddress.asString_injective : Function.Injective MacAddress.asString := by
  have parts (mac : MacAddress) :
      mac.asString.toList.splitOn ':' = (mac.octets.1.map hexOctet).map String.toList := by
    rw [asString, String.toList_intercalate]
    refine List.splitOn_intercalate ':' (fun l mem colon => ?_) fun none => ?_
    · rw [List.map_map] at mem
      obtain ⟨b, _, rfl⟩ := List.mem_map.mp mem
      have bound := b.toNat_lt
      have digit : ∀ m < 16, ':' ≠ Nat.digitChar m := by decide
      rw [Function.comp, hexOctet, String.toList_ofList] at colon
      rcases List.mem_cons.mp colon with colon | colon
      · exact digit _ (by omega) colon
      · exact digit _ (by omega) (List.mem_singleton.mp colon)
    · have size := mac.octets.2
      rw [List.map_eq_nil_iff, List.map_eq_nil_iff] at none
      rw [none] at size
      cases size
  intro mac mac' eq
  have same := parts mac
  rw [eq, parts mac'] at same
  have octets := List.map_injective_iff.mpr hexOctet_injective
    (List.map_injective_iff.mpr (fun _ _ => String.toList_injective) same)
  obtain ⟨octets⟩ := mac
  exact congrArg MacAddress.mk (Subtype.ext octets.symm)

/-! ## Items -/

/-- What is printed before the value of an item. -/
def CardInfoKey.label : CardInfoKey → String
  | .serialNumber => "serial number: "
  | .macAddress0 => "MAC address 0: "
  | .macAddress1 => "MAC address 1: "
  | .macAddress2 => "MAC address 2: "
  | .macAddress3 => "MAC address 3: "
  | .cardRev => "card revision: "
  | .cardName => "card name: "
  | .satelliteVersion => "satellite controller version: "
  | .totalPowerAvail => "total power available: "
  | .fanPresence => "fan presence: "
  | .configMode => "config mode: "
  | .newMacScheme => "new MAC scheme: "
  | .cageType0 => "cage 0 type: "
  | .cageType1 => "cage 1 type: "
  | .cageType2 => "cage 2 type: "
  | .cageType3 => "cage 3 type: "

lemma CardInfoKey.label_injective : Function.Injective CardInfoKey.label := by
  intro key key' eq
  cases key <;> cases key' <;> first | rfl | exact absurd eq (by decide)

/-- A label ends at its only colon. -/
lemma CardInfoKey.label_cut (key : CardInfoKey) :
    ∃ name, key.label.toList = name ++ [':', ' '] ∧ ':' ∉ name := by
  refine ⟨key.label.toList.dropLast.dropLast, ?_, ?_⟩
  · cases key <;> decide
  · cases key <;> decide

namespace CardInfoItem

/-- What is printed behind the name of an item. -/
def value : CardInfoItem → String
  | .serialNumber s | .cardRev s | .cardName s | .satelliteVersion s => s.asString
  | .macAddress0 mac | .macAddress1 mac | .macAddress2 mac | .macAddress3 mac => mac.asString
  | .totalPowerAvail power => power.asString
  | .fanPresence c => .ofList [c]
  | .configMode mode => mode.asString
  | .newMacScheme numAddresses mac =>
    toString numAddresses.toNat ++ " addresses starting from " ++ mac.asString
  | .cageType0 cage | .cageType1 cage | .cageType2 cage | .cageType3 cage => cage.asString

/-- An item is printed as its label and its value. -/
lemma asString_eq (item : CardInfoItem) : item.asString = item.key.label ++ item.value := by
  have assoc (s₁ s₂ s₃ s₄ : String) : s₁ ++ s₂ ++ s₃ ++ s₄ = s₁ ++ (s₂ ++ s₃ ++ s₄) := by
    rw [String.append_assoc, String.append_assoc, String.append_assoc]
  cases item with
  | newMacScheme n mac => exact assoc _ _ _ _
  | _ => rfl

/-- The label and the value can be told apart. -/
lemma asString_cut {item item' : CardInfoItem} (eq : item.asString = item'.asString) :
    item.key = item'.key ∧ item.value = item'.value := by
  obtain ⟨name, label, single⟩ := item.key.label_cut
  obtain ⟨name', label', single'⟩ := item'.key.label_cut
  have text := congrArg String.toList eq
  rw [asString_eq, asString_eq, String.toList_append, String.toList_append, label, label',
    List.append_assoc, List.append_assoc] at text
  obtain ⟨rfl, rest⟩ := cut single single' text
  exact ⟨CardInfoKey.label_injective (String.toList_injective (label.trans label'.symm)),
    String.toList_injective (List.cons.inj rest).2⟩

/-- A number of addresses and the first one are determined by what is printed of them. -/
lemma newMacScheme_value {n n' : UInt8} {mac mac' : MacAddress}
    (eq : (newMacScheme n mac).value = (newMacScheme n' mac').value) : n = n' ∧ mac = mac' := by
  have text (n : UInt8) (mac : MacAddress) : (newMacScheme n mac).value.toList =
      Nat.toDigits 10 n.toNat ++ ' ' :: ("addresses starting from ".toList ++ mac.asString.toList) := by
    have between : " addresses starting from ".toList = ' ' :: "addresses starting from ".toList := rfl
    rw [value, String.toList_append, String.toList_append, Nat.toString_eq_ofList_toDigits,
      String.toList_ofList, List.append_assoc, between, List.cons_append]
  have digits (n : UInt8) : ' ' ∉ Nat.toDigits 10 n.toNat := by
    intro mem
    exact absurd (Nat.isDigit_of_mem_toDigits (by decide) (by decide) mem) (by decide)
  obtain ⟨number, rest⟩ := cut (digits n) (digits n')
    ((text n mac).symm.trans ((congrArg String.toList eq).trans (text n' mac')))
  refine ⟨?_, MacAddress.asString_injective (String.toList_injective (List.append_cancel_left rest))⟩
  have value := congrArg (Nat.ofDigitChars 10 · 0) number
  rw [Nat.ofDigitChars_ten_toDigits, Nat.ofDigitChars_ten_toDigits] at value
  exact UInt8.toNat_inj.mp value

/-- Different items are printed differently. -/
theorem asString_injective : Function.Injective CardInfoItem.asString := by
  intro item item' eq
  obtain ⟨same, eq⟩ := asString_cut eq
  cases item with
  | serialNumber s | cardRev s | cardName s | satelliteVersion s =>
    cases item' <;> cases same
    rw [ByteString.asString_injective eq]
  | macAddress0 mac | macAddress1 mac | macAddress2 mac | macAddress3 mac =>
    cases item' <;> cases same
    rw [OldMacAddress.asString_injective eq]
  | totalPowerAvail power =>
    cases item' <;> cases same
    rw [TotalPowerAvail.asString_injective eq]
  | fanPresence c =>
    cases item' <;> cases same
    rw [(List.cons.inj (String.ofList_injective eq)).1]
  | configMode mode =>
    cases item' <;> cases same
    rw [ConfigMode.asString_injective eq]
  | newMacScheme n mac =>
    cases item' <;> cases same
    obtain ⟨rfl, rfl⟩ := newMacScheme_value eq
    rfl
  | cageType0 cage | cageType1 cage | cageType2 cage | cageType3 cage =>
    cases item' <;> cases same
    rw [CageType.asString_injective eq]

end CardInfoItem

/-! ## Card infos -/

namespace CardInfo

/-- No value contains a line break. -/
def OneLine (info : CardInfo) : Prop := ∀ item ∈ info.items, '\n' ∉ item.value.toList

/-- A card info is printed as its items, with a line break after each. -/
lemma asString_toList (info : CardInfo) :
    info.asString.toList = info.items.flatMap fun item => item.asString.toList ++ ['\n'] := by
  have joined : info.asString = String.join (info.items.map fun item => item.asString ++ "\n") := by
    rw [String.join_eq_foldl, List.foldl_map]
    rfl
  rw [joined, String.toList_join, List.flatMap_map]
  congr 1
  funext item
  exact String.toList_append

/-- Without line breaks in its value, an item is one line. -/
lemma OneLine.item {info : CardInfo} (plain : info.OneLine) {item : CardInfoItem}
    (mem : item ∈ info.items) : '\n' ∉ item.asString.toList := by
  have label : '\n' ∉ item.key.label.toList := by cases item.key <;> decide
  rw [CardInfoItem.asString_eq, String.toList_append]
  simp [label, plain item mem]

/-- Lines determine the items. -/
lemma asString_lines {items items' : List CardInfoItem}
    (plain : ∀ item ∈ items, '\n' ∉ item.asString.toList)
    (plain' : ∀ item ∈ items', '\n' ∉ item.asString.toList)
    (eq : items.flatMap (fun item => item.asString.toList ++ ['\n']) =
      items'.flatMap fun item => item.asString.toList ++ ['\n']) : items = items' := by
  induction items generalizing items' with
  | nil =>
    cases items' with
    | nil => rfl
    | cons item' items' => simp at eq
  | cons item items ih =>
    cases items' with
    | nil => simp at eq
    | cons item' items' =>
      obtain ⟨here, plain⟩ := List.forall_mem_cons.mp plain
      obtain ⟨here', plain'⟩ := List.forall_mem_cons.mp plain'
      rw [List.flatMap_cons, List.flatMap_cons, List.append_assoc, List.append_assoc] at eq
      obtain ⟨line, rest⟩ := cut here here' eq
      rw [CardInfoItem.asString_injective (String.toList_injective line), ih plain plain' rest]

/-- Of card infos without line breaks in their values, no two are printed the same. -/
theorem asString_inj {info info' : CardInfo} (plain : info.OneLine) (plain' : info'.OneLine) :
    info.asString = info'.asString ↔ info = info' := by
  refine ⟨fun eq => ?_, congrArg asString⟩
  have lines := congrArg String.toList eq
  rw [asString_toList, asString_toList] at lines
  have same := asString_lines (fun _ mem => plain.item mem) (fun _ mem => plain'.item mem) lines
  obtain ⟨items⟩ := info
  exact congrArg CardInfo.mk same

end CardInfo

/-! ## From frames to text -/

/-- The same frames, up to the reserved byte of a new MAC scheme. -/
def Frame.Same (f f' : Frame) : Prop :=
  f.bytes.length = f'.bytes.length ∧
    ∀ i, (i = 3 → f.key ≠ .newMacScheme) → f.bytes[i]? = f'.bytes[i]?

/-- The same frames have the same key. -/
lemma Frame.Same.key {f f' : Frame} (same : f.Same f') : f.key = f'.key := by
  have first := same.2 0 fun eq => absurd eq (by decide)
  have known := congrArg CardInfoKey.tryFromPrimitive (Option.some.inj first)
  rw [CardInfoKey.tryFromPrimitive_toByte, CardInfoKey.tryFromPrimitive_toByte] at known
  exact Except.ok.inj known

/-- The item with the key of the new MAC scheme. -/
lemma newMacScheme_of_key {item : CardInfoItem} (key : item.key = .newMacScheme) :
    ∃ count mac, item = .newMacScheme count mac := by
  cases item <;> cases key
  exact ⟨_, _, rfl⟩

/-- What the parser takes from a frame does not depend on its reserved byte. -/
lemma Frame.Same.item {f f' : Frame} {item item' : CardInfoItem} (same : f.Same f')
    (acc : Accepted f.bytes item) (acc' : Accepted f'.bytes item') (carries : f.Carries item)
    (carries' : f'.Carries item') : item = item' := by
  by_cases new : f.key = .newMacScheme
  · obtain ⟨count, mac, rfl⟩ := newMacScheme_of_key (carries.1.symm.trans new)
    obtain ⟨count', mac', rfl⟩ := newMacScheme_of_key (carries'.1.symm.trans (same.key.symm.trans new))
    obtain ⟨reserved, read⟩ := carries.2
    obtain ⟨reserved', read'⟩ := carries'.2
    have bytes := same.2
    rw [Frame.bytes, Frame.bytes, read, read'] at bytes
    obtain rfl := Option.some.inj (bytes 2 fun eq => absurd eq (by decide))
    have octets : mac.octets.1 = mac'.octets.1 := by
      refine List.ext_getElem? fun i => bytes (i + 4) fun eq => ?_
      omega
    obtain ⟨octets'⟩ := mac
    exact congrArg (fun octets => CardInfoItem.newMacScheme count ⟨octets⟩) (Subtype.ext octets)
  · have bytes : f.bytes = f'.bytes := List.ext_getElem? fun i => same.2 i fun _ => new
    have parses := acc.parses
    rw [bytes, acc'.parses] at parses
    exact (Except.ok.inj parses).symm

/-- The frames were parsed as these items. -/
abbrev Parsed (fs : List WellFormedFrame) (items : List CardInfoItem) : Prop :=
  List.Forall₂ (fun f item => Accepted f.bytes item ∧ f.Carries item) fs items

/-- Frames parsed as the same items are the same. -/
lemma Parsed.same {fs fs' : List WellFormedFrame} {items : List CardInfoItem} (parsed : Parsed fs items)
    (parsed' : Parsed fs' items) : List.Forall₂ (fun f f' => f.Same f'.toFrame) fs fs' := by
  induction parsed generalizing fs' with
  | nil =>
    cases parsed'
    exact .nil
  | cons here _ ih =>
    cases parsed' with
    | cons here' rest' =>
      obtain ⟨size, bytes⟩ := here.2.agree here'.2
      exact .cons ⟨size, fun i other => bytes i fun eq => here.2.1 ▸ other eq⟩ (ih rest')

/-- The same frames are parsed as the same items. -/
lemma Parsed.items {fs fs' : List WellFormedFrame} {items items' : List CardInfoItem}
    (parsed : Parsed fs items) (parsed' : Parsed fs' items')
    (same : List.Forall₂ (fun f f' => f.Same f'.toFrame) fs fs') : items = items' := by
  induction same generalizing items items' with
  | nil =>
    cases parsed
    cases parsed'
    rfl
  | cons first _ ih =>
    cases parsed with
    | cons here rest =>
      cases parsed' with
      | cons here' rest' =>
        rw [first.item here.1 here'.1 here.2 here'.2, ih rest rest']

/-- What a card says about itself and what is printed of it determine each other: the texts of two
    card infos are the same exactly when their frames are, up to the reserved bytes, as long as no
    value contains a line break. -/
theorem printed_exact (fs fs' : List WellFormedFrame) (info info' : CardInfo)
    (parsed : CardInfo.tryFrom (fs.flatMap (·.bytes)) = .ok info)
    (parsed' : CardInfo.tryFrom (fs'.flatMap (·.bytes)) = .ok info')
    (plain : info.OneLine) (plain' : info'.OneLine) :
    info.asString = info'.asString ↔ List.Forall₂ (fun f f' => f.Same f'.toFrame) fs fs' := by
  rw [CardInfo.asString_inj plain plain']
  have carried := CardInfo.tryFrom_carries fs parsed
  have carried' := CardInfo.tryFrom_carries fs' parsed'
  apply Iff.intro
  · rintro rfl
    exact Parsed.same carried carried'
  · intro same
    have items := Parsed.items carried carried' same
    obtain ⟨items⟩ := info
    exact congrArg CardInfo.mk items

/-- Two new MAC schemes that differ in their reserved bytes. -/
theorem printed_exact_reserved : ∃ info info' : CardInfo,
    CardInfo.tryFrom [0x4b, 8, 4, 0, 0x00, 0x0a, 0x35, 0x00, 0x00, 0x01] = .ok info ∧
    CardInfo.tryFrom [0x4b, 8, 4, 1, 0x00, 0x0a, 0x35, 0x00, 0x00, 0x01] = .ok info' ∧
    info.asString = info'.asString := by
  let scheme (reserved : UInt8) : WellFormedFrame :=
    ⟨⟨.newMacScheme, [4, reserved, 0x00, 0x0a, 0x35, 0x00, 0x00, 0x01], by simp⟩, 4, reserved,
      ⟨[0x00, 0x0a, 0x35, 0x00, 0x00, 0x01], rfl⟩, rfl⟩
  let info : CardInfo := ⟨[.newMacScheme 4 ⟨⟨[0x00, 0x0a, 0x35, 0x00, 0x00, 0x01], rfl⟩⟩]⟩
  have parsed : CardInfo.tryFrom ([scheme 0].flatMap (·.bytes)) = .ok info := by decide +kernel
  have parsed' : CardInfo.tryFrom ([scheme 1].flatMap (·.bytes)) = .ok info := by decide +kernel
  have plain : info.OneLine := by
    intro item mem
    rw [List.mem_singleton.mp mem]
    decide
  have same : (scheme 0).Same (scheme 1).toFrame := by
    refine ⟨rfl, fun i other => ?_⟩
    obtain _ | _ | _ | _ | i := i
    · rfl
    · rfl
    · rfl
    · exact absurd rfl (other rfl)
    · rfl
  exact ⟨info, info, parsed, parsed',
    (printed_exact _ _ _ _ parsed parsed' plain plain).mpr (.cons same .nil)⟩

end Warpshell.Cms
