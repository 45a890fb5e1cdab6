import Warpshell.Base

/-!
# Card info

The card info format of `cores/cms.rs`: its data model and the two parsers, `CardInfoItem::try_from`
for one item and `CardInfo::try_from` for a whole response. Indexing and slicing panic out of range,
as they do in the source, so the second parser ends in an `Outcome`.
-/

namespace Warpshell.Cms
open Interaction

/-! ## Data model -/

/-- Item keys (Rust `CardInfoKey`). -/
inductive CardInfoKey where
  | serialNumber
  | macAddress0
  | macAddress1
  | macAddress2
  | macAddress3
  | cardRev
  | cardName
  | satelliteVersion
  | totalPowerAvail
  | fanPresence
  | configMode
  | newMacScheme
  | cageType0
  | cageType1
  | cageType2
  | cageType3
  deriving DecidableEq, Repr

def CardInfoKey.toByte : CardInfoKey → UInt8
  | .serialNumber => 0x21
  | .macAddress0 => 0x22
  | .macAddress1 => 0x23
  | .macAddress2 => 0x24
  | .macAddress3 => 0x25
  | .cardRev => 0x26
  | .cardName => 0x27
  | .satelliteVersion => 0x28
  | .totalPowerAvail => 0x29
  | .fanPresence => 0x2a
  | .configMode => 0x2b
  | .newMacScheme => 0x4b
  | .cageType0 => 0x50
  | .cageType1 => 0x51
  | .cageType2 => 0x52
  | .cageType3 => 0x53

/-- The key of a byte, or the byte itself as the error (Rust `TryFromPrimitiveError`). -/
def CardInfoKey.tryFromPrimitive : UInt8 → Except UInt8 CardInfoKey
  | 0x21 => .ok .serialNumber
  | 0x22 => .ok .macAddress0
  | 0x23 => .ok .macAddress1
  | 0x24 => .ok .macAddress2
  | 0x25 => .ok .macAddress3
  | 0x26 => .ok .cardRev
  | 0x27 => .ok .cardName
  | 0x28 => .ok .satelliteVersion
  | 0x29 => .ok .totalPowerAvail
  | 0x2a => .ok .fanPresence
  | 0x2b => .ok .configMode
  | 0x4b => .ok .newMacScheme
  | 0x50 => .ok .cageType0
  | 0x51 => .ok .cageType1
  | 0x52 => .ok .cageType2
  | 0x53 => .ok .cageType3
  | b => .error b

/-- A byte string (Rust `ByteString`). -/
structure ByteString where
  bytes : List UInt8
  deriving DecidableEq, Repr

/-- A MAC address in text form (Rust `OldMacAddress`). -/
structure OldMacAddress where
  text : Bytes 16
  deriving DecidableEq, Repr

/-- A MAC address (Rust `MacAddress`). -/
structure MacAddress where
  octets : Bytes 6
  deriving DecidableEq, Repr

/-- Total power available (Rust `TotalPowerAvail`). -/
inductive TotalPowerAvail where
  | power75W
  | power150W
  | power225W
  | power300W
  deriving DecidableEq, Repr

def TotalPowerAvail.tryFromPrimitive : UInt8 → Except UInt8 TotalPowerAvail
  | 0 => .ok .power75W
  | 1 => .ok .power150W
  | 2 => .ok .power225W
  | 3 => .ok .power300W
  | b => .error b

/-- Configuration modes (Rust `ConfigMode`). -/
inductive ConfigMode where
  | slaveSerialX1
  | slaveSelectMapX8
  | slaveMapX16
  | slaveSelectMapX32
  | jtagBoudaryScanX1
  | masterSpiX1
  | masterSpiX2
  | masterSpiX4
  | masterSpiX8
  | masterSpiX16
  | masterSerialX1
  | masterSelectMapX8
  | masterSelectMapX16
  deriving DecidableEq, Repr

def ConfigMode.tryFromPrimitive : UInt8 → Except UInt8 ConfigMode
  | 0 => .ok .slaveSerialX1
  | 1 => .ok .slaveSelectMapX8
  | 2 => .ok .slaveMapX16
  | 3 => .ok .slaveSelectMapX32
  | 4 => .ok .jtagBoudaryScanX1
  | 5 => .ok .masterSpiX1
  | 6 => .ok .masterSpiX2
  | 7 => .ok .masterSpiX4
  | 8 => .ok .masterSpiX8
  | 9 => .ok .masterSpiX16
  | 10 => .ok .masterSerialX1
  | 11 => .ok .masterSelectMapX8
  | 12 => .ok .masterSelectMapX16
  | b => .error b

/-- Cage types (Rust `CageType`). -/
inductive CageType where
  | qsfp
  | dsfp
  | sfp
  deriving DecidableEq, Repr

def CageType.tryFromPrimitive : UInt8 → Except UInt8 CageType
  | 0 => .ok .qsfp
  | 1 => .ok .dsfp
  | 2 => .ok .sfp
  | b => .error b

/-- Items of a card info (Rust `CardInfoItem`). -/
inductive CardInfoItem where
  | serialNumber (s : ByteString)
  | macAddress0 (mac : OldMacAddress)
  | macAddress1 (mac : OldMacAddress)
  | macAddress2 (mac : OldMacAddress)
  | macAddress3 (mac : OldMacAddress)
  | cardRev (s : ByteString)
  | cardName (s : ByteString)
  | satelliteVersion (s : ByteString)
  | totalPowerAvail (power : TotalPowerAvail)
  | fanPresence (c : Char)
  | configMode (mode : ConfigMode)
  | newMacScheme (numAddresses : UInt8) (mac : MacAddress)
  | cageType0 (cage : CageType)
  | cageType1 (cage : CageType)
  | cageType2 (cage : CageType)
  | cageType3 (cage : CageType)
  deriving DecidableEq, Repr

/-- A card info (Rust `CardInfo`). -/
structure CardInfo where
  items : List CardInfoItem
  deriving DecidableEq, Repr

/-- Errors of the item parser (Rust `CardInfoItemParseError`); the conversion errors carry the
    offending byte. -/
inductive CardInfoItemParseError where
  | incompleteInput
  | incorrectLength
  | nonNullTerminator
  | cardInfoKey (number : UInt8)
  | totalPowerAvail (number : UInt8)
  | configMode (number : UInt8)
  | cageType (number : UInt8)
  deriving DecidableEq, Repr

/-- Errors of the card info parser (Rust `CardInfoParseError`). -/
inductive CardInfoParseError where
  | cardInfoItem (err : CardInfoItemParseError)
  | itemLengthOutOfBounds
  deriving DecidableEq, Repr

/-! ## The item parser -/

namespace CardInfoItem

/-- A parser step: consumes from the iterator, or fails. -/
abbrev Parse (α : Type) : Type := List UInt8 → Except CardInfoItemParseError (α × List UInt8)

def next : Parse UInt8
  | [] => .error .incompleteInput
  | b :: iter => .ok (b, iter)

/-- The next `n` bytes, pushed one by one. -/
def nextN : Nat → Parse (List UInt8)
  | 0, iter => .ok ([], iter)
  | n + 1, iter => do
    let (b, iter) ← next iter
    let (v, iter) ← nextN n iter
    .ok (b :: v, iter)

/-- `len - 1` bytes and the NUL that ends them. -/
def nulTerminated (len : Nat) : Parse (List UInt8) := fun iter => do
  let (v, iter) ← nextN (len - 1) iter
  let (b, iter) ← next iter
  if b != 0 then .error .nonNullTerminator else .ok (v, iter)

def stringPayload (len : Nat) : Parse ByteString := fun iter =>
  if len = 0 then .error .incorrectLength
  else do
    let (v, iter) ← nulTerminated len iter
    .ok (⟨v⟩, iter)

/-- `v.try_into()` for a byte array of length `n`. -/
def tryIntoArray (n : Nat) (v : List UInt8) : Except CardInfoItemParseError (Bytes n) :=
  if h : v.length = n then .ok ⟨v, h⟩ else .error .incorrectLength

def oldMacPayload (len : Nat) : Parse OldMacAddress := fun iter =>
  if len ≠ 18 then .error .incorrectLength
  else do
    let (v, iter) ← nulTerminated len iter
    let mac ← tryIntoArray 16 v
    .ok (⟨mac⟩, iter)

/-- A payload of one byte, converted by `conv`. -/
def bytePayload {α : Type} (conv : UInt8 → Except CardInfoItemParseError α) (len : Nat) :
    Parse α := fun iter =>
  if len ≠ 1 then .error .incorrectLength
  else do
    let (b, iter) ← next iter
    let a ← conv b
    .ok (a, iter)

/-- The payload of a new MAC scheme item: a count, a reserved byte, and the address. -/
def newMacPayload (len : Nat) : Parse (UInt8 × MacAddress) := fun iter =>
  if len ≠ 8 then .error .incorrectLength
  else do
    let (numAddresses, iter) ← next iter
    let (_, iter) ← next iter
    let (v, iter) ← nextN 6 iter
    let mac ← tryIntoArray 6 v
    .ok ((numAddresses, ⟨mac⟩), iter)

/-- `CageType::try_from_primitive`, with its error converted. -/
def cageType (b : UInt8) : Except CardInfoItemParseError CageType :=
  (CageType.tryFromPrimitive b).mapError .cageType

def payload (key : CardInfoKey) (len : Nat) (iter : List UInt8) :
    Except CardInfoItemParseError CardInfoItem :=
  match key with
  | .serialNumber => do let (s, _) ← stringPayload len iter; .ok (.serialNumber s)
  | .macAddress0 => do let (mac, _) ← oldMacPayload len iter; .ok (.macAddress0 mac)
  | .macAddress1 => do let (mac, _) ← oldMacPayload len iter; .ok (.macAddress1 mac)
  | .macAddress2 => do let (mac, _) ← oldMacPayload len iter; .ok (.macAddress2 mac)
  | .macAddress3 => do let (mac, _) ← oldMacPayload len iter; .ok (.macAddress3 mac)
  | .cardRev => do let (s, _) ← stringPayload len iter; .ok (.cardRev s)
  | .cardName => do let (s, _) ← stringPayload len iter; .ok (.cardName s)
  | .satelliteVersion => do let (s, _) ← stringPayload len iter; .ok (.satelliteVersion s)
  | .totalPowerAvail => do
    let conv b := (TotalPowerAvail.tryFromPrimitive b).mapError .totalPowerAvail
    let (power, _) ← bytePayload conv len iter
    .ok (.totalPowerAvail power)
  | .fanPresence => do
    let (c, _) ← bytePayload (fun b => .ok (Char.ofNat b.toNat)) len iter
    .ok (.fanPresence c)
  | .configMode => do
    let conv b := (ConfigMode.tryFromPrimitive b).mapError .configMode
    let (mode, _) ← bytePayload conv len iter
    .ok (.configMode mode)
  | .newMacScheme => do
    let ((numAddresses, mac), _) ← newMacPayload len iter
    .ok (.newMacScheme numAddresses mac)
  | .cageType0 => do let (cage, _) ← bytePayload cageType len iter; .ok (.cageType0 cage)
  | .cageType1 => do let (cage, _) ← bytePayload cageType len iter; .ok (.cageType1 cage)
  | .cageType2 => do let (cage, _) ← bytePayload cageType len iter; .ok (.cageType2 cage)
  | .cageType3 => do let (cage, _) ← bytePayload cageType len iter; .ok (.cageType3 cage)

/-- Parses one item (Rust `CardInfoItem::try_from`). -/
def tryFrom (input : List UInt8) : Except CardInfoItemParseError CardInfoItem := do
  let (b, iter) ← next input
  let key ← (CardInfoKey.tryFromPrimitive b).mapError .cardInfoKey
  let (len, iter) ← next iter
  payload key len.toNat iter

end CardInfoItem

/-! ## The card info parser -/

namespace CardInfo

/-- `input[i]`. -/
def index (input : List UInt8) (i : Nat) : Outcome CardInfoParseError UInt8 :=
  match input[i]? with
  | some b => .ok b
  | none => .panic

/-- `&input[start..stop]`. -/
def slice (input : List UInt8) (start stop : Nat) : Outcome CardInfoParseError (List UInt8) :=
  if start ≤ stop ∧ stop ≤ input.length then .ok ((input.take stop).drop start) else .panic

/-- The loop of `CardInfo::try_from`. -/
def tryFromLoop (input : List UInt8) (parsedLen : Nat) (items : List CardInfoItem) :
    Outcome CardInfoParseError CardInfo :=
  if _h : parsedLen + 2 < input.length then do
    let itemLen ← index input (parsedLen + 1)
    let toParseLen := itemLen.toNat + 2
    let nextItemPos := parsedLen + toParseLen
    if nextItemPos - 1 > input.length then .err .itemLengthOutOfBounds
    else do
      let bytes ← slice input parsedLen nextItemPos
      let item ← (Outcome.ofExcept (CardInfoItem.tryFrom bytes)).mapErr .cardInfoItem
      tryFromLoop input (parsedLen + toParseLen) (items ++ [item])
  else .ok ⟨items⟩
termination_by input.length - parsedLen
decreasing_by omega

/-- Parses a card info (Rust `CardInfo::try_from`). -/
def tryFrom (input : List UInt8) : Outcome CardInfoParseError CardInfo := tryFromLoop input 0 []

end CardInfo

end Warpshell.Cms
