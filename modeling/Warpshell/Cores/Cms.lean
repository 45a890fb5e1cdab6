import Warpshell.Cores.CardInfo

/-!
# Card management system

The operations `CmsOps` of `cores/cms.rs` on the registers and the mailbox of the core.
-/

namespace Warpshell.Cms
open Interaction

/-- The only register map supported (Rust `SUPPORTED_REG_MAP_ID`). -/
def supportedRegMapId : UInt32 := 0x74736574

/-- Errors of the core (Rust `cms::Error`). -/
inductive Error where
  | basedError (err : BasedError)
  | hostStatusNotReady
  | unsupportedRegMapId (id : UInt32)
  | mailboxNotAvailable
  | cmsRegMaskNotAsExpected
  | hostMsgError (err : UInt32)
  | cardInfoParseError (err : CardInfoParseError)
  deriving DecidableEq, Repr

/-- The registers that the operations below use (Rust `CmsReg`). -/
inductive CmsReg where
  | microblazeResetN
  | regMapId
  | control
  | hostMsgOffset
  | hostMsgError
  | hostStatus
  deriving DecidableEq, Repr

def CmsReg.offset : CmsReg → Nat
  | .microblazeResetN => 0x20000
  | .regMapId => 0x28000
  | .control => 0x28018
  | .hostMsgOffset => 0x28300
  | .hostMsgError => 0x28304
  | .hostStatus => 0x2830c

/-- Control register bits (Rust `ControlRegBit`). -/
inductive ControlRegBit where
  | maxAgvValuesReset
  | errorRegReset
  | mailboxStatus
  | microblazeReset
  | qsfpGpioEnable
  | hbmTempMonitorEnable
  deriving DecidableEq, Repr

def ControlRegBit.mask : ControlRegBit → UInt32
  | .maxAgvValuesReset => 1
  | .errorRegReset => (1 : UInt32) <<< 1
  | .mailboxStatus => (1 : UInt32) <<< 5
  | .microblazeReset => (1 : UInt32) <<< 6
  | .qsfpGpioEnable => (1 : UInt32) <<< 26
  | .hbmTempMonitorEnable => (1 : UInt32) <<< 27

/-- Mailbox message opcodes (Rust `MailboxMsgOpcode`). -/
inductive MailboxMsgOpcode where
  | cardInfo
  deriving DecidableEq, Repr

def MailboxMsgOpcode.code : MailboxMsgOpcode → UInt32
  | .cardInfo => 4

/-- The header word of a card info request. -/
def cardInfoRequest : UInt32 := MailboxMsgOpcode.cardInfo.code <<< 24

def getCmsReg (core : BaseParam) (reg : CmsReg) : Driver Error UInt32 :=
  (basedCtrlReadU32 core reg.offset).mapErr .basedError

def setCmsReg (core : BaseParam) (reg : CmsReg) (value : UInt32) : Driver Error Unit :=
  (basedCtrlWriteU32 core reg.offset value).mapErr .basedError

def getCmsControlReg (core : BaseParam) : Driver Error UInt32 := getCmsReg core .control

def setCmsControlReg (core : BaseParam) (value : UInt32) : Driver Error Unit :=
  setCmsReg core .control value

/-- Waits roughly `ms` milliseconds for the host status to be ready, polling every millisecond. -/
def expectReadyHostStatus (core : BaseParam) (ms : Nat) : Driver Error Nat :=
  (pollRegMaskSleep core CmsReg.hostStatus.offset 1 1 ms (Duration.fromMillis 1)).mapErr
    fun _ => .hostStatusNotReady

def getRegMapId (core : BaseParam) : Driver Error UInt32 := getCmsReg core .regMapId

/-- Sets a bit of the control register, keeping the others as they were read. -/
def setControlBit (core : BaseParam) (bit : ControlRegBit) : Driver Error Unit := do
  let v ← getCmsControlReg core
  setCmsControlReg core (v ||| bit.mask)

def enableHbmTempMonitoring (core : BaseParam) : Driver Error Unit :=
  setControlBit core .hbmTempMonitorEnable

/-- Resets stored max and average sensor readings. -/
def resetSensorMaxAvg (core : BaseParam) : Driver Error Unit :=
  setControlBit core .maxAgvValuesReset

/-- Initialises the card management system. -/
def init (core : BaseParam) : Driver Error Unit := do
  setCmsReg core .microblazeResetN 1
  let _ ← expectReadyHostStatus core 1000
  let v ← getRegMapId core
  if v ≠ supportedRegMapId then .throw (.unsupportedRegMapId v)
  else enableHbmTempMonitoring core

/-- Gets the mailbox offset from the base address. -/
def getMailboxOffset (core : BaseParam) : Driver Error Nat := do
  let control ← getCmsControlReg core
  if 0 ≠ control &&& ControlRegBit.mailboxStatus.mask then .throw .mailboxNotAvailable
  else do
    let v ← getCmsReg core .hostMsgOffset
    pure (0x28000 + v.toNat)

/-- The word loop of `get_card_info`: reads the words at `mboxOffset + dataOffset` and on, until no
    byte remains. -/
def readInfoBytes (core : BaseParam) (mboxOffset : Nat) (dataOffset : Nat) (remaining : Int)
    (infoBytes : List UInt8) : Driver Error (List UInt8) :=
  if _h : remaining > 0 then do
    let w ← (basedCtrlReadU32 core (mboxOffset + dataOffset)).mapErr .basedError
    let numBytes := (min remaining 4).toNat
    readInfoBytes core mboxOffset (dataOffset + 4) (remaining - 4)
      (infoBytes ++ (toLeBytes w).take numBytes)
  else pure infoBytes
termination_by remaining.toNat
decreasing_by omega

def getCardInfo (core : BaseParam) : Driver Error CardInfo := do
  let mboxOffset ← getMailboxOffset core
  (basedCtrlWriteU32 core mboxOffset cardInfoRequest).mapErr .basedError
  let control ← getCmsControlReg core
  setCmsControlReg core (control ||| ControlRegBit.mailboxStatus.mask)
  let _ ← (pollRegMaskSleep core CmsReg.control.offset ControlRegBit.mailboxStatus.mask 0 100
    (Duration.fromMillis 10)).mapErr .basedError
  let error ← getCmsReg core .hostMsgError
  if error ≠ 0 then .throw (.hostMsgError error)
  else do
    let header ← (basedCtrlReadU32 core mboxOffset).mapErr .basedError
    let len := header &&& 0xfff
    let infoBytes ← readInfoBytes core mboxOffset 4 len.toNat []
    .ofOutcome ((CardInfo.tryFrom infoBytes).mapErr .cardInfoParseError)

end Warpshell.Cms
