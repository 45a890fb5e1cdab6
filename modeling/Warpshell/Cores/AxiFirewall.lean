import Warpshell.Base

/-!
# AXI firewall

The operations of `cores/axi_firewall.rs`.
-/

namespace Warpshell.AxiFirewall
open Interaction

/-- The soft-fault value that blocks the MI side (Rust `MI_BLOCK_MASK`). -/
def miBlockMask : UInt32 := 0x01000100

/-- Errors of the core (Rust `axi_firewall::Error`). -/
inductive Error where
  | basedError (err : BasedError)
  deriving DecidableEq, Repr

/-- AXI firewall registers (Rust `AxiFirewallReg`). -/
inductive Reg where
  | miSideFaultStatus
  | miSideSoftFaultControl
  | miSideUnblockControl
  | ipVersion
  | siSideFaultStatus
  | siSideSoftFaultControl
  | siSideUnblockControl
  deriving DecidableEq, Repr

def Reg.offset : Reg → Nat
  | .miSideFaultStatus => 0x0
  | .miSideSoftFaultControl => 0x4
  | .miSideUnblockControl => 0x8
  | .ipVersion => 0x10
  | .siSideFaultStatus => 0x100
  | .siSideSoftFaultControl => 0x104
  | .siSideUnblockControl => 0x108

def getAxiFirewallReg (core : BaseParam) (reg : Reg) : Driver Error UInt32 :=
  (basedCtrlReadU32 core reg.offset).mapErr .basedError

def setAxiFirewallReg (core : BaseParam) (reg : Reg) (value : UInt32) : Driver Error Unit :=
  (basedCtrlWriteU32 core reg.offset value).mapErr .basedError

def getMiFaultStatus (core : BaseParam) : Driver Error UInt32 :=
  getAxiFirewallReg core .miSideFaultStatus

def miIsBlocked (core : BaseParam) : Driver Error Bool := do
  let status ← getMiFaultStatus core
  pure (status != 0)

def blockMi (core : BaseParam) : Driver Error Unit :=
  setAxiFirewallReg core .miSideSoftFaultControl miBlockMask

def unblockMi (core : BaseParam) : Driver Error Unit := do
  setAxiFirewallReg core .miSideSoftFaultControl 0
  setAxiFirewallReg core .miSideUnblockControl 1

def getIpVersion (core : BaseParam) : Driver Error UInt32 :=
  getAxiFirewallReg core .ipVersion

end Warpshell.AxiFirewall
