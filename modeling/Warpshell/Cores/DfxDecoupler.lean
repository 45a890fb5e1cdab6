import Warpshell.Base

/-!
# DFX decoupler

The operations of `cores/dfx_decoupler.rs`.
-/

namespace Warpshell.DfxDecoupler
open Interaction

/-- Errors of the core (Rust `dfx_decoupler::Error`). -/
inductive Error where
  | basedError (err : BasedError)
  deriving DecidableEq, Repr

/-- DFX decoupler registers (Rust `DfxDecouplerReg`). -/
inductive Reg where
  | control
  deriving DecidableEq, Repr

def Reg.offset : Reg → Nat
  | .control => 0

/-- Control register bits (Rust `ControlRegBit`). -/
inductive ControlRegBit where
  | en
  deriving DecidableEq, Repr

def ControlRegBit.mask : ControlRegBit → UInt32
  | .en => 1

/-- Checks whether decoupling is enabled. -/
def isEnabled (core : BaseParam) : Driver Error Bool := do
  let en := ControlRegBit.en.mask
  let v ← (basedCtrlReadU32 core Reg.control.offset).mapErr .basedError
  pure (v &&& en == en)

def enable (core : BaseParam) : Driver Error Unit := do
  let en := ControlRegBit.en.mask
  let v ← (basedCtrlReadU32 core Reg.control.offset).mapErr .basedError
  (basedCtrlWriteU32 core Reg.control.offset (v ||| en)).mapErr .basedError

def disable (core : BaseParam) : Driver Error Unit := do
  let en := ControlRegBit.en.mask
  let v ← (basedCtrlReadU32 core Reg.control.offset).mapErr .basedError
  (basedCtrlWriteU32 core Reg.control.offset ((v ||| en) ^^^ en)).mapErr .basedError

end Warpshell.DfxDecoupler
