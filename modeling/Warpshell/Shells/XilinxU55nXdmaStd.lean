import Warpshell.Cores.AxiFirewall
import Warpshell.Cores.Cms
import Warpshell.Cores.DfxDecoupler
import Warpshell.Cores.Hbicap

/-!
# Xilinx U55N standard shell

The cores of `shells/xilinx_u55n_xdma_std.rs` at their base addresses, and the operations of the
shell that involve several of them.
-/

namespace Warpshell.U55n
open Interaction

/-- Errors of a shell (Rust `shells::Error`). -/
inductive Error where
  | xdmaError (err : XdmaError)
  | basedError (err : BasedError)
  | cms (err : Cms.Error)
  | hbicapNotReady
  | hbicap (err : Hbicap.Error)
  | dfxDecoupler (err : DfxDecoupler.Error)
  | axiFirewall (err : AxiFirewall.Error)
  deriving DecidableEq, Repr

/-- CMS core instance. -/
def cms : BaseParam := ⟨0x04000000⟩

/-- HBM core instance. -/
def hbm : BaseParam := ⟨0⟩

/-- Control channel AXI firewall instance. -/
def ctrlAxiFirewall : BaseParam := ⟨0x04070000⟩
/-- DMA channel AXI firewall instance. -/
def dmaAxiFirewall : BaseParam := ⟨0x04080000⟩
/-- HBICAP instance. -/
def hbicap : Hbicap.HbicapIf := ⟨⟨0x04050000⟩, ⟨0x1000000000000000⟩⟩

/-- DFX decoupler instance. -/
def dfxDecoupler : BaseParam := ⟨0x04090000⟩

def init : Driver Error Unit := (Cms.init cms).mapErr .cms

/-- The first part of `program_user_image`: waits for the port to be idle, and aborts what it is
    doing if it is not. -/
def awaitIdle (debug : Bool) : Driver Error Unit := do
  match ← (Hbicap.pollDoneEvery10ms hbicap (Duration.fromSecs 10)).attempt with
  | .error (.basedError (.regMaskNotAsExpected _ _ _)) =>
    (Hbicap.abort debug hbicap).mapErr .hbicap
  | .error e => .throw (.hbicap e)
  | .ok _ => pure ()

/-- Programs a user image behind blocked firewalls. -/
def programUserImage (debug : Bool) (image : List UInt8) : Driver Error Unit := do
  awaitIdle debug
  (AxiFirewall.blockMi ctrlAxiFirewall).mapErr .axiFirewall
  (AxiFirewall.blockMi dmaAxiFirewall).mapErr .axiFirewall
  (Hbicap.writeBitstream hbicap image).mapErr .hbicap
  let _ ← (Hbicap.pollDoneEvery10ms hbicap (Duration.fromSecs 10)).mapErr .hbicap
  (AxiFirewall.unblockMi dmaAxiFirewall).mapErr .axiFirewall
  (AxiFirewall.unblockMi ctrlAxiFirewall).mapErr .axiFirewall

end Warpshell.U55n
