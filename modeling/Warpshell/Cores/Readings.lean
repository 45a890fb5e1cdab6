import Warpshell.Cores.Cms

/-!
# Readings

The registers of the card management system that are only ever read: the sensors and a few words about
the firmware. Together with the registers that the operations use, they are the `CmsReg` of
`cores/cms.rs`.
-/

namespace Warpshell.Cms
open Interaction

/-- The other CMS registers (Rust `CmsReg`). -/
inductive Reading where
  | fwVersion | cmsStatus | error | profileName | pex12VMax | pex12VAvg | pex12VInst | pex3V3Max
  | pex3V3Avg | pex3V3Inst | aux12VMax | aux12VAvg | aux12VInst | sys5V5Max | sys5V5Avg
  | sys5V5Inst | vcc1V8Max | vcc1V8Avg | vcc1V8Inst | mgt0V9AVccMax | mgt0V9AVccAvg
  | mgt0V9AVccInst | mgtAVttMax | mgtAVttAvg | mgtAVttInst | pex12VCurrentInMax
  | pex12VCurrentInAvg | pex12VCurrentInInst | aux12VCurrentInMax | aux12VCurrentInAvg
  | aux12VCurrentInInst | vccIntMax | vccIntAvg | vccIntInst | vccIntCurrentMax
  | vccIntCurrentAvg | vccIntCurrentInst | fpgaTempMax | fpgaTempAvg | fpgaTempInst | hbm0TempMax
  | hbm0TempAvg | hbm0TempInst | vcc3V3Max | vcc3V3Avg | vcc3V3Inst | pex3V3CurrentInMax
  | pex3V3CurrentInAvg | pex3V3CurrentInInst | vccIntIoCurrentMax | vccIntIoCurrentAvg
  | vccIntIoCurrentInst | hbm1TempMax | hbm1TempAvg | hbm1TempInst | vccIntTempMax
  | vccIntTempAvg | vccIntTempInst
  deriving DecidableEq, Repr

def Reading.offset : Reading → Nat
  | .fwVersion => 0x28004
  | .cmsStatus => 0x28008
  | .error => 0x2800c
  | .profileName => 0x28014
  | .pex12VMax => 0x28020
  | .pex12VAvg => 0x28024
  | .pex12VInst => 0x28028
  | .pex3V3Max => 0x2802c
  | .pex3V3Avg => 0x28030
  | .pex3V3Inst => 0x28034
  | .aux12VMax => 0x28044
  | .aux12VAvg => 0x28048
  | .aux12VInst => 0x2804c
  | .sys5V5Max => 0x2805c
  | .sys5V5Avg => 0x28060
  | .sys5V5Inst => 0x28064
  | .vcc1V8Max => 0x28074
  | .vcc1V8Avg => 0x28078
  | .vcc1V8Inst => 0x2807c
  | .mgt0V9AVccMax => 0x28098
  | .mgt0V9AVccAvg => 0x2809c
  | .mgt0V9AVccInst => 0x280a0
  | .mgtAVttMax => 0x280b0
  | .mgtAVttAvg => 0x280b4
  | .mgtAVttInst => 0x280b8
  | .pex12VCurrentInMax => 0x280c8
  | .pex12VCurrentInAvg => 0x280cc
  | .pex12VCurrentInInst => 0x280d0
  | .aux12VCurrentInMax => 0x280d4
  | .aux12VCurrentInAvg => 0x280d8
  | .aux12VCurrentInInst => 0x280dc
  | .vccIntMax => 0x280e0
  | .vccIntAvg => 0x280e4
  | .vccIntInst => 0x280e8
  | .vccIntCurrentMax => 0x280ec
  | .vccIntCurrentAvg => 0x280f0
  | .vccIntCurrentInst => 0x280f4
  | .fpgaTempMax => 0x280f8
  | .fpgaTempAvg => 0x280fc
  | .fpgaTempInst => 0x28100
  | .hbm0TempMax => 0x28260
  | .hbm0TempAvg => 0x28264
  | .hbm0TempInst => 0x28268
  | .vcc3V3Max => 0x2826c
  | .vcc3V3Avg => 0x28270
  | .vcc3V3Inst => 0x28274
  | .pex3V3CurrentInMax => 0x28278
  | .pex3V3CurrentInAvg => 0x2827c
  | .pex3V3CurrentInInst => 0x28280
  | .vccIntIoCurrentMax => 0x28284
  | .vccIntIoCurrentAvg => 0x28288
  | .vccIntIoCurrentInst => 0x2828c
  | .hbm1TempMax => 0x282b4
  | .hbm1TempAvg => 0x282b8
  | .hbm1TempInst => 0x282bc
  | .vccIntTempMax => 0x282cc
  | .vccIntTempAvg => 0x282d0
  | .vccIntTempInst => 0x282d4

/-- Reads the value in a given CMS register (Rust `get_cms_reg`). -/
def getReading (core : BaseParam) (reading : Reading) : Driver Error UInt32 :=
  (basedCtrlReadU32 core reading.offset).mapErr .basedError

end Warpshell.Cms
