import Warpshell.Cores.Readings
import Warpshell.Interaction.Parallel
import Warpshell.Mailbox.Window

/-!
# Calls beside a reprogramming

The calls that a process may make while another one reprograms the card: everything the cores offer
apart from configuration and from moving the firewalls. As long as the card keeps to the documented
range of HostMsgOffset, none of them writes to the configuration port or to a firewall (`task_only`),
and so no client that is made of them does.
-/

namespace Warpshell.U55n
open Interaction Cms

/-- The range of the HBM behind the DMA channel (`M_AXI` of `xdma_gen3x8/shell.bd`). -/
def hbmRange : Nat := 256 * 1024 * 1024 * 1024 * 1024

/-- Calls of the cores that take no part in a reprogramming. -/
inductive Task where
  | init
  | getCardInfo
  | resetSensorMaxAvg
  | getReading (reading : Reading)
  | decouplerIsEnabled
  | decouplerEnable
  | decouplerDisable
  | miIsBlocked (core : BaseParam)
  | getIpVersion (core : BaseParam)
  | isReady
  | hbmRead (len offset : Nat)
  | hbmWrite (buf : List UInt8) (offset : Nat) (fits : offset + buf.length ≤ hbmRange)

/-- What a call returns. -/
abbrev Task.Res : Task → Type
  | .init => Outcome Cms.Error Unit
  | .getCardInfo => Outcome Cms.Error CardInfo
  | .resetSensorMaxAvg => Outcome Cms.Error Unit
  | .getReading _ => Outcome Cms.Error UInt32
  | .decouplerIsEnabled => Outcome DfxDecoupler.Error Bool
  | .decouplerEnable => Outcome DfxDecoupler.Error Unit
  | .decouplerDisable => Outcome DfxDecoupler.Error Unit
  | .miIsBlocked _ => Outcome AxiFirewall.Error Bool
  | .getIpVersion _ => Outcome AxiFirewall.Error UInt32
  | .isReady => Outcome Hbicap.Error Bool
  | .hbmRead len _ => Outcome BasedError (Bytes len)
  | .hbmWrite _ _ _ => Outcome BasedError Unit

def Task.prog : (task : Task) → Prog Access Access.Answer task.Res
  | .init => Cms.init cms
  | .getCardInfo => Cms.getCardInfo cms
  | .resetSensorMaxAvg => Cms.resetSensorMaxAvg cms
  | .getReading reading => Cms.getReading cms reading
  | .decouplerIsEnabled => DfxDecoupler.isEnabled dfxDecoupler
  | .decouplerEnable => DfxDecoupler.enable dfxDecoupler
  | .decouplerDisable => DfxDecoupler.disable dfxDecoupler
  | .miIsBlocked core => AxiFirewall.miIsBlocked core
  | .getIpVersion core => AxiFirewall.getIpVersion core
  | .isReady => Hbicap.isReady hbicap
  | .hbmRead len offset => basedDmaRead hbm len offset
  | .hbmWrite buf offset _ => basedDmaWrite hbm buf offset

/-- The access changes neither the configuration port nor a firewall. -/
def Apart : Access → Prop
  | .ctrlReadU32 _ => True
  | .ctrlWriteU32 addr v =>
    ∀ p ∈ [Peripheral.hbicap, .ctrlFirewall, .dmaFirewall], ¬ Touches p (.ctrlWriteU32 addr v)
  | .dmaRead _ _ => True
  | .dmaWrite addr buf => addr + buf.length ≤ hbicap.dmaIf.baseAddr

/-- The card keeps to the documented range of HostMsgOffset. -/
def OffsetValid (ev : CardEvent) : Prop := ∀ v, ev = offsetRead v → ValidOffset v

section
variable {t : List CardEvent} {e : Access}

/-- A failed access says nothing about HostMsgOffset. -/
lemma offsetValid_error (e : Access) : ∃ r, OffsetValid ⟨e, r⟩ := by
  let err : BasedError := .xdmaError (.ctrlReadFailed (.os 5))
  cases e with
  | ctrlReadU32 addr =>
    refine ⟨.error err, fun v eq => ?_⟩
    cases eq
  | ctrlWriteU32 addr w =>
    refine ⟨.error err, fun v eq => ?_⟩
    cases eq
  | dmaRead addr len =>
    refine ⟨.error err, fun v eq => ?_⟩
    cases eq
  | dmaWrite addr buf =>
    refine ⟨.error err, fun v eq => ?_⟩
    cases eq

/-- The register accesses of another core are apart. -/
lemma Within.apart {p : Peripheral} (within : Within p e)
    (other : p ∉ [Peripheral.hbicap, .ctrlFirewall, .dmaFirewall]) : Apart e := by
  cases e with
  | ctrlReadU32 addr => trivial
  | ctrlWriteU32 addr v =>
    intro q mem
    exact within.untouched fun eq => other (eq ▸ mem)
  | dmaRead addr len => trivial
  | dmaWrite addr buf => exact within.elim

/-- On a card that keeps to the documented range, `get_card_info` stays within its segment. -/
lemma run_getCardInfo_within {o : Outcome Cms.Error CardInfo} (run : Run (Cms.getCardInfo cms) t o)
    (valid : ∀ ev ∈ t, OffsetValid ev) : ∀ ev ∈ t, Within .cms ev.1 := by
  have control : Within .cms (.ctrlReadU32 (cms.baseAddr + CmsReg.control.offset)) := by decide
  have offset : Within .cms (.ctrlReadU32 (cms.baseAddr + CmsReg.hostMsgOffset.offset)) := by decide
  obtain ⟨c, v, r, rest, rfl, visits⟩ | reads := run_getCardInfo run
  · have fine : ValidOffset v := valid (offsetRead v) (by simp [offsetRead]) v rfl
    have header : Visits cms (0x28000 + v.toNat)
        (.ctrlWriteU32 (cms.baseAddr + (0x28000 + v.toNat)) cardInfoRequest) :=
      ⟨_, .inr (.inr ⟨0, Nat.zero_le _, rfl⟩), .inr ⟨_, rfl⟩⟩
    refine List.forall_mem_cons.mpr ⟨control, List.forall_mem_cons.mpr ⟨offset, ?_⟩⟩
    refine List.forall_mem_cons.mpr ⟨visits_within fine header, fun ev mem => ?_⟩
    exact visits_within fine (visits ev mem)
  · intro ev mem
    obtain eq | ⟨e, rfl⟩ := reads ev mem
    · rw [eq]
      exact control
    · exact offset

/-! ## The calls -/

/-- A register read is apart. -/
lemma only_read {core : BaseParam} {offset : Nat} {ε : Type} {f : BasedError → ε} :
    Only OffsetValid Apart ((basedCtrlReadU32 core offset).mapErr f : Driver ε UInt32) :=
  Io.only_mapErr (Only.bind (only_access trivial) fun _ => only_ret)

/-- A register write is apart if its access is. -/
lemma only_write {core : BaseParam} {offset : Nat} {v : UInt32} {ε : Type} {f : BasedError → ε}
    (apart : Apart (.ctrlWriteU32 (core.baseAddr + offset) v)) :
    Only OffsetValid Apart ((basedCtrlWriteU32 core offset v).mapErr f : Driver ε Unit) :=
  Io.only_mapErr (Only.bind (only_access apart) fun _ => only_ret)

/-- The registers of the CMS are apart. -/
lemma apart_cms (reg : CmsReg) {v : UInt32} :
    Apart (.ctrlWriteU32 (cms.baseAddr + reg.offset) v) := by
  have within : Within .cms (.ctrlWriteU32 (cms.baseAddr + reg.offset) v) := by
    cases reg <;> exact ⟨by decide, by decide⟩
  exact within.apart (by decide)

/-- The register of the decoupler is apart. -/
lemma apart_dfxDecoupler {v : UInt32} :
    Apart (.ctrlWriteU32 (dfxDecoupler.baseAddr + DfxDecoupler.Reg.control.offset) v) := by
  have within : Within .dfxDecoupler
      (.ctrlWriteU32 (dfxDecoupler.baseAddr + DfxDecoupler.Reg.control.offset) v) :=
    ⟨by decide, by decide⟩
  exact within.apart (by decide)

/-- Setting a bit of the CMS is apart. -/
lemma only_setControlBit {bit : Cms.ControlRegBit} :
    Only OffsetValid Apart (setControlBit cms bit) :=
  Io.only_seq only_read fun _ => only_write (apart_cms .control)

/-- The initialisation of the CMS is apart. -/
lemma only_init : Only OffsetValid Apart (Cms.init cms) := by
  refine Io.only_seq (only_write (apart_cms .microblazeResetN)) fun _ => ?_
  refine Io.only_seq (Io.only_mapErr (Only.bind (only_position ?_) fun pos => ?_)) fun _ => ?_
  · exact Only.bind (only_access trivial) fun _ => only_ret
  · cases pos with
    | none => exact only_ret
    | some pos => exact only_ret
  refine Io.only_seq only_read fun v => ?_
  split
  · exact only_ret
  · exact only_setControlBit

/-- None of the calls writes to the configuration port or to a firewall. -/
lemma task_only (task : Task) : Only OffsetValid Apart task.prog := by
  cases task with
  | init => exact only_init
  | getCardInfo =>
    refine only_of_runs offsetValid_error fun t o run valid ev mem => ?_
    exact (run_getCardInfo_within run valid ev mem).apart (by decide)
  | resetSensorMaxAvg => exact only_setControlBit
  | getReading reading => exact only_read
  | decouplerIsEnabled => exact Io.only_seq only_read fun _ => only_ret
  | decouplerEnable => exact Io.only_seq only_read fun _ => only_write apart_dfxDecoupler
  | decouplerDisable => exact Io.only_seq only_read fun _ => only_write apart_dfxDecoupler
  | miIsBlocked core => exact Io.only_seq only_read fun _ => only_ret
  | getIpVersion core => exact only_read
  | isReady => exact Io.only_seq only_read fun _ => only_ret
  | hbmRead len offset => exact Only.bind (only_access trivial) fun _ => only_ret
  | hbmWrite buf offset fits =>
    have apart : Apart (.dmaWrite (hbm.baseAddr + offset) buf) := by
      show 0 + offset + buf.length ≤ 0x1000000000000000
      have range : hbmRange ≤ 0x1000000000000000 := by decide
      omega
    exact Only.bind (only_access apart) fun _ => only_ret

end

end Warpshell.U55n
