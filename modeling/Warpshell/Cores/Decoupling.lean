import Warpshell.Cores.DfxDecoupler
import Warpshell.Interaction.Atomic

/-!
# Clients of the decoupler

`enable` and `disable` read the Control register and write it back, and nothing keeps another client
from doing the same in between. The write is the update of whatever the register holds by then
(`absorbs_update`), so each operation is as good as atomic (`decoupler_atomic`).
-/

namespace Warpshell.DfxDecoupler
open Interaction

/-- What `enable` (`true`) and `disable` (`false`) make of the Control register. -/
def update : Bool → UInt32 → UInt32
  | true, v => v ||| ControlRegBit.en.mask
  | false, v => (v ||| ControlRegBit.en.mask) ^^^ ControlRegBit.en.mask

inductive Op where
  | isEnabled
  | enable
  | disable
  deriving DecidableEq, Repr

abbrev Op.Res : Op → Type
  | .isEnabled => Outcome Error Bool
  | .enable => Outcome Error Unit
  | .disable => Outcome Error Unit

def Op.prog (core : BaseParam) : (op : Op) → Prog Access Access.Answer op.Res
  | .isEnabled => DfxDecoupler.isEnabled core
  | .enable => DfxDecoupler.enable core
  | .disable => DfxDecoupler.disable core

/-! ## The register, and the operations as they should be -/

/-- The Control register as a device: it is what was written last, but a write that fails may have
    taken effect or not. Nothing is known of any other register. -/
def device (core : BaseParam) (τ : Type) : Shared Access Access.Answer UInt32 τ where
  env _ _ := False
  answers _ control e r control' :=
    match e, r with
    | .ctrlReadU32 addr, r => control' = control ∧
        (addr = core.baseAddr + Reg.control.offset → ∀ v, r = .ok v → v = control)
    | .ctrlWriteU32 addr v, .ok _ =>
      control' = if addr = core.baseAddr + Reg.control.offset then v else control
    | .ctrlWriteU32 addr v, .error _ => control' = control ∨
        addr = core.baseAddr + Reg.control.offset ∧ control' = v
    | .dmaRead _ _, _ => control' = control
    | .dmaWrite _ _, _ => control' = control

/-- An update in one step: when it fails, it may have been made or not. -/
def Updates (f : UInt32 → UInt32) (control : UInt32) (r : Outcome Error Unit) (control' : UInt32) :
    Prop :=
  r = .ok () ∧ control' = f control ∨ (∃ e, r = .err e) ∧ (control' = control ∨ control' = f control)

/-- The decoupler as it should be. -/
def atomic (τ : Type) : Shared Op Op.Res UInt32 τ where
  env _ _ := False
  answers _ control op r control' :=
    match op, r with
    | .isEnabled, r => control' = control ∧
        (r = .ok (control &&& ControlRegBit.en.mask == ControlRegBit.en.mask) ∨ ∃ e, r = .err e)
    | .enable, r => Updates (update true) control r control'
    | .disable, r => Updates (update false) control r control'

section
variable {core : BaseParam} {τ : Type} {i : τ} {control control' : UInt32}

/-- An update changes bit 0 only. -/
lemma update_getElem (b : Bool) (v : UInt32) (n : Nat) (lt : n < 32) :
    (update b v).toBitVec[n] = if n = 0 then b else v.toBitVec[n] := by
  cases b with
  | true => simp [update, ControlRegBit.mask]; grind
  | false => simp [update, ControlRegBit.mask]; grind

/-- An update overwrites what another one has done. -/
lemma absorbs_update : Absorbs update := by
  intro b c v
  apply UInt32.toBitVec_inj.mp
  ext n lt
  rw [update_getElem, update_getElem, update_getElem]
  split
  · rfl
  · rfl

/-- A move of the atomic decoupler leaves the register alone or updates it. -/
lemma moves_update (m : (atomic τ).Moves control control') :
    control' = control ∨ ∃ b, control' = update b control := by
  obtain none | ⟨i, op, r, an⟩ := m
  · exact none.elim
  · cases op with
    | isEnabled => exact .inl an.1
    | enable =>
      obtain ⟨_, eq⟩ | ⟨_, eq | eq⟩ := an
      · exact .inr ⟨true, eq⟩
      · exact .inl eq
      · exact .inr ⟨true, eq⟩
    | disable =>
      obtain ⟨_, eq⟩ | ⟨_, eq | eq⟩ := an
      · exact .inr ⟨false, eq⟩
      · exact .inl eq
      · exact .inr ⟨false, eq⟩

/-- A read, and then a write of the update of what was read: it is the update. -/
lemma lands_update (b : Bool) (control : UInt32) :
    Lands ((device core τ).answers i) (atomic τ).Moves (Updates (update b))
      (((basedCtrlReadU32 core Reg.control.offset).mapErr .basedError >>= fun v =>
        (basedCtrlWriteU32 core Reg.control.offset (update b v)).mapErr .basedError :
          Driver Error Unit)) control := by
  intro s _ r s' an
  obtain ⟨rfl, value⟩ := an
  cases r with
  | error e => exact .inl ⟨.err (.basedError e), rfl, .inr ⟨⟨_, rfl⟩, .inl rfl⟩⟩
  | ok v =>
    have value : v = s' := value rfl v rfl
    subst value
    refine .inr ⟨rfl, fun s ms r s' an => .inl ?_⟩
    -- The register may be another by now, but not what the update makes of it.
    have fresh : update b s = update b v :=
      absorbs_update.updated b (Relation.ReflTransGen.mono (fun _ _ => moves_update) _ _ ms)
    cases r with
    | error e =>
      refine ⟨.err (.basedError e), rfl, .inr ⟨⟨_, rfl⟩, ?_⟩⟩
      obtain eq | ⟨_, eq⟩ := an
      · exact .inl eq
      · exact .inr (eq.trans fresh.symm)
    | ok u =>
      have written : s' = update b v := an.trans (if_pos rfl)
      exact ⟨.ok (), rfl, .inl ⟨rfl, written.trans fresh.symm⟩⟩

/-- Each method of the driver lands as its atomic operation. -/
lemma lands (op : Op) (control : UInt32) :
    (device core τ).Lands (atomic τ) i op (op.prog core) control := by
  cases op with
  | isEnabled =>
    intro s _ r s' an
    obtain ⟨rfl, value⟩ := an
    refine .inl ?_
    cases r with
    | error e => exact ⟨.err (.basedError e), rfl, rfl, .inr ⟨_, rfl⟩⟩
    | ok v =>
      have value : v = s' := value rfl v rfl
      subst value
      exact ⟨_, rfl, rfl, .inl rfl⟩
  | enable => exact lands_update true control
  | disable => exact lands_update false control

end

/-- The operations of the decoupler can be used by any number of clients at the same time: whatever
    they reach with the operations of the driver, in any interleaving of the accesses and with any of
    them failing, they reach with operations that are atomic, with the same results; and only the
    enable bit has changed then. -/
theorem decoupler_atomic {τ α : Type} [DecidableEq τ] (core : BaseParam) (control : UInt32)
    (cs : τ → Prog Op Op.Res α) (P : Pool Access Access.Answer UInt32 τ α)
    (reach : (device core τ).Reachable ⟨control, fun i => (cs i).expand (Op.prog core)⟩ P) :
    (∃ A : Pool Op Op.Res UInt32 τ α, (atomic τ).Reachable ⟨control, cs⟩ A ∧ A.state = P.state ∧
      ∀ i a, P.prog i = .ret a → A.prog i = .ret a) ∧
    P.state ||| ControlRegBit.en.mask = control ||| ControlRegBit.en.mask := by
  obtain ⟨A, atomically, same, results⟩ :=
    Shared.refines_atomic (S := device core τ) (T := atomic τ) (fun _ _ e => e) (fun _ => lands) reach
  refine ⟨⟨A, atomically, same, results⟩, ?_⟩
  rw [← same]
  show update true A.state = update true control
  clear same results reach
  induction atomically with
  | refl => rfl
  | @tail A A' _ step ih =>
    rw [← ih]
    refine absorbs_update.updated true (.single (moves_update (τ := τ) ?_))
    cases step with
    | env e => exact e.elim
    | access next an => exact .inr ⟨_, _, _, an⟩

/-- One client enables the decoupler, the other one disables it. -/
def rivals : Bool → Prog Op Op.Res (Outcome Error Unit) := fun b =>
  if b then .act .enable .ret else .act .disable .ret

/-- Both of them have read the register before either of them writes; the result is the one of `enable`
    followed by `disable`. -/
theorem decoupler_atomic_race :
    ∃ P : Pool Access Access.Answer UInt32 Bool (Outcome Error Unit),
      (device ⟨0x04090000⟩ Bool).Reachable
        ⟨6, fun b => (rivals b).expand (Op.prog ⟨0x04090000⟩)⟩ P ∧
      P.prog true = .ret (.ok ()) ∧ P.prog false = .ret (.ok ()) ∧
      (∃ A : Pool Op Op.Res UInt32 Bool (Outcome Error Unit),
        (atomic Bool).Reachable ⟨6, rivals⟩ A ∧ A.state = 6 ∧
        A.prog true = .ret (.ok ()) ∧ A.prog false = .ret (.ok ())) ∧
      P.state ||| ControlRegBit.en.mask = 7 := by
  let core : BaseParam := ⟨0x04090000⟩
  let read : Access := .ctrlReadU32 (core.baseAddr + Reg.control.offset)
  let write (v : UInt32) : Access := .ctrlWriteU32 (core.baseAddr + Reg.control.offset) v
  let ps : Bool → Prog Access Access.Answer (Outcome Error Unit) :=
    fun b => (rivals b).expand (Op.prog core)
  let writing (b : Bool) : Prog Access Access.Answer (Outcome Error Unit) :=
    ((basedCtrlWriteU32 core Reg.control.offset (update b 6)).mapErr Error.basedError).bind .ret
  let ps₁ := Function.update ps true (writing true)
  let ps₂ := Function.update ps₁ false (writing false)
  let ps₃ := Function.update ps₂ true (.ret (.ok ()))
  let ps₄ := Function.update ps₃ false (.ret (.ok ()))
  have step : ∀ s s' ps' (b : Bool) (e : Access) {k} (r : e.Answer), ps' b = .act e k →
      (device core Bool).answers b s e r s' →
      (device core Bool).Step (α := Outcome Error Unit) ⟨s, ps'⟩ ⟨s', Function.update ps' b (k r)⟩ := by
    intro s s' ps' b e k r next an
    exact .access next an
  have holds : ∀ v : UInt32, (.ok 6 : Except BasedError UInt32) = .ok v → v = 6 :=
    fun v eq => (Except.ok.inj eq).symm
  have step₁ := step 6 6 ps true read (.ok 6) rfl ⟨rfl, fun _ => holds⟩
  have step₂ := step 6 6 ps₁ false read (.ok 6) rfl ⟨rfl, fun _ => holds⟩
  have step₃ := step 6 7 ps₂ true (write 7) (.ok ()) rfl rfl
  have step₄ := step 7 6 ps₃ false (write 6) (.ok ()) rfl rfl
  have reach : (device core Bool).Reachable ⟨6, ps⟩ ⟨6, ps₄⟩ :=
    .tail (.tail (.tail (.tail .refl step₁) step₂) step₃) step₄
  obtain ⟨⟨A, atomically, same, results⟩, others⟩ := decoupler_atomic core 6 rivals _ reach
  refine ⟨⟨6, ps₄⟩, reach, rfl, rfl, ⟨A, atomically, same, ?_, ?_⟩, others⟩
  · exact results true _ rfl
  · exact results false _ rfl

end Warpshell.DfxDecoupler
