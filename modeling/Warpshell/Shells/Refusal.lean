import Warpshell.Shells.Course

/-!
# A refused reprogramming

What the register writes of a trace do to a firewall, and how a call that returns before it has
configured anything leaves the two firewalls. Of the courses a call can take, the one that leaves the
control firewall blocked is where the DMA firewall fails to block.
-/

namespace Warpshell.U55n
open Interaction Hbicap

structure Firewall where
  softFault : UInt32
  blocked : Bool
  deriving DecidableEq, Repr

namespace Firewall

/-- What a firewall does with an access: a nonzero soft fault blocks it, and the unblock control
    unblocks it while there is no soft fault. A failed access has no effect. -/
def after (core : BaseParam) (f : Firewall) : CardEvent → Firewall
  | ⟨.ctrlWriteU32 addr v, .ok _⟩ =>
    if addr = firewallReg core .miSideSoftFaultControl then ⟨v, f.blocked || v != 0⟩
    else if addr = firewallReg core .miSideUnblockControl ∧ v = 1 ∧ f.softFault = 0 then
      { f with blocked := false }
    else f
  | _ => f

def run (core : BaseParam) (f : Firewall) (t : List CardEvent) : Firewall := t.foldl (after core) f

/-- The registers that a firewall reacts to. -/
def regs (core : BaseParam) : List Nat :=
  [firewallReg core .miSideSoftFaultControl, firewallReg core .miSideUnblockControl]

section
variable {core : BaseParam} {f : Firewall} {t t' : List CardEvent}

lemma run_append : f.run core (t ++ t') = (f.run core t).run core t' := List.foldl_append

/-- A write to another register leaves a firewall alone. -/
lemma after_other {addr : Nat} {v : UInt32} {r} (other : addr ∉ regs core) :
    f.after core ⟨.ctrlWriteU32 addr v, r⟩ = f := by
  have soft : addr ≠ firewallReg core .miSideSoftFaultControl := fun eq => other (by simp [regs, eq])
  have unblock : addr ≠ firewallReg core .miSideUnblockControl := fun eq => other (by simp [regs, eq])
  cases r with
  | error e => rfl
  | ok u =>
    rw [after, if_neg soft, if_neg fun both => unblock both.1]

/-- The wait leaves a firewall alone. -/
lemma run_waits (other : hbicapReg .control ∉ regs core) (waits : ∀ ev ∈ t, Waits ev.1) :
    f.run core t = f := by
  induction t with
  | nil => rfl
  | cons ev t ih =>
    have same : f.after core ev = f := by
      have w := waits ev List.mem_cons_self
      obtain ⟨e, r⟩ := ev
      cases e with
      | ctrlReadU32 addr => rfl
      | ctrlWriteU32 addr v =>
        obtain ⟨eq, _⟩ := w
        exact after_other (eq ▸ other)
      | dmaRead addr len => rfl
      | dmaWrite addr buf => rfl
    show (f.after core ev).run core t = f
    rw [same]
    exact ih fun ev mem => waits ev (List.mem_cons_of_mem _ mem)

end

end Firewall

/-- The block write of a firewall failed. -/
def BlockFailed (core : BaseParam) (ev : CardEvent) : Prop :=
  ∃ e, ev = ⟨blockWrite core, .error e⟩

/-- A call that was refused before anything was configured leaves both firewalls as they were. -/
def Harmless (ctrl dma : Firewall) (t : List CardEvent) (r : Outcome Error Unit) : Prop :=
  (∃ e, r = .err e) → Never (fun ev => Starts ev.1) t →
    (ctrl.run ctrlAxiFirewall t).blocked = ctrl.blocked ∧
      (dma.run dmaAxiFirewall t).blocked = dma.blocked

section
variable {t : List CardEvent}

/-- Any other access is no failed block write. -/
lemma not_blockFailed {core : BaseParam} {e : Access} {a : e.Answer} (other : e ≠ blockWrite core) :
    ¬ BlockFailed core ⟨e, a⟩ :=
  fun ⟨_, eq⟩ => other (congrArg Sigma.fst eq)

/-- Without a block write, none fails. -/
lemma never_of_not_blocks (other : Never (fun ev => Blocks ev.1) t) :
    Never (BlockFailed dmaAxiFirewall) t := by
  intro ev mem ⟨e, eq⟩
  exact other ev mem (eq ▸ .inr rfl)

/-- A call that got as far as the Size write did not fail to block. -/
lemma Begun.never {image : List UInt8} (b : Begun image t) : Never (BlockFailed dmaAxiFirewall) t := by
  cases b with
  | @intro t a rest idle never =>
    have waits := never_of_not_blocks fun ev mem => (idle.waits ev mem).not_blocks
    have n₁ : Never (BlockFailed dmaAxiFirewall) (t ++ [blocked ctrlAxiFirewall]) :=
      Never.concat waits (not_blockFailed (by decide))
    have n₂ : Never (BlockFailed dmaAxiFirewall) (_ ++ [blocked dmaAxiFirewall]) :=
      Never.concat n₁ fun ⟨_, eq⟩ => by cases eq
    refine Never.append n₂ (List.forall_mem_cons.mpr ⟨?_, never_of_not_blocks never⟩)
    exact not_blockFailed fun eq => absurd (Access.ctrlWriteU32.inj eq).1 (by decide)

/-- A call that has begun has started something. -/
lemma Begun.starts {image : List UInt8} (b : Begun image t) : ∃ ev ∈ t, Starts ev.1 := by
  cases b with
  | intro => exact ⟨_, List.mem_append_right _ List.mem_cons_self, rfl⟩

/-- A call that is refused before anything was configured leaves both firewalls as they were, unless
    the DMA firewall failed to block behind a control firewall that had been open. -/
theorem harmless_iff (debug : Bool) (image : List UInt8) (ctrl dma : Firewall)
    (t : List CardEvent) (r : Outcome Error Unit) (run : Run (programUserImage debug image) t r) :
    Harmless ctrl dma t r ↔
      ¬ ((∃ ev ∈ t, BlockFailed dmaAxiFirewall ev) ∧ ctrl.blocked = false) := by
  have ctrlWaits : ∀ {t}, (∀ ev ∈ t, Waits ev.1) → ctrl.run ctrlAxiFirewall t = ctrl :=
    fun waits => Firewall.run_waits (by decide) waits
  have dmaWaits : ∀ {t}, (∀ ev ∈ t, Waits ev.1) → dma.run dmaAxiFirewall t = dma :=
    fun waits => Firewall.run_waits (by decide) waits
  have never : ∀ {t}, (∀ ev ∈ t, Waits ev.1) → Never (BlockFailed dmaAxiFirewall) t :=
    fun waits => never_of_not_blocks fun ev mem => (waits ev mem).not_blocks
  cases course run with
  | begun begun =>
    obtain ⟨ev, mem, starts⟩ := begun.starts
    refine ⟨fun _ ⟨⟨ev, mem, failed⟩, _⟩ => begun.never ev mem failed, fun _ _ idle => ?_⟩
    exact absurd starts (idle ev mem)
  | waited waits =>
    refine ⟨fun _ ⟨⟨ev, mem, failed⟩, _⟩ => never waits ev mem failed, fun _ _ _ => ?_⟩
    rw [ctrlWaits waits, dmaWaits waits]
    exact ⟨rfl, rfl⟩
  | @ctrl e t err idle =>
    have blocks : Never (BlockFailed dmaAxiFirewall)
        (t ++ [⟨blockWrite ctrlAxiFirewall, .error err⟩]) :=
      Never.concat (never idle.waits) (not_blockFailed (by decide))
    refine ⟨fun _ ⟨⟨ev, mem, failed⟩, _⟩ => blocks ev mem failed, fun _ _ _ => ?_⟩
    rw [Firewall.run_append, Firewall.run_append, ctrlWaits idle.waits, dmaWaits idle.waits]
    exact ⟨rfl, rfl⟩
  | @dma e t err idle =>
    let last : CardEvent := ⟨blockWrite dmaAxiFirewall, .error err⟩
    -- The control firewall is blocked now, so it must have been blocked before.
    have ctrlAfter : (ctrl.run ctrlAxiFirewall (t ++ [blocked ctrlAxiFirewall] ++ [last])).blocked
        = true := by
      rw [Firewall.run_append, Firewall.run_append, ctrlWaits idle.waits]
      exact Bool.or_true _
    have dmaAfter : dma.run dmaAxiFirewall (t ++ [blocked ctrlAxiFirewall] ++ [last]) = dma := by
      have other : dma.after dmaAxiFirewall (blocked ctrlAxiFirewall) = dma :=
        Firewall.after_other (by decide)
      rw [Firewall.run_append, Firewall.run_append, dmaWaits idle.waits]
      exact other
    rw [Harmless, ctrlAfter, dmaAfter]
    apply Iff.intro
    · intro harmless ⟨_, opened⟩
      have waits : Never (fun ev => Starts ev.1) t := fun ev mem => (idle.waits ev mem).not_starts
      have quiet : ¬ Starts (blockWrite dmaAxiFirewall) := by decide
      have kept := (harmless ⟨_, rfl⟩ (Never.concat (Never.concat waits (by decide)) quiet)).1
      rw [opened] at kept
      cases kept
    · intro closed _ _
      refine ⟨?_, rfl⟩
      cases was : ctrl.blocked with
      | true => rfl
      | false => exact absurd ⟨⟨last, List.mem_concat_self, err, rfl⟩, was⟩ closed

/-- The control firewall fails to block, and both firewalls stay open. -/
theorem harmless_iff_ctrl :
    ∃ t r, Run (programUserImage false [1, 2, 3, 4]) t r ∧ Harmless ⟨0, false⟩ ⟨0, false⟩ t r := by
  let error : BasedError := .xdmaError (.ctrlWriteFailed (.os 5))
  have run : Run (programUserImage false [1, 2, 3, 4])
      [⟨.ctrlReadU32 (hbicapReg .status), .ok 1⟩,
        ⟨blockWrite ctrlAxiFirewall, .error error⟩]
      (.err (.axiFirewall (.basedError error))) := .act (.act .ret)
  refine ⟨_, _, run, (harmless_iff false [1, 2, 3, 4] _ _ _ _ run).mpr ?_⟩
  intro ⟨⟨ev, mem, failed⟩, _⟩
  simp only [List.mem_cons, List.not_mem_nil, or_false] at mem
  obtain eq | eq := mem
  all_goals
    rw [eq] at failed
    exact not_blockFailed (by decide) failed

def failed : CardEvent → Bool
  | ⟨.ctrlReadU32 _, .error _⟩ => true
  | ⟨.ctrlWriteU32 _ _, .error _⟩ => true
  | ⟨.dmaRead _ _, .error _⟩ => true
  | ⟨.dmaWrite _ _, .error _⟩ => true
  | _ => false

/-- The port is idle and both firewalls are open. The control firewall is blocked, and then the only
    access to fail is the one that would block the DMA firewall. -/
theorem refusal_leaves_blocked :
    ∃ t r, Run (programUserImage false [1, 2, 3, 4]) t r ∧ t.countP failed = 1 ∧
      Never (fun ev => Starts ev.1) t ∧ (∃ e, r = .err e) ∧
      (Firewall.run ctrlAxiFirewall ⟨0, false⟩ t).blocked = true := by
  let error : BasedError := .xdmaError (.ctrlWriteFailed (.os 5))
  refine ⟨[⟨.ctrlReadU32 (hbicapReg .status), .ok 1⟩, blocked ctrlAxiFirewall,
    ⟨blockWrite dmaAxiFirewall, .error error⟩], .err (.axiFirewall (.basedError error)),
    ?_, ?_, ?_, ?_, ?_⟩
  · exact .act (.act (.act .ret))
  · rfl
  · intro ev mem
    simp only [List.mem_cons, List.not_mem_nil, or_false] at mem
    obtain eq | eq | eq := mem
    all_goals
      rw [eq]
      decide
  · exact ⟨_, rfl⟩
  · rfl

end

end Warpshell.U55n
