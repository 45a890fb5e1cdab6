import Warpshell.Shells.Isolation
import Warpshell.Shells.Refusal
import Warpshell.Shells.Tasks

/-!
# The firewalls while the card is reprogrammed

A reprogramming moves two firewalls, and other clients use the card meanwhile. `wp_configure_shielded`
follows the state of the firewalls along the accesses of the call: where they stood before does not
matter once both are blocked. Since no other access moves a firewall, `pool_shielded` has the same for
every interleaving of the call with the calls of other clients.
-/

namespace Warpshell.U55n
open Interaction Hbicap

/-- The two firewalls of the shell. -/
structure Gates where
  ctrl : Firewall
  dma : Firewall
  deriving DecidableEq, Repr

namespace Gates

def after (g : Gates) (ev : CardEvent) : Gates :=
  ⟨g.ctrl.after ctrlAxiFirewall ev, g.dma.after dmaAxiFirewall ev⟩

def run (g : Gates) (t : List CardEvent) : Gates := t.foldl after g

/-- Both firewalls are blocked. -/
def Shut (g : Gates) : Prop := g.ctrl.blocked = true ∧ g.dma.blocked = true

/-- Both firewalls are open, without a soft fault. -/
def opened : Gates := ⟨⟨0, false⟩, ⟨0, false⟩⟩

/-- Where the block writes leave the firewalls. -/
def blocked : Gates := ⟨⟨AxiFirewall.miBlockMask, true⟩, ⟨AxiFirewall.miBlockMask, true⟩⟩

variable {g : Gates} {t t' : List CardEvent} {e : Access}

lemma run_append : g.run (t ++ t') = (g.run t).run t' := List.foldl_append

lemma run_concat {x : CardEvent} : g.run (t ++ [x]) = (g.run t).after x := List.foldl_append

/-- Each firewall goes its own way. -/
lemma run_eq : g.run t = ⟨g.ctrl.run ctrlAxiFirewall t, g.dma.run dmaAxiFirewall t⟩ := by
  induction t generalizing g with
  | nil => rfl
  | cons x t ih => exact ih

/-- A write that fails moves no firewall. -/
lemma after_failed {addr : Nat} {v : UInt32} {err : BasedError} :
    g.after ⟨.ctrlWriteU32 addr v, .error err⟩ = g := rfl

/-- The Size write moves no firewall. -/
lemma after_size {v : UInt32} {r} : g.after ⟨.ctrlWriteU32 (hbicapReg .size) v, r⟩ = g := by
  have ctrl : hbicapReg .size ∉ Firewall.regs ctrlAxiFirewall := by decide
  have dma : hbicapReg .size ∉ Firewall.regs dmaAxiFirewall := by decide
  rw [after, Firewall.after_other ctrl, Firewall.after_other dma]

/-- An access that is apart moves no firewall. -/
lemma after_apart (apart : Apart e) (r : e.Answer) : g.after ⟨e, r⟩ = g := by
  cases e with
  | ctrlReadU32 addr => rfl
  | ctrlWriteU32 addr v =>
    -- A write to a register of a firewall touches its segment.
    have other : ∀ core p, p ∈ [Peripheral.hbicap, .ctrlFirewall, .dmaFirewall] →
        (∀ reg ∈ Firewall.regs core, Touches p (.ctrlWriteU32 reg v)) → addr ∉ Firewall.regs core :=
      fun core p mem touches reg => apart p mem (touches addr reg)
    have ctrl : addr ∉ Firewall.regs ctrlAxiFirewall :=
      other _ .ctrlFirewall (by decide) (List.forall_mem_cons.mpr
        ⟨⟨by decide, by decide⟩, List.forall_mem_cons.mpr ⟨⟨by decide, by decide⟩, nofun⟩⟩)
    have dma : addr ∉ Firewall.regs dmaAxiFirewall :=
      other _ .dmaFirewall (by decide) (List.forall_mem_cons.mpr
        ⟨⟨by decide, by decide⟩, List.forall_mem_cons.mpr ⟨⟨by decide, by decide⟩, nofun⟩⟩)
    rw [after, Firewall.after_other ctrl, Firewall.after_other dma]
  | dmaRead addr len => rfl
  | dmaWrite addr buf => rfl

lemma run_waits (waits : ∀ ev ∈ t, Waits ev.1) : g.run t = g := by
  rw [run_eq, Firewall.run_waits (by decide) waits, Firewall.run_waits (by decide) waits]

lemma blocked_shut : blocked.Shut := ⟨rfl, rfl⟩

end Gates

/-! ## One call -/

/-- While the port has work to do, both firewalls are blocked: that is from the first write that gives
    it some until the whole image is written and the port is idle after that. -/
def Behind (image : List UInt8) (g : Gates) (h : List CardEvent) : Prop :=
  (∃ ev ∈ h, Starts ev.1) → ¬ Configured image h → (g.run h).Shut

/-- A call that succeeds opens both firewalls, and one that fails after it gave the port something to
    do leaves the control firewall blocked. -/
structure Ends (g : Gates) (o : Outcome Error Unit) (h : List CardEvent) : Prop where
  ok : o = .ok () → g.run h = .opened
  err : (∃ e, o = .err e) → (∃ ev ∈ h, Starts ev.1) → (g.run h).ctrl.blocked = true

/-- A call may fail here. -/
def MayFail (image : List UInt8) (g : Gates) (h : List CardEvent) : Prop :=
  Behind image g h ∧ ∀ e, Ends g (.err e) h

section
variable {image : List UInt8} {g : Gates} {h t : List CardEvent}

/-- A call may fail as long as it has started nothing. -/
lemma mayFail_quiet (quiet : Never (fun ev => Starts ev.1) h) : MayFail image g h := by
  have none : ¬ ∃ ev ∈ h, Starts ev.1 := fun ⟨ev, mem, starts⟩ => quiet ev mem starts
  exact ⟨fun starts => absurd starts none, fun _ => ⟨nofun, fun _ starts => absurd starts none⟩⟩

lemma mayFail_shut (shut : (g.run h).Shut) : MayFail image g h :=
  ⟨fun _ _ => shut, fun _ => ⟨nofun, fun _ _ => shut.1⟩⟩

lemma mayFail_blocked (at_ : g.run h = .blocked) : MayFail image g h :=
  mayFail_shut (at_ ▸ Gates.blocked_shut)

/-- Polling moves no firewall. -/
lemma run_misses {ms : List CardEvent} (at_ : g.run h = .blocked) (miss : ∀ m ∈ ms, NotIdle m) :
    g.run (h ++ ms) = .blocked := by
  rw [Gates.run_append, at_, Gates.run_waits fun ev mem => waits_of_read (miss ev mem).read]

/-- The image is in place, and the firewalls stand at `gates`. -/
structure Placed (image : List UInt8) (g : Gates) (h : List CardEvent) (gates : Gates) : Prop where
  configured : Configured image h
  gates : g.run h = gates

section
variable {gates : Gates}

/-- With the image in place, a call may fail while the control firewall is blocked. -/
lemma Placed.mayFail (p : Placed image g h gates) (ctrl : gates.ctrl.blocked = true) :
    MayFail image g h := by
  refine ⟨fun _ undone => absurd p.configured undone, fun _ => ⟨nofun, fun _ _ => ?_⟩⟩
  rw [p.gates]
  exact ctrl

/-- A write that succeeds leaves the image in place and moves the firewalls. -/
lemma Placed.write {addr : Nat} {v : UInt32} {gates' : Gates} (p : Placed image g h gates)
    (moves : gates.after (written addr v) = gates') :
    Placed image g (h ++ [written addr v]) gates' where
  configured := p.configured.append _
  gates := by rw [Gates.run_concat, p.gates, moves]

/-- A write that fails leaves the image in place and the firewalls where they are. -/
lemma Placed.failed {addr : Nat} {v : UInt32} {err : BasedError} (p : Placed image g h gates)
    (ctrl : gates.ctrl.blocked = true) :
    MayFail image g (h ++ [⟨.ctrlWriteU32 addr v, .error err⟩]) := by
  have same : Placed image g (h ++ [⟨.ctrlWriteU32 addr v, .error err⟩]) gates :=
    ⟨p.configured.append _, by rw [Gates.run_concat, Gates.after_failed, p.gates]⟩
  exact same.mayFail ctrl

end

/-- What holds when a call ends. -/
def Ended (image : List UInt8) (g : Gates) (o : Outcome Error Unit) (h : List CardEvent) : Prop :=
  Behind image g h ∧ Ends g o h

lemma MayFail.ended {e : Error} (may : MayFail image g h) : Ended image g (.err e) h :=
  ⟨may.1, may.2 e⟩

/-- The unblock writes, one firewall after the other. -/
lemma wp_unblockBoth_shielded (p : Placed image g h .blocked) :
    (history _ _).wp (fun h _ => Behind image g h) unblockBoth (Ended image g) h := by
  rw [unblockBoth]
  apply step_write (p.mayFail rfl).1 (fun e => (p.failed rfl).ended)
  have p₁ : Placed image g (h ++ [faultCleared dmaAxiFirewall])
      ⟨⟨AxiFirewall.miBlockMask, true⟩, ⟨0, true⟩⟩ := p.write rfl
  apply step_write (p₁.mayFail rfl).1 (fun e => (p₁.failed rfl).ended)
  have p₂ : Placed image g (_ ++ [unblocked dmaAxiFirewall])
      ⟨⟨AxiFirewall.miBlockMask, true⟩, ⟨0, false⟩⟩ := p₁.write rfl
  apply step_write (p₂.mayFail rfl).1 (fun e => (p₂.failed rfl).ended)
  have p₃ : Placed image g (_ ++ [faultCleared ctrlAxiFirewall]) ⟨⟨0, true⟩, ⟨0, false⟩⟩ :=
    p₂.write rfl
  rw [World.wp_mapErr, history_write]
  refine ⟨(p₃.mayFail rfl).1, fun r => ?_⟩
  cases r with
  | error e => exact (p₃.failed rfl).ended
  | ok u =>
    have p₄ : Placed image g (_ ++ [unblocked ctrlAxiFirewall]) .opened := p₃.write rfl
    refine ⟨fun _ undone => absurd p₄.configured undone, fun _ => p₄.gates, fun failed => ?_⟩
    obtain ⟨e, eq⟩ := failed
    cases eq

/-- Wherever the firewalls stood, they are blocked before the Size write. -/
lemma wp_configure_shielded (quiet : Never (fun ev => Starts ev.1) h) :
    (history _ _).wp (fun h _ => Behind image g h) (configure image) (Ended image g) h := by
  have idle : ∀ core, ¬ Starts (blockWrite core) → ∀ {h' a}, Never (fun ev => Starts ev.1) h' →
      MayFail image g (h' ++ [⟨blockWrite core, a⟩]) :=
    fun core other _ _ quiet => mayFail_quiet (Never.concat quiet other)
  rw [configure]
  apply step_write (mayFail_quiet quiet).1 (fun e => (idle ctrlAxiFirewall (by decide) quiet).ended)
  have q₁ := Never.concat (x := blocked ctrlAxiFirewall) quiet (by decide)
  apply step_write (mayFail_quiet q₁).1 (fun e => (idle dmaAxiFirewall (by decide) q₁).ended)
  -- Both are blocked now, whatever their state was.
  have g₂ : g.run (h ++ [blocked ctrlAxiFirewall] ++ [blocked dmaAxiFirewall]) = .blocked := by
    rw [Gates.run_concat, Gates.run_concat]
    show Gates.mk ⟨_, _ || true⟩ ⟨_, _ || true⟩ = _
    rw [Bool.or_true, Bool.or_true]
    rfl
  have still : ∀ {h' x}, g.run h' = .blocked → (∀ g' : Gates, g'.after x = g') →
      g.run (h' ++ [x]) = .blocked := by
    intro h' x at_ same
    rw [Gates.run_concat, same, at_]
  apply step_write (mayFail_blocked g₂).1
  · exact fun e => (mayFail_blocked (still g₂ fun _ => rfl)).ended
  have g₃ : g.run (_ ++ [sizeWritten image]) = .blocked := still g₂ fun _ => Gates.after_size
  apply step_dmaWrite (mayFail_blocked g₃).1
  · exact fun e => (mayFail_blocked (still g₃ fun _ => rfl)).ended
  have g₄ : g.run (_ ++ [imageWritten image]) = .blocked := still g₃ fun _ => rfl
  have i₄ : InOrder [(· = imageWritten image)] (h ++ [blocked ctrlAxiFirewall] ++
      [blocked dmaAxiFirewall] ++ [sizeWritten image] ++ [imageWritten image]) :=
    InOrder.nil.concat rfl
  apply step_poll_within
  · exact fun ms miss => (mayFail_blocked (run_misses g₄ miss)).1
  · exact fun ms miss _ => (mayFail_blocked (run_misses g₄ miss)).ended
  intro ms v miss _ hit
  have seen : IdleSeen ⟨.ctrlReadU32 (hbicapReg .status), .ok v⟩ := ⟨v, rfl, hit⟩
  have p : Placed image g (_ ++ ms ++ [⟨.ctrlReadU32 (hbicapReg .status), .ok v⟩]) .blocked :=
    ⟨(i₄.append ms).concat seen, still (run_misses g₄ miss) fun _ => rfl⟩
  exact wp_unblockBoth_shielded p

/-- A reprogramming works behind blocked firewalls, from any state of them. -/
lemma wp_programUserImage_shielded {debug : Bool} :
    (history _ _).wp (fun h _ => Behind image g h) (programUserImage debug image)
      (Ended image g) [] := by
  have quiet : ∀ {t : List CardEvent}, (∀ ev ∈ t, Waits ev.1) → Never (fun ev => Starts ev.1) t :=
    fun waits ev mem => (waits ev mem).not_starts
  rw [programUserImage_eq, World.wp_seq]
  have wait : (history _ _).wp (fun _ e => Waits e) (awaitIdle debug)
      (fun o h => o ≠ .panic ∧ ∀ ev ∈ h, Waits ev.1) [] := by
    apply wp_awaitIdle (fun _ _ w => w)
    · exact fun t seen => ⟨nofun, fun ev mem => waits_of_read (seen.reads ev mem)⟩
    · exact fun t aborted => ⟨nofun, aborted.waits⟩
    · intro h' e waited
      obtain ⟨t, rfl, waits⟩ := waited
      exact ⟨nofun, waits⟩
  -- Nothing has been started as long as the call waits.
  refine World.wp_mono (World.wp_guard (history_past wait) fun h e => ?_) fun o h => ?_
  · intro waited
    obtain ⟨t, rfl, waits⟩ := waited
    exact (mayFail_quiet (quiet waits)).1
  · intro ended
    obtain ⟨returned, waits⟩ := ended
    cases o with
    | ok u => exact wp_configure_shielded (quiet waits)
    | err e => exact (mayFail_quiet (quiet waits)).ended
    | panic => exact absurd rfl returned

end

/-! ## Among other clients -/

/-- The access gives the configuration port something to do. -/
def StartsPort : Access → Prop
  | .ctrlWriteU32 addr _ => addr = hbicapReg .size
  | .dmaWrite addr buf => hbicap.dmaIf.baseAddr < addr + buf.length
  | _ => False

/-- What client `i` and the firewalls are to look like, whatever the others have done. -/
structure Shielded {τ : Type} [DecidableEq τ] (image : List UInt8) (g : Gates) (i : τ)
    (P : Pool Access Access.Answer (List (τ × CardEvent)) τ (Outcome Error Unit)) : Prop where
  /-- While the port has work to do, both firewalls are blocked. -/
  behind : (∃ x ∈ P.state, StartsPort x.2.1) → ¬ Configured image (own i P.state) →
    (g.run (P.state.map Prod.snd)).Shut
  /-- Both firewalls are open after a success. -/
  ok : P.prog i = .ret (.ok ()) → g.run (P.state.map Prod.snd) = .opened
  /-- The control firewall is blocked after a failure, unless nothing was started. -/
  err : (∃ e, P.prog i = .ret (.err e)) → (∃ x ∈ P.state, StartsPort x.2.1) →
    (g.run (P.state.map Prod.snd)).ctrl.blocked = true

section
variable {τ : Type} [DecidableEq τ] {i : τ} {e : Access}

/-- An access that is apart gives the port nothing to do. -/
lemma Apart.not_startsPort (apart : Apart e) : ¬ StartsPort e := by
  intro starts
  cases e with
  | ctrlReadU32 addr => exact starts
  | ctrlWriteU32 addr v =>
    refine apart .hbicap (by decide) ?_
    rw [show addr = hbicapReg .size from starts]
    exact ⟨by decide, by decide⟩
  | dmaRead addr len => exact starts
  | dmaWrite addr buf => exact absurd starts (Nat.not_lt.mpr apart)

/-- What gives the port something to do is a Size write or a DMA write. -/
lemma StartsPort.starts (s : StartsPort e) : Starts e := by
  cases e with
  | ctrlReadU32 addr => exact s
  | ctrlWriteU32 addr v => exact s
  | dmaRead addr len => exact s
  | dmaWrite addr buf => trivial

/-- One client reprograms the card, and any number of others use it through calls that take no part in
    that, in any interleaving of their accesses and whatever the card answers, as long as it keeps to
    the documented range of HostMsgOffset. Then both firewalls are blocked from the first write that
    gives the configuration port something to do until the whole image is written and the port was
    seen idle after that; a success leaves both open, and a failure after that write leaves the
    control firewall blocked. -/
theorem pool_shielded (i : τ) (debug : Bool) (image : List UInt8) (g : Gates)
    (ps : τ → Driver Error Unit)
    (P : Pool Access Access.Answer (List (τ × CardEvent)) τ (Outcome Error Unit))
    (reprograms : ps i = programUserImage debug image) (others : ∀ j, j ≠ i → Uses Task.prog (ps j))
    (reach : (Shared.log Access Access.Answer τ).Reachable ⟨[], ps⟩ P)
    (valid : ∀ x ∈ P.state, OffsetValid x.2) : Shielded image g i P := by
  have leads := log_reachable.mp reach
  -- The others leave the port and the firewalls alone.
  have apart : ∀ x ∈ P.state, x.1 ≠ i → Apart x.2.1 := by
    intro x mem other
    have only := (others x.1 other).only task_only
    exact only _ _ (leads x.1) (fun y m => valid (x.1, y) (mem_own.mp m)) x.2 (mem_own.mpr mem)
  have starts : (∃ x ∈ P.state, StartsPort x.2.1) → ∃ ev ∈ own i P.state, Starts ev.1 := by
    intro some
    obtain ⟨x, mem, starts⟩ := some
    by_cases same : x.1 = i
    · exact ⟨x.2, mem_own.mpr (same ▸ mem), starts.starts⟩
    · exact absurd starts (apart x mem same).not_startsPort
  have gates : g.run (P.state.map Prod.snd) = g.run (own i P.state) := by
    rw [Gates.run, List.foldl_map]
    exact foldl_own (fun x mem other g' => Gates.after_apart (apart x mem other) x.2.2) g
  have mine : Leads (programUserImage debug image) (own i P.state) (P.prog i) := reprograms ▸ leads i
  obtain ⟨behind, ended⟩ := mine.invariant wp_programUserImage_shielded
  rw [List.nil_append] at behind ended
  refine ⟨fun some => ?_, fun done => ?_, fun failed some => ?_⟩
  · rw [gates]
    exact behind (starts some)
  · rw [gates]
    exact (ended _ done).ok rfl
  · obtain ⟨e, done⟩ := failed
    rw [gates]
    exact (ended _ done).err ⟨e, rfl⟩ (starts some)

end

/-! One client reprograms the card. The other one enables the decoupler, which it has begun before, and
writes to the HBM while the first one waits for the port. -/

def bystander : Prog Task Task.Res (Outcome Error Unit) :=
  .act .decouplerEnable fun _ => .act (.hbmWrite [7] 0 (by decide)) fun _ => .ret (.ok ())

def reprogrammer : Driver Error Unit := programUserImage false [1, 2, 3, 4]

/-- The accesses of the two, each of which succeeds. -/
def sideBySide : List (Bool × CardEvent) :=
  [(false, ⟨.ctrlReadU32 (dfxDecoupler.baseAddr + 0), .ok 0⟩),
    (true, ⟨.ctrlReadU32 (hbicapReg .status), .ok 1⟩), (true, blocked ctrlAxiFirewall),
    (true, blocked dmaAxiFirewall), (true, sizeWritten [1, 2, 3, 4]),
    (false, ⟨.ctrlWriteU32 (dfxDecoupler.baseAddr + 0) 1, .ok ()⟩),
    (true, imageWritten [1, 2, 3, 4]), (false, ⟨.dmaWrite (hbm.baseAddr + 0) [7], .ok ()⟩),
    (true, ⟨.ctrlReadU32 (hbicapReg .status), .ok 1⟩), (true, faultCleared dmaAxiFirewall),
    (true, unblocked dmaAxiFirewall), (true, faultCleared ctrlAxiFirewall),
    (true, unblocked ctrlAxiFirewall)]

/-- Both firewalls are open in the end, also the one that was blocked at the start. -/
theorem pool_shielded_two :
    ∃ P : Pool Access Access.Answer (List (Bool × CardEvent)) Bool (Outcome Error Unit),
      (Shared.log Access Access.Answer Bool).Reachable
        ⟨[], fun b => if b then reprogrammer else bystander.expand Task.prog⟩ P ∧
      P.state = sideBySide ∧ P.prog true = .ret (.ok ()) ∧ P.prog false = .ret (.ok ()) ∧
      Shielded [1, 2, 3, 4] ⟨⟨0, false⟩, ⟨0, true⟩⟩ true P := by
  have mine : Run reprogrammer (own true sideBySide) (.ok ()) :=
    .act (.act (.act (.act (.act (.act (.act (.act (.act (.act .ret)))))))))
  have yours : Run (bystander.expand Task.prog) (own false sideBySide) (.ok ()) :=
    .act (.act (.act .ret))
  let P : Pool Access Access.Answer (List (Bool × CardEvent)) Bool (Outcome Error Unit) :=
    ⟨sideBySide, fun _ => .ret (.ok ())⟩
  have reach : (Shared.log Access Access.Answer Bool).Reachable
      ⟨[], fun b => if b then reprogrammer else bystander.expand Task.prog⟩ P := by
    refine log_reachable.mpr fun b => leads_ret.mpr ?_
    cases b with
    | true => exact mine
    | false => exact yours
  refine ⟨P, reach, rfl, rfl, rfl, pool_shielded true false _ _ _ P rfl ?_ reach ?_⟩
  · intro j ne
    cases j with
    | true => exact absurd rfl ne
    | false => exact ⟨bystander, rfl⟩
  · have unread : ∀ x ∈ sideBySide,
        x.2.1 ≠ .ctrlReadU32 (cms.baseAddr + Cms.CmsReg.hostMsgOffset.offset) := by decide
    exact fun x mem v eq => absurd (congrArg Sigma.fst eq) (unread x mem)

end Warpshell.U55n
