import Warpshell.Mailbox.Host

/-!
# The temperature monitor

`init` enables the HBM temperature monitor. Clients that share the card write Control back without any
care for each other, and the monitor stays enabled all the same: `init` sets its bit, and a client reads
Control for `get_card_info` only when it has passed `init`, so no value written lacks the bit from then
on (`run_monitored`).
-/

namespace Warpshell.Cms
open Interaction

variable {τ : Type} {m : Map} {i : τ} {s s' : Card τ}

/-- The HBM temperature monitor is enabled. -/
def HbmEnabled (control : UInt32) : Prop :=
  control &&& ControlRegBit.hbmTempMonitorEnable.mask ≠ 0

instance (control : UInt32) : Decidable (HbmEnabled control) := inferInstanceAs (Decidable (_ ≠ _))

def KeepsHbm (s s' : Card τ) : Prop := HbmEnabled s.control → HbmEnabled s'.control

/-- The accesses that do not disable the monitor. -/
def HbmAccess (m : Map) (_ : Card τ) (e : Access) : Prop :=
  ∀ v, e = .ctrlWriteU32 (m.reg .control) v → HbmEnabled v

lemma hbm_or {v w : UInt32} (h : HbmEnabled v) : HbmEnabled (v ||| w) :=
  (or_and_ne_zero v w _).mpr (.inl h)

/-- The firmware leaves the monitor enabled. -/
lemma keepsHbm_firmware (fw : Card.Firmware s s') : KeepsHbm s s' := by
  intro h
  cases fw with
  | post => exact h
  | setError => exact h
  | clear =>
    have other : ~~~ControlRegBit.mailboxStatus.mask &&& ControlRegBit.hbmTempMonitorEnable.mask =
        ControlRegBit.hbmTempMonitorEnable.mask := by decide
    show s.control &&& ~~~ControlRegBit.mailboxStatus.mask &&& _ ≠ 0
    rw [UInt32.and_assoc, other]
    exact h

lemma hbmAccess_read {addr : Nat} : HbmAccess m s (.ctrlReadU32 addr) := nofun

/-- An access that does not disable the monitor leaves it enabled. -/
lemma HbmAccess.keeps {e : Access} {r : e.Answer} (g : HbmAccess m s e)
    (an : Card.Answers m i s e r s') : KeepsHbm s s' := by
  intro h
  obtain rfl | ⟨addr, v, rfl⟩ | ⟨addr, v, rfl, rfl⟩ := an.effect
  · exact h
  · exact h
  · by_cases eq : addr = m.reg .control
    · subst eq
      rw [Card.write_control]
      exact g v rfl
    · rwa [Card.write_elsewhere eq]

/-- An `init` that succeeds has enabled the monitor, whatever keeps it enabled happens meanwhile. -/
lemma wp_init_hbm : (Card.world m i KeepsHbm).wp (HbmAccess m) (init m.core)
    (fun o s => o = .ok () → HbmEnabled s.control) s := by
  have stable : (Card.world m i KeepsHbm).Stable fun _ => True := fun _ _ _ _ => trivial
  have stQ : ∀ o : Outcome Error Unit,
      (Card.world m i KeepsHbm).Stable fun s => o = .ok () → HbmEnabled s.control :=
    fun o s s' h keeps ok => keeps (h ok)
  apply card_init trivial stable stQ
  · exact fun _ _ _ => trivial
  · exact fun _ _ _ => nofun
  · intro s _ v eq
    injection eq with eq
    exact absurd eq (m.reg_ne (by decide))
  · exact fun _ _ _ => nofun
  · intro s _
    apply card_setControlBit trivial stable (J := fun _ _ => True) (fun _ => stable) stQ
    · exact fun _ _ => ⟨nofun, fun _ => nofun, trivial⟩
    · have enabled : ∀ v, HbmEnabled (v ||| ControlRegBit.hbmTempMonitorEnable.mask) :=
        fun v => (or_and_ne_zero v _ _).mpr (.inr (by decide))
      refine fun s v _ => ⟨fun v' eq => ?_, fun _ => nofun, fun _ _ => enabled v⟩
      injection eq with _ eq
      exact eq ▸ enabled v

/-- Finding the mailbox free does not disable the monitor. -/
lemma wp_getMailboxOffset_hbm (h : HbmEnabled s.control) :
    (Card.world m i KeepsHbm).wp (HbmAccess m) (getMailboxOffset m.core)
      (World.onOk (fun a s => a = m.mboxOffset ∧ HbmEnabled s.control)
        fun (_ : Outcome Error CardInfo) _ => True) s := by
  have stP : (Card.world m i KeepsHbm).Stable fun s => HbmEnabled s.control :=
    fun s s' h keeps => keeps h
  let K (a : Nat) (s : Card τ) : Prop := a = m.mboxOffset ∧ HbmEnabled s.control
  have stQ : ∀ o, (Card.world m i KeepsHbm).Stable
      (World.onOk K (fun (_ : Outcome Error CardInfo) _ => True) o) := by
    intro o s s' h keeps
    cases o with
    | ok a => exact ⟨h.1, keeps h.2⟩
    | err e => trivial
    | panic => trivial
  refine card_getCmsReg m.locate_control h stP stQ fun s h =>
    ⟨hbmAccess_read, fun _ => trivial, fun v _ => ?_⟩
  by_cases taken : 0 ≠ v &&& ControlRegBit.mailboxStatus.mask
  · rw [if_pos taken]
    exact fun s' e => trivial
  · rw [if_neg taken]
    refine card_getCmsReg m.locate_hostMsgOffset h stP stQ fun s h =>
      ⟨hbmAccess_read, fun _ => trivial, ?_⟩
    intro v holds s' e
    cases holds
    exact ⟨rfl, World.Stable.env stP (s := s.record _) h e⟩

/-- A card info call does not disable the monitor. -/
lemma wp_getCardInfo_hbm (h : HbmEnabled s.control) :
    (Card.world m i KeepsHbm).wp (HbmAccess m) (getCardInfo m.core) (fun _ _ => True) s := by
  have stP : (Card.world m i KeepsHbm).Stable fun s => HbmEnabled s.control :=
    fun s s' h keeps => keeps h
  have stT : ∀ o : Outcome Error CardInfo, (Card.world m i KeepsHbm).Stable fun _ => True :=
    fun _ _ _ _ _ => trivial
  rw [getCardInfo, World.wp_seq]
  apply World.wp_mono (wp_getMailboxOffset_hbm h)
  intro o s h
  cases o with
  | err e => trivial
  | panic => trivial
  | ok a =>
    obtain ⟨eq, h⟩ := h
    subst eq
    refine card_writeWord (i := 0) h stP stT fun s h => ⟨?_, fun _ => ⟨trivial, trivial⟩, ?_⟩
    · intro v eq
      injection eq with eq
      exact absurd eq.symm (Nat.ne_of_lt (m.reg_lt_word .control 0))
    refine card_getCmsReg m.locate_control h stP stT fun s h => ⟨hbmAccess_read, fun _ => trivial, ?_⟩
    intro v holds
    cases holds
    have enabled := hbm_or (w := ControlRegBit.mailboxStatus.mask) h
    refine card_setCmsReg m.locate_control h stP stT fun s _ => ⟨?_, fun _ => ⟨trivial, trivial⟩, ?_⟩
    · intro v' eq
      injection eq with _ eq
      exact eq ▸ enabled
    -- From here on the call only reads.
    refine card_pollReg m.locate_control enabled stP stT fun s h =>
      ⟨hbmAccess_read, fun _ => trivial, ?_⟩
    refine fun v _ => ⟨fun _ j => ?_, fun _ => h⟩
    refine card_getCmsReg m.locate_hostMsgError h stP stT fun s h =>
      ⟨hbmAccess_read, fun _ => trivial, ?_⟩
    intro error _
    by_cases failed : error ≠ 0
    · rw [if_pos failed]
      exact fun s' e => trivial
    · rw [if_neg failed]
      refine card_readWord (i := 0) h stP stT fun s h => ⟨hbmAccess_read, fun _ => trivial, ?_⟩
      rw [World.wp_seq]
      refine World.wp_mono (card_readInfoBytes h stP (fun _ _ h => h) fun _ _ _ => hbmAccess_read) ?_
      intro o s _
      cases o with
      | ok bytes => exact fun s' e => trivial
      | err e => trivial
      | panic => trivial

/-! ## Every run -/

/-- What a client does for the monitor. -/
def Client.Monitored (m : Map) (i : τ) : Client τ → Card τ → Prop
  | .initialising p, s => (Card.world m i KeepsHbm).wp (HbmAccess m) p
    (fun o s => o = .ok () → HbmEnabled s.control) s
  | .stopped _, _ => True
  | .exchanging _ p, s => HbmEnabled s.control ∧
    (Card.world m i KeepsHbm).wp (HbmAccess m) p (fun _ _ => True) s
  | .finished _ _, s => HbmEnabled s.control

/-- The client's `init` has succeeded. -/
def Client.Initialised : Client τ → Prop
  | .initialising _ => False
  | .stopped _ => False
  | .exchanging _ _ => True
  | .finished _ _ => True

/-- After a client's `init`, the monitor is enabled. -/
lemma Client.Monitored.enabled {c : Client τ} (mon : c.Monitored m i s) (past : c.Initialised) :
    HbmEnabled s.control := by
  cases c with
  | initialising p => cases past
  | stopped o => cases past
  | exchanging s₀ p => exact mon.1
  | finished s₀ r => exact mon

/-- A client's step keeps its invariant and leaves the monitor enabled. -/
lemma Client.Monitored.step {c c' : Client τ} (mon : c.Monitored m i s)
    (step : Client.Step m i c s c' s') : c'.Monitored m i s' ∧ KeepsHbm s s' := by
  cases step with
  | init an =>
    have access : HbmAccess m s _ := World.wp_safe mon
    exact ⟨World.wp_step mon (.act an), access.keeps an⟩
  | stop => exact ⟨trivial, id⟩
  | start =>
    have enabled : HbmEnabled s.control := mon s .refl rfl
    exact ⟨⟨enabled, wp_getCardInfo_hbm enabled⟩, id⟩
  | exchange an =>
    have access : HbmAccess m s _ := World.wp_safe mon.2
    exact ⟨⟨access.keeps an mon.1, World.wp_step mon.2 (.act an)⟩, access.keeps an⟩
  | finish => exact ⟨mon.1, id⟩

/-- What others do keeps a client's invariant if it leaves the monitor enabled. -/
lemma Client.Monitored.others {c : Client τ} (mon : c.Monitored m i s) (keeps : KeepsHbm s s') :
    c.Monitored m i s' := by
  cases c with
  | initialising p => exact World.wp_env mon (.single keeps)
  | stopped o => trivial
  | exchanging s₀ p => exact ⟨keeps mon.1, World.wp_env mon.2 (.single keeps)⟩
  | finished s₀ r => exact keeps mon

/-- In every state of every run, each client has done its part for the monitor. -/
theorem run_monitored [DecidableEq τ] {cond : Option τ → Host τ → Host τ → Prop} {S : Host τ}
    (run : Host.Run m cond (Host.start m s) S) : ∀ i, (S.client i).Monitored m i S.card := by
  induction run with
  | refl => exact fun i => wp_init_hbm
  | @tail S S' _ step ih =>
    obtain ⟨who, step, _⟩ := step
    have keeps : KeepsHbm S.card S'.card := by
      cases step with
      | firmware fw => exact keepsHbm_firmware fw
      | @client _ _ _ j _ step => exact ((ih j).step step).2
    apply step.each (P := fun i c s => c.Monitored m i s) ih
    · exact fun i c s _ step => ((ih i).step step).1
    · exact fun i _ mon => mon.others keeps

end Warpshell.Cms
