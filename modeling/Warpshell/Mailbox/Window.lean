import Warpshell.Mailbox.Payload
import Warpshell.Shells.XilinxU55nXdmaStd

/-!
# The window of the card management system

The mailbox lies where the HostMsgOffset register says it does. Nothing checks that value, so a card
that gives one outside of its documented range sends the driver elsewhere: into other registers of the
core, or past its window in the address map of the shell. `keptIn_iff` says that values in that range
are all it takes for `get_card_info` to stay inside.
-/

namespace Warpshell.U55n
open Interaction Cms

/-! ## The address map -/

/-- The peripherals behind the control channel (`M_AXI_LITE` of `xdma_gen3x8/shell.bd`). -/
inductive Peripheral where
  | shellAxilCtrl
  | cms
  | qspi
  | hbicap
  | mgmtRam
  | ctrlFirewall
  | dmaFirewall
  | dfxDecoupler
  deriving DecidableEq, Repr

structure Segment where
  offset : Nat
  range : Nat
  deriving DecidableEq, Repr

def segment : Peripheral → Segment
  | .shellAxilCtrl => ⟨0x00000000, 64 * 1024 * 1024⟩
  | .cms => ⟨0x04000000, 256 * 1024⟩
  | .qspi => ⟨0x04040000, 64 * 1024⟩
  | .hbicap => ⟨0x04050000, 64 * 1024⟩
  | .mgmtRam => ⟨0x04060000, 4 * 1024⟩
  | .ctrlFirewall => ⟨0x04070000, 64 * 1024⟩
  | .dmaFirewall => ⟨0x04080000, 64 * 1024⟩
  | .dfxDecoupler => ⟨0x04090000, 64 * 1024⟩

/-- The four bytes of a register access lie in the segment of the peripheral. -/
def Within (p : Peripheral) : Access → Prop
  | .ctrlReadU32 addr =>
    (segment p).offset ≤ addr ∧ addr + 4 ≤ (segment p).offset + (segment p).range
  | .ctrlWriteU32 addr _ =>
    (segment p).offset ≤ addr ∧ addr + 4 ≤ (segment p).offset + (segment p).range
  | _ => False

/-- Some byte of the register accessed belongs to the peripheral. -/
def Touches (p : Peripheral) : Access → Prop
  | .ctrlReadU32 addr =>
    (segment p).offset < addr + 4 ∧ addr < (segment p).offset + (segment p).range
  | .ctrlWriteU32 addr _ =>
    (segment p).offset < addr + 4 ∧ addr < (segment p).offset + (segment p).range
  | _ => False

instance (p : Peripheral) : DecidablePred (Within p)
  | .ctrlReadU32 _ => inferInstanceAs (Decidable (_ ∧ _))
  | .ctrlWriteU32 _ _ => inferInstanceAs (Decidable (_ ∧ _))
  | .dmaRead _ _ => inferInstanceAs (Decidable False)
  | .dmaWrite _ _ => inferInstanceAs (Decidable False)

/-- Two peripherals' segments do not overlap. -/
lemma segments_disjoint {p q : Peripheral} (ne : p ≠ q) :
    (segment p).offset + (segment p).range ≤ (segment q).offset ∨
      (segment q).offset + (segment q).range ≤ (segment p).offset := by
  cases p <;> cases q
  all_goals first
    | exact absurd rfl ne
    | decide

/-- An access within one segment touches no other. -/
lemma Within.untouched {p q : Peripheral} {e : Access} (w : Within p e) (ne : q ≠ p) :
    ¬ Touches q e := by
  intro touches
  have disjoint := segments_disjoint ne
  cases e with
  | ctrlReadU32 addr =>
    obtain ⟨low, high⟩ := w
    obtain ⟨above, below⟩ := touches
    omega
  | ctrlWriteU32 addr v =>
    obtain ⟨low, high⟩ := w
    obtain ⟨above, below⟩ := touches
    omega
  | dmaRead addr len => exact touches
  | dmaWrite addr buf => exact touches

/-! ## Offsets -/

/-- The documented range of HostMsgOffset. -/
def ValidOffset (v : UInt32) : Prop := 0x1000 ≤ v.toNat ∧ v.toNat ≤ 0x1ffc

instance : DecidablePred ValidOffset := fun _ => inferInstanceAs (Decidable (_ ∧ _))

/-- HostMsgOffset was read. -/
def offsetRead (v : UInt32) : CardEvent :=
  ⟨.ctrlReadU32 (cms.baseAddr + CmsReg.hostMsgOffset.offset), .ok v⟩

/-- An access to the mailbox at the offset `v`: its header, or a word of its payload. -/
def MailboxAccess (v : UInt32) (e : Access) : Prop :=
  ∃ i ≤ 1024, e = .ctrlReadU32 (cms.baseAddr + (0x28000 + v.toNat + 4 * i)) ∨
    ∃ w, e = .ctrlWriteU32 (cms.baseAddr + (0x28000 + v.toNat + 4 * i)) w

/-- The card does not lead the driver out of its core. -/
structure KeptIn (t : List CardEvent) (o : Outcome Cms.Error CardInfo) : Prop where
  within : ∀ ev ∈ t, Within .cms ev.1
  elsewhere : ∀ p, p ≠ .cms → ∀ ev ∈ t, ¬ Touches p ev.1
  /-- An offset outside of the range is an error, before the mailbox is accessed. -/
  refused : ∀ before v after, t = before ++ offsetRead v :: after → ¬ ValidOffset v →
    (∃ e, o = .err e) ∧ ∀ ev ∈ after, ¬ MailboxAccess v ev.1

section
variable {core : BaseParam} {t : List CardEvent} {mboxOffset : Nat}

/-- The reads of the word loop are of consecutive words. -/
lemma mem_wordReads {offset : Nat} {ws : List UInt32} {ev : CardEvent}
    (mem : ev ∈ wordReads core offset ws) :
    ∃ i < ws.length, ev.1 = .ctrlReadU32 (core.baseAddr + (offset + 4 * i)) := by
  induction ws generalizing offset with
  | nil => cases mem
  | cons w ws ih =>
    rcases List.mem_cons.mp mem with rfl | mem
    · exact ⟨0, Nat.succ_pos _, rfl⟩
    · obtain ⟨i, lt, eq⟩ := ih mem
      refine ⟨i + 1, Nat.succ_lt_succ lt, ?_⟩
      rw [eq, show offset + 4 * (i + 1) = offset + 4 + 4 * i by omega]

/-- The words of a full payload are among the addresses of the call. -/
lemma visits_word {i : Nat} (le : i ≤ 1024) :
    Visits core mboxOffset (.ctrlReadU32 (core.baseAddr + (mboxOffset + 4 * i))) :=
  ⟨_, .inr (.inr ⟨i, le, rfl⟩), .inl rfl⟩

/-- Reading the response stays among the addresses of the call. -/
lemma run_readResponse_visits {o : Outcome Cms.Error CardInfo}
    (run : Run (readResponse core mboxOffset) t o) : ∀ ev ∈ t, Visits core mboxOffset ev.1 := by
  have next : ∀ i, mboxOffset + 4 + 4 * i = mboxOffset + 4 * (i + 1) := fun i => by omega
  obtain ⟨header, ws, rfl, payload⟩ | ⟨e, rfl, rfl⟩ := run_readResponse run
  · have short : ((header &&& 0xfff).toNat + 3) / 4 ≤ 1024 := by
      have le : (header &&& 0xfff).toNat ≤ 0xfff := by
        rw [UInt32.toNat_and]
        exact Nat.and_le_right
      omega
    have words : ∀ {words : List UInt32}, words.length ≤ 1024 →
        ∀ ev ∈ wordReads core (mboxOffset + 4) words, Visits core mboxOffset ev.1 := by
      intro words le ev mem
      obtain ⟨i, lt, eq⟩ := mem_wordReads mem
      rw [eq, next]
      exact visits_word (by omega)
    refine List.forall_mem_cons.mpr ⟨visits_word (Nat.zero_le _), ?_⟩
    cases payload with
    | complete size => exact words (by omega)
    | failed size =>
      intro ev mem
      rcases List.mem_append.mp mem with mem | mem
      · exact words (by omega) ev mem
      · rw [List.mem_singleton.mp mem, next]
        exact visits_word (by omega)
  · intro ev mem
    rw [List.mem_singleton.mp mem]
    exact visits_word (Nat.zero_le _)

/-- A call does not get an offset, or it writes to the mailbox next and stays there. -/
lemma run_getCardInfo {o : Outcome Cms.Error CardInfo} (run : Run (getCardInfo core) t o) :
    (∃ control v r rest,
      t = ⟨.ctrlReadU32 (core.baseAddr + CmsReg.control.offset), .ok control⟩ ::
        ⟨.ctrlReadU32 (core.baseAddr + CmsReg.hostMsgOffset.offset), .ok v⟩ ::
        ⟨.ctrlWriteU32 (core.baseAddr + (0x28000 + v.toNat)) cardInfoRequest, r⟩ :: rest ∧
      ∀ ev ∈ rest, Visits core (0x28000 + v.toNat) ev.1) ∨
    ∀ ev ∈ t, ev.1 = .ctrlReadU32 (core.baseAddr + CmsReg.control.offset) ∨
      ∃ e, ev = ⟨.ctrlReadU32 (core.baseAddr + CmsReg.hostMsgOffset.offset), .error e⟩ := by
  rw [getCardInfo_eq, requestCardInfo] at run
  simp only [Io.bind_assoc, Io.pure_bind] at run
  obtain ⟨t₁, t₂, mboxOffset, rfl, offset, rest⟩ | ⟨e, rfl, offset⟩ | ⟨_, offset⟩ := Io.run_seq.mp run
  · have visits : ∀ ev ∈ t₂, Visits core mboxOffset ev.1 := by
      obtain ⟨t₁, t₂, _, rfl, post, rest⟩ | ⟨e, _, post⟩ | ⟨_, post⟩ := Io.run_seq.mp rest
      · intro ev mem
        rcases List.mem_append.mp mem with mem | mem
        · exact (run_postRequest post).2 ev mem
        · exact run_readResponse_visits rest ev mem
      · exact (run_postRequest post).2
      · exact (run_postRequest post).2
    obtain ⟨r, t', rfl, _⟩ := Run.first rest
    obtain ⟨control, v, rfl, eq⟩ | ⟨⟨e, eq, _⟩, _⟩ := run_getMailboxOffset offset
    · cases eq
      exact .inl ⟨control, v, r, t', rfl, fun ev mem => visits ev (List.mem_cons_of_mem _ mem)⟩
    · cases eq
  · obtain ⟨_, _, _, eq⟩ | ⟨_, reads⟩ := run_getMailboxOffset offset
    · cases eq
    · exact .inr reads
  · obtain ⟨_, _, _, eq⟩ | ⟨_, reads⟩ := run_getMailboxOffset offset
    · cases eq
    · exact .inr reads

/-- With a valid offset, the addresses of the call lie within the CMS segment. -/
lemma visits_within {v : UInt32} {e : Access} (valid : ValidOffset v)
    (visits : Visits cms (0x28000 + v.toNat) e) : Within .cms e := by
  obtain ⟨offset, place, eq⟩ := visits
  obtain ⟨low, high⟩ := valid
  have inside : offset + 4 ≤ 256 * 1024 := by
    obtain rfl | rfl | ⟨i, le, rfl⟩ := place
    · decide
    · decide
    · omega
  have bounds : 0x04000000 ≤ cms.baseAddr + offset ∧
      cms.baseAddr + offset + 4 ≤ 0x04000000 + 256 * 1024 := by
    rw [show cms.baseAddr = 0x04000000 from rfl]
    omega
  obtain rfl | ⟨w, rfl⟩ := eq
  · exact bounds
  · exact bounds

/-- Behind a valid offset, the register of the offset is not read again. -/
lemma not_visits_offset {v w : UInt32} (valid : ValidOffset v) :
    ¬ Visits cms (0x28000 + v.toNat) (offsetRead w).1 := by
  intro ⟨offset, place, eq⟩
  obtain ⟨low, high⟩ := valid
  have same : CmsReg.hostMsgOffset.offset = offset := by
    obtain eq | ⟨_, eq⟩ := eq
    · exact Nat.add_left_cancel (Access.ctrlReadU32.inj eq)
    · cases eq
  have value : CmsReg.hostMsgOffset.offset = 0x28300 := rfl
  obtain eq | eq | ⟨i, le, eq⟩ := place
  · exact absurd (same.trans eq) (by decide)
  · exact absurd (same.trans eq) (by decide)
  · omega

end

/-- Whatever the card returns, `get_card_info` stays in the window of the core and refuses an offset
    outside of the documented range exactly when every offset that it reads is in that range. -/
theorem keptIn_iff (t : List CardEvent) (o : Outcome Cms.Error CardInfo)
    (run : Run (getCardInfo cms) t o) : KeptIn t o ↔ ∀ v, offsetRead v ∈ t → ValidOffset v := by
  have control : ∀ v, (offsetRead v).1 ≠ .ctrlReadU32 (cms.baseAddr + CmsReg.control.offset) := by
    intro v eq
    exact absurd (Access.ctrlReadU32.inj eq) (by decide)
  have registers : Within .cms (.ctrlReadU32 (cms.baseAddr + CmsReg.control.offset)) ∧
      Within .cms (.ctrlReadU32 (cms.baseAddr + CmsReg.hostMsgOffset.offset)) := by decide
  have kept : (∀ ev ∈ t, Within .cms ev.1) → (∀ v, offsetRead v ∈ t → ValidOffset v) → KeptIn t o := by
    intro within valid
    refine ⟨within, fun p ne ev mem => (within ev mem).untouched ne, fun before v after eq invalid => ?_⟩
    refine absurd (valid v ?_) invalid
    rw [eq]
    exact List.mem_append_right _ List.mem_cons_self
  obtain ⟨c, v, r, rest, rfl, visits⟩ | reads := run_getCardInfo run
  · -- The offset is read, and the header of the request is written there.
    apply Iff.intro
    · intro kept w mem
      have valid : ValidOffset v := by
        by_contra invalid
        refine (kept.refused [_] v _ rfl invalid).2 _ List.mem_cons_self ?_
        exact ⟨0, Nat.zero_le _, .inr ⟨_, rfl⟩⟩
      rcases List.mem_cons.mp mem with eq | mem
      · exact absurd (congrArg Sigma.fst eq) (control w)
      rcases List.mem_cons.mp mem with eq | mem
      · cases eq
        exact valid
      rcases List.mem_cons.mp mem with eq | mem
      · cases eq
      · exact absurd (visits _ mem) (not_visits_offset valid)
    · intro all
      refine kept ?_ all
      have valid := all v (List.mem_cons_of_mem _ List.mem_cons_self)
      have header : Visits cms (0x28000 + v.toNat)
          (.ctrlWriteU32 (cms.baseAddr + (0x28000 + v.toNat)) cardInfoRequest) :=
        ⟨_, .inr (.inr ⟨0, Nat.zero_le _, rfl⟩), .inr ⟨_, rfl⟩⟩
      refine List.forall_mem_cons.mpr ⟨registers.1, List.forall_mem_cons.mpr ⟨registers.2, ?_⟩⟩
      refine List.forall_mem_cons.mpr ⟨visits_within valid header, fun ev mem => ?_⟩
      exact visits_within valid (visits ev mem)
  · -- No offset was read, and the two registers of the core are all that was.
    have unread : ∀ v, offsetRead v ∉ t := by
      intro v mem
      obtain eq | ⟨e, eq⟩ := reads _ mem
      · exact control v eq
      · cases eq
    refine ⟨fun _ v mem => absurd mem (unread v), kept fun ev mem => ?_⟩
    obtain eq | ⟨e, rfl⟩ := reads ev mem
    · rw [eq]
      exact registers.1
    · exact registers.2

/-- An offset in the range, and then the link fails. -/
theorem keptIn_iff_default : ∃ t o, Run (getCardInfo cms) t o ∧ KeptIn t o := by
  let error : BasedError := .xdmaError (.ctrlWriteFailed (.os 5))
  have run : Run (getCardInfo cms)
      [⟨.ctrlReadU32 (cms.baseAddr + CmsReg.control.offset), .ok 0⟩, offsetRead 0x1000,
        ⟨.ctrlWriteU32 (cms.baseAddr + 0x29000) cardInfoRequest, .error error⟩]
      (.err (.basedError error)) := .act (.act (.act .ret))
  refine ⟨_, _, run, (keptIn_iff _ _ run).mpr fun v mem => ?_⟩
  have value : v = 0x1000 := by
    rcases List.mem_cons.mp mem with eq | mem
    · exact absurd (Access.ctrlReadU32.inj (congrArg Sigma.fst eq)) (by decide)
    rcases List.mem_cons.mp mem with eq | mem
    · cases eq
      rfl
    · cases List.mem_singleton.mp mem
  rw [value]
  decide

/-- The card gives the distance from the mailbox base to the Control register of the configuration
    port, and the header of the request is written there. -/
theorem offset_leads_to_hbicap : ∃ t o, Run (getCardInfo cms) t o ∧
    ⟨.ctrlWriteU32 0x0405010c cardInfoRequest, .ok ()⟩ ∈ t ∧
    0x0405010c = hbicap.ctrlIf.baseAddr + Hbicap.Reg.control.offset ∧ ¬ KeptIn t o := by
  let error : BasedError := .xdmaError (.ctrlReadFailed (.os 5))
  let header : CardEvent := ⟨.ctrlWriteU32 0x0405010c cardInfoRequest, .ok ()⟩
  have run : Run (getCardInfo cms)
      [⟨.ctrlReadU32 (cms.baseAddr + CmsReg.control.offset), .ok 0⟩, offsetRead 0x2810c, header,
        ⟨.ctrlReadU32 (cms.baseAddr + CmsReg.control.offset), .error error⟩]
      (.err (.basedError error)) := .act (.act (.act (.act .ret)))
  refine ⟨_, _, run, by simp [header], rfl, fun kept => ?_⟩
  exact absurd (kept.within header (by simp)) (by decide)

end Warpshell.U55n
