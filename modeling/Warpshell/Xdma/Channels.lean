import Warpshell.Base
import Warpshell.Files

/-!
# Channels

The channels of `xdma/mod.rs` and the once-cells that hold them. `get_or_init` opens its device nodes
before it looks into the cell, so what it opens is closed again when the cell holds a channel already.
`ctrl_getOrInit` and `dma_getOrInit` say all that a call can do, and `Got` what that means for the cell.
-/

namespace Warpshell.Xdma
open Files

/-- The file system, as the driver's process sees it. -/
abbrev Host : Type := Files.System String

/-- Readable and writable user channel represented by a single file. -/
structure CtrlChannel where
  cdev : File String
  deriving DecidableEq, Repr

/-- DMA channel represented by a couple of files, one for reading and another for writing. -/
structure DmaChannel where
  h2cCdev : File String
  c2hCdev : File String
  deriving DecidableEq, Repr

structure OnceCellCtrlChannel where
  cdevPath : String
  channel : Option CtrlChannel
  deriving DecidableEq, Repr

structure OnceCellDmaChannel where
  h2cCdevPath : String
  c2hCdevPath : String
  channel : Option DmaChannel
  deriving DecidableEq, Repr

def ctrlChannel : OnceCellCtrlChannel := ⟨"/dev/xdma0_user", none⟩
def dmaChannel0 : OnceCellDmaChannel := ⟨"/dev/xdma0_h2c_0", "/dev/xdma0_c2h_0", none⟩

namespace OnceCellCtrlChannel

def getOrInit (self : OnceCellCtrlChannel) (s : Host) :
    Except XdmaError CtrlChannel × OnceCellCtrlChannel × Host :=
  match s.openFile .readWrite self.cdevPath with
  | (.error e, s) => (.error (.devNode (.os e)), self, s)
  | (.ok cdev, s) =>
    match self.channel with
    -- The closure that would have initialised the cell is dropped, and the file with it.
    | some channel => (.ok channel, self, s.close)
    | none => (.ok ⟨cdev⟩, { self with channel := some ⟨cdev⟩ }, s)

/-- The device node can be opened. -/
def Connects (self : OnceCellCtrlChannel) (s : Host) : Prop := s.Opens .readWrite self.cdevPath

end OnceCellCtrlChannel

namespace OnceCellDmaChannel

def getOrInit (self : OnceCellDmaChannel) (s : Host) :
    Except XdmaError DmaChannel × OnceCellDmaChannel × Host :=
  match s.openFile .fileCreate self.h2cCdevPath with
  | (.error e, s) => (.error (.devNode (.os e)), self, s)
  | (.ok h2cCdev, s) =>
    match s.openFile .fileOpen self.c2hCdevPath with
    -- The first file is dropped; what opening it did to the files stays.
    | (.error e, s) => (.error (.devNode (.os e)), self, s.close)
    | (.ok c2hCdev, s) =>
      match self.channel with
      | some channel => (.ok channel, self, s.close.close)
      | none => (.ok ⟨h2cCdev, c2hCdev⟩, { self with channel := some ⟨h2cCdev, c2hCdev⟩ }, s)

/-- The host-to-card node can be created or opened, and then the card-to-host node can be opened. -/
def Connects (self : OnceCellDmaChannel) (s : Host) : Prop :=
  s.Opens .fileCreate self.h2cCdevPath ∧
    (s.openFile .fileCreate self.h2cCdevPath).2.Opens .fileOpen self.c2hCdevPath

end OnceCellDmaChannel

/-- A call for the control channel fails and changes nothing, or it returns the channel that the cell
    holds from then on. The files stay as they are. -/
lemma ctrl_getOrInit (self : OnceCellCtrlChannel) (s : Host) :
    (¬ self.Connects s ∧ ∃ e, self.getOrInit s = (.error (.devNode e), self, s)) ∨
    (self.Connects s ∧ ∃ c s', self.getOrInit s = (.ok c, { self with channel := some c }, s') ∧
      (∀ c', self.channel = some c' → c = c') ∧ s'.fs = s.fs) := by
  obtain ⟨closed, e, eq⟩ | ⟨pos, node, found, eq⟩ :=
    openFile_cases s .readWrite self.cdevPath
  · refine .inl ⟨closed, .os e, ?_⟩
    rw [OnceCellCtrlChannel.getOrInit, eq]
  · refine .inr ⟨⟨pos, node, found⟩, ?_⟩
    rw [OnceCellCtrlChannel.getOrInit, eq, set_of_reach_open ⟨rfl, rfl⟩ found]
    obtain ⟨path, channel⟩ := self
    cases channel with
    | some c => exact ⟨c, _, rfl, fun _ same => Option.some.inj same, rfl⟩
    | none => exact ⟨_, _, rfl, nofun, rfl⟩

/-- A call for the DMA channel fails in its first open and changes nothing, or in its second open and
    leaves what the first one did, or it returns the channel that the cell holds from then on. -/
lemma dma_getOrInit (self : OnceCellDmaChannel) (s : Host) :
    (¬ s.Opens .fileCreate self.h2cCdevPath ∧
      ∃ e, self.getOrInit s = (.error (.devNode e), self, s)) ∨
    (∃ node, 0 < s.spare ∧ s.fs.reach .fileCreate self.h2cCdevPath = .ok node ∧ ∃ s',
      s'.fs = s.fs.set self.h2cCdevPath node ∧ ¬ self.Connects s ∧
        ∃ e, self.getOrInit s = (.error (.devNode e), self, s')) ∨
    (self.Connects s ∧ ∃ c s', self.getOrInit s = (.ok c, { self with channel := some c }, s') ∧
      ∀ c', self.channel = some c' → c = c') := by
  obtain ⟨closed, e, eq⟩ | ⟨pos, node, found, eq⟩ :=
    openFile_cases s .fileCreate self.h2cCdevPath
  · refine .inl ⟨closed, .os e, ?_⟩
    rw [OnceCellDmaChannel.getOrInit, eq]
  · simp only [OnceCellDmaChannel.Connects, OnceCellDmaChannel.getOrInit, eq]
    obtain ⟨closed, e, eq'⟩ | ⟨pos', node', found', eq'⟩ :=
      openFile_cases ⟨s.fs.set self.h2cCdevPath node, s.spare - 1, s.opened + 1⟩ .fileOpen
        self.c2hCdevPath
    · refine .inr (.inl ⟨node, pos, found, ?_⟩)
      simp only [eq']
      exact ⟨_, rfl, fun connects => closed connects.2, .os e, rfl⟩
    · refine .inr (.inr ⟨⟨⟨pos, node, found⟩, pos', node', found'⟩, ?_⟩)
      simp only [eq']
      obtain ⟨h2c, c2h, channel⟩ := self
      cases channel with
      | some c => exact ⟨c, _, rfl, fun _ same => Option.some.inj same⟩
      | none => exact ⟨_, _, rfl, nofun⟩

/-! ## What a cell keeps -/

/-- A call that may connect, with what the cell held before, the result, and what the cell holds after. -/
inductive Got {α : Type} (connects : Prop) (held : Option α) :
    Except XdmaError α → Option α → Prop where
  | failed {e} : ¬ connects → Got connects held (.error e) held
  | ok {a} : connects → (∀ a', held = some a' → a = a') → Got connects held (.ok a) (some a)

section
variable {α : Type} {connects : Prop} {held after : Option α} {result : Except XdmaError α} {a : α}

/-- A cell that holds a channel still holds it after the call. -/
lemma Got.keeps (got : Got connects held result after) (eq : held = some a) : after = some a := by
  cases got with
  | failed => exact eq
  | ok _ same => rw [same a eq]

/-- A channel that was returned is in the cell. -/
lemma Got.returned (got : Got connects held result after) (eq : result = .ok a) : after = some a := by
  cases got with
  | failed => cases eq
  | ok =>
    cases eq
    rfl

/-- Where the cell holds what was returned before, a call returns it again exactly if it connects. -/
lemma Got.again {before : α → Prop} (got : Got connects held result after)
    (holds : ∀ a, before a → held = some a) :
    (∀ a, before a → result = .ok a) ↔ ((∃ a, before a) → connects) := by
  cases got with
  | failed closed =>
    apply Iff.intro
    · intro again ⟨a, was⟩
      cases again a was
    · intro opens a was
      exact absurd (opens ⟨a, was⟩) closed
  | ok opens same =>
    apply Iff.intro
    · intro _ _
      exact opens
    · intro _ a was
      rw [same a (holds a was)]

end

/-- What a call does to the cell of a control channel. -/
lemma OnceCellCtrlChannel.got (self : OnceCellCtrlChannel) (s : Host) : Got (self.Connects s)
    self.channel (self.getOrInit s).1 (self.getOrInit s).2.1.channel := by
  obtain ⟨closed, e, eq⟩ | ⟨connects, c, s', eq, same, _⟩ := ctrl_getOrInit self s
  · rw [eq]
    exact .failed closed
  · rw [eq]
    exact .ok connects same

/-- What a call does to the cell of a DMA channel. -/
lemma OnceCellDmaChannel.got (self : OnceCellDmaChannel) (s : Host) : Got (self.Connects s)
    self.channel (self.getOrInit s).1 (self.getOrInit s).2.1.channel := by
  obtain ⟨closed, e, eq⟩ | ⟨_, _, _, s', _, closed, e, eq⟩ | ⟨connects, d, s', eq, same⟩ :=
    dma_getOrInit self s
  · rw [eq]
    exact .failed fun connects => closed connects.1
  · rw [eq]
    exact .failed closed
  · rw [eq]
    exact .ok connects same

end Warpshell.Xdma
