import Warpshell.Xdma.Channels

/-!
# Connecting to a device

`OnceCellDmaChannel::get_or_init` opens the host-to-card node as a file to be created or truncated. It
connects to a device, or fails and leaves no trace, except where this open makes a file or empties one
(`faithful_iff`). The control channel is opened without such effects (`ctrl_faithful`).
-/

namespace Warpshell.Xdma
open Files

def Present (fs : FileSystem String) (path : String) : Prop := ∃ node, fs.node path = some node

/-- There is something to read at `path`. -/
def Readable (fs : FileSystem String) (path : String) : Prop :=
  ∃ node, fs.node path = some node ∧ node.refuses ⟨true, false⟩ = none

/-- A call returns a channel only if both nodes were there before, and when it fails, the files and the
    cell are as they were. -/
def Faithful (self : OnceCellDmaChannel) (s : Host) : Prop :=
  ∀ r self' s', self.getOrInit s = (r, self', s') →
    ((∃ c, r = .ok c) → Present s.fs self.h2cCdevPath ∧ Present s.fs self.c2hCdevPath) ∧
    ((∃ e, r = .error e) → s'.fs = s.fs ∧ self' = self)

section
variable {self : OnceCellDmaChannel} {s : Host} {fs : FileSystem String} {path other : String}
  {node node' : Node}

/-- Truncating a file does not change what can be read. -/
lemma readable_set (found : fs.node path = some node) (same : node'.refuses = node.refuses) :
    Readable (fs.set path node') other ↔ Readable fs other := by
  by_cases eq : other = path
  · subst eq
    rw [Readable, Readable, set_node, found]
    simp [same]
  · rw [Readable, Readable, set_node_of_ne eq]

/-- Where the first node opens, a call connects exactly if the second one can be opened too. -/
lemma connects_iff (found : s.fs.node self.h2cCdevPath = some node)
    (opens : s.Opens .fileCreate self.h2cCdevPath) :
    self.Connects s ↔ 2 ≤ s.spare ∧ Readable s.fs self.c2hCdevPath := by
  obtain ⟨closed, _⟩ | ⟨_, node', found', eq⟩ :=
    openFile_cases s .fileCreate self.h2cCdevPath
  · exact absurd opens closed
  · obtain ⟨_, rfl⟩ := (reach_existing found).mp found'
    have reads : Readable (s.fs.set self.h2cCdevPath node.truncated) self.c2hCdevPath ↔
        Readable s.fs self.c2hCdevPath := readable_set found node.truncated_refuses
    rw [OnceCellDmaChannel.Connects, eq, ← reads]
    show _ ∧ 0 < s.spare - 1 ∧ _ ↔ _
    simp only [reach_open (o := .fileOpen) ⟨rfl, rfl⟩]
    apply Iff.intro
    · intro both
      obtain ⟨_, left, readable⟩ := both
      exact ⟨by omega, readable⟩
    · intro both
      obtain ⟨two, readable⟩ := both
      exact ⟨opens, by omega, readable⟩

/-- A call that connects has found the card-to-host node. -/
lemma Present.of_connects (connects : self.Connects s) (found : s.fs.node self.h2cCdevPath = some node) :
    Present s.fs self.c2hCdevPath := by
  obtain ⟨_, node', found', _⟩ := (connects_iff found connects.1).mp connects
  exact ⟨node', found'⟩

end

/-- A call connects to a device or leaves no trace exactly when the host-to-card node cannot be opened
    for writing nor created, or else it is there and, unless it is a device or an empty file, the
    card-to-host node can be opened as well. -/
theorem faithful_iff (self : OnceCellDmaChannel) (s : Host) :
    Faithful self s ↔ ¬ s.Opens .fileCreate self.h2cCdevPath ∨
      ∃ node, s.fs.node self.h2cCdevPath = some node ∧
        (node.truncated = node ∨ 2 ≤ s.spare ∧ Readable s.fs self.c2hCdevPath) := by
  obtain ⟨closed, e, eq⟩ | ⟨node', pos, found', s', fs', closed, e, eq⟩ | ⟨connects, c, s', eq, _⟩ :=
    dma_getOrInit self s
  · refine ⟨fun _ => .inl closed, fun _ r self' s' got => ?_⟩
    rw [eq] at got
    cases got
    exact ⟨nofun, fun _ => ⟨rfl, rfl⟩⟩
  · -- The second open failed, so what the first one did to the files is what matters.
    have opens : s.Opens .fileCreate self.h2cCdevPath := ⟨pos, node', found'⟩
    have kept : Faithful self s ↔ s.fs.node self.h2cCdevPath = some node' := by
      rw [← set_eq_iff, ← fs']
      apply Iff.intro
      · intro faithful
        exact ((faithful _ _ _ eq).2 ⟨_, rfl⟩).1
      · intro same r self' s'' got
        rw [eq] at got
        cases got
        exact ⟨nofun, fun _ => ⟨same, rfl⟩⟩
    rw [kept]
    apply Iff.intro
    · intro found
      refine .inr ⟨node', found, .inl ?_⟩
      exact ((reach_existing found).mp found').2.symm
    · intro ends
      obtain closed' | ⟨node, found, same | readable⟩ := ends
      · exact absurd opens closed'
      · rw [found, ((reach_existing found).mp found').2]
        exact congrArg some same.symm
      · exact absurd ((connects_iff found opens).mpr readable) closed
  · -- Both opens succeeded, so the card-to-host node was there, and the other one may have been made.
    have kept : Faithful self s ↔ Present s.fs self.h2cCdevPath := by
      apply Iff.intro
      · intro faithful
        exact ((faithful _ _ _ eq).1 ⟨c, rfl⟩).1
      · intro ⟨node, found⟩ r self' s'' got
        rw [eq] at got
        cases got
        exact ⟨fun _ => ⟨⟨node, found⟩, .of_connects connects found⟩, nofun⟩
    rw [kept]
    apply Iff.intro
    · intro ⟨node, found⟩
      exact .inr ⟨node, found, .inr ((connects_iff found connects.1).mp connects)⟩
    · intro ends
      obtain closed | ⟨node, found, _⟩ := ends
      · exact absurd connects.1 closed
      · exact ⟨node, found⟩

/-- A directory without device nodes where files may be created. -/
def emptyDir : FileSystem String := ⟨fun _ => none, fun _ => .ok fun _ => none⟩

/-- Neither node is there: the call fails and leaves a regular file where the device should be. -/
theorem absent_device_created :
    (dmaChannel0.getOrInit ⟨emptyDir, 8, 0⟩).1 = .error (.devNode (.os enoent)) ∧
    ¬ Present emptyDir dmaChannel0.h2cCdevPath ∧
    (∃ node, (dmaChannel0.getOrInit ⟨emptyDir, 8, 0⟩).2.2.fs.node dmaChannel0.h2cCdevPath = some node ∧
      node.content = .regular []) ∧
    ¬ Faithful dmaChannel0 ⟨emptyDir, 8, 0⟩ := by
  refine ⟨rfl, ?_, ⟨_, rfl, rfl⟩, ?_⟩
  · intro ⟨_, eq⟩
    cases eq
  · intro faithful
    have same := ((faithful _ _ _ rfl).2 ⟨_, rfl⟩).1
    have found := congrFun (congrArg FileSystem.node same) dmaChannel0.h2cCdevPath
    cases found

/-- The control channel is connected to a device that is there, and no call changes the files. -/
theorem ctrl_faithful (self : OnceCellCtrlChannel) (s : Host) :
    ((∃ c, (self.getOrInit s).1 = .ok c) → Present s.fs self.cdevPath) ∧
    ((∃ e, (self.getOrInit s).1 = .error e) → (self.getOrInit s).2 = (self, s)) ∧
    (self.getOrInit s).2.2.fs = s.fs := by
  obtain ⟨_, e, eq⟩ | ⟨⟨_, node, found⟩, c, s', eq, _, same⟩ := ctrl_getOrInit self s
  · rw [eq]
    exact ⟨nofun, fun _ => rfl, rfl⟩
  · rw [eq]
    exact ⟨fun _ => ⟨node, ((reach_open ⟨rfl, rfl⟩).mp found).1⟩, nofun, same⟩

end Warpshell.Xdma
