import Mathlib.Logic.Function.Basic
import Mathlib.Tactic.Common

/-!
# Files

Opening a file by its path, and what that does to the file system: an open may create a regular file
where there is nothing, may truncate a regular file, and takes a descriptor. `openFile_cases` says all
that it can do, and `reach_existing` and `reach_open` what it finds.
-/

namespace Warpshell.Files

variable {Path : Type}

/-- What an open could change: the bytes of a regular file. A device or a directory has none. -/
inductive Content where
  | regular (bytes : List UInt8)
  | special
  deriving DecidableEq, Repr

structure Mode where
  read : Bool
  write : Bool
  deriving DecidableEq, Repr

/-- Why an open in some mode is refused, if it is: the error number. -/
abbrev Permissions : Type := Mode → Option Int

structure Node where
  content : Content
  refuses : Permissions

structure FileSystem (Path : Type) where
  node : Path → Option Node
  /-- The permissions of a file that is created there, or why none can be. -/
  creates : Path → Except Int Permissions

structure OpenOptions where
  mode : Mode
  create : Bool
  truncate : Bool
  deriving DecidableEq, Repr

/-- For reading and writing what is there. -/
def OpenOptions.readWrite : OpenOptions := ⟨⟨true, true⟩, false, false⟩

/-- For writing a file that is created or truncated (Rust `File::create`). -/
def OpenOptions.fileCreate : OpenOptions := ⟨⟨false, true⟩, true, true⟩

/-- For reading what is there (Rust `File::open`). -/
def OpenOptions.fileOpen : OpenOptions := ⟨⟨true, false⟩, false, false⟩

/-- An open file. The serial number tells it from all others. -/
structure File (Path : Type) where
  path : Path
  mode : Mode
  serial : Nat
  deriving DecidableEq, Repr

/-- The file system as a process sees it, with the number of descriptors that the process may still
    take and the number of opens so far. -/
structure System (Path : Type) where
  fs : FileSystem Path
  spare : Nat
  opened : Nat

/-- No such file or directory. -/
def enoent : Int := 2

/-- Permission denied. -/
def eacces : Int := 13

/-- No descriptor is left. -/
def emfile : Int := 24

namespace Node

def truncated (node : Node) : Node :=
  match node.content with
  | .regular _ => { node with content := .regular [] }
  | .special => node

/-- Truncating a file does not change what may open it. -/
@[simp] lemma truncated_refuses (node : Node) : node.truncated.refuses = node.refuses := by
  unfold truncated
  split <;> rfl

end Node

namespace FileSystem

def set [DecidableEq Path] (fs : FileSystem Path) (path : Path) (node : Node) : FileSystem Path :=
  { fs with node := Function.update fs.node path (some node) }

/-- What an open finds, as the open leaves it, or why it fails. -/
def reach (fs : FileSystem Path) (o : OpenOptions) (path : Path) : Except Int Node :=
  match fs.node path with
  | some node =>
    match node.refuses o.mode with
    | some e => .error e
    | none => .ok (if o.truncate then node.truncated else node)
  -- The permissions of a new file are for later opens, not for the one that creates it.
  | none => if o.create then (fs.creates path).map (⟨.regular [], ·⟩) else .error enoent

end FileSystem

namespace System

def openFile [DecidableEq Path] (s : System Path) (o : OpenOptions) (path : Path) :
    Except Int (File Path) × System Path :=
  -- The descriptor is taken before the path is looked up, so without one nothing is created.
  if s.spare = 0 then (.error emfile, s)
  else
    match s.fs.reach o path with
    | .error e => (.error e, s)
    | .ok node => (.ok ⟨path, o.mode, s.opened⟩, ⟨s.fs.set path node, s.spare - 1, s.opened + 1⟩)

/-- A file is closed: its descriptor is free again. -/
def close (s : System Path) : System Path := { s with spare := s.spare + 1 }

/-- There is a descriptor left and something to open. -/
def Opens (s : System Path) (o : OpenOptions) (path : Path) : Prop :=
  0 < s.spare ∧ ∃ node, s.fs.reach o path = .ok node

end System

section
variable {fs : FileSystem Path} {s : System Path} {o : OpenOptions}
  {path other : Path} {node node' : Node}

section
variable [DecidableEq Path]

@[simp] lemma set_node : (fs.set path node).node path = some node := Function.update_self ..

lemma set_node_of_ne (ne : other ≠ path) : (fs.set path node).node other = fs.node other :=
  Function.update_of_ne ne ..

/-- Nothing changes when what is put there is there already. -/
lemma set_eq_iff : fs.set path node = fs ↔ fs.node path = some node := by
  apply Iff.intro
  · intro eq
    rw [← eq]
    exact set_node
  · intro eq
    have same : Function.update fs.node path (some node) = fs.node := by
      rw [← eq]
      exact Function.update_eq_self path fs.node
    rw [FileSystem.set, same]

end

/-- An open finds the node that is there, if its permissions allow it. -/
lemma reach_existing (found : fs.node path = some node) : fs.reach o path = .ok node' ↔
    node.refuses o.mode = none ∧ node' = if o.truncate then node.truncated else node := by
  simp only [FileSystem.reach, found]
  cases node.refuses o.mode with
  | some e => simp
  | none =>
    simp only [Except.ok.injEq, true_and]
    exact eq_comm

/-- An open of an absent path makes an empty file, if it is told to and may. -/
lemma reach_absent (absent : fs.node path = none) : fs.reach o path = .ok node ↔
    o.create = true ∧ ∃ permissions, fs.creates path = .ok permissions ∧
      node = ⟨.regular [], permissions⟩ := by
  rw [FileSystem.reach, absent]
  cases o.create with
  | false => simp
  | true =>
    cases fs.creates path with
    | error e => simp [Except.map]
    | ok permissions =>
      simp only [Except.map, if_true, Except.ok.injEq, true_and, exists_eq_left']
      exact eq_comm

/-- Without `create` and `truncate`, an open finds what is there. -/
lemma reach_open (plain : o.create = false ∧ o.truncate = false) : fs.reach o path = .ok node ↔
    fs.node path = some node ∧ node.refuses o.mode = none := by
  cases found : fs.node path with
  | none =>
    rw [reach_absent found, plain.1]
    simp
  | some node' =>
    rw [reach_existing found, plain.2]
    simp only [Bool.false_eq_true, if_false, Option.some.injEq]
    apply Iff.intro
    · intro ⟨allowed, eq⟩
      exact ⟨eq.symm, eq ▸ allowed⟩
    · intro ⟨eq, allowed⟩
      exact ⟨eq ▸ allowed, eq.symm⟩

/-- Opening an existing file without truncating it leaves the files as they are. -/
lemma set_of_reach_open [DecidableEq Path] (plain : o.create = false ∧ o.truncate = false)
    (found : fs.reach o path = .ok node) : fs.set path node = fs :=
  set_eq_iff.mpr ((reach_open plain).mp found).1

/-- An open fails and changes nothing, or it succeeds and leaves what it found, with one descriptor
    less. -/
lemma openFile_cases [DecidableEq Path] (s : System Path) (o : OpenOptions) (path : Path) :
    (¬ s.Opens o path ∧ ∃ e, s.openFile o path = (.error e, s)) ∨
    (0 < s.spare ∧ ∃ node, s.fs.reach o path = .ok node ∧ s.openFile o path =
      (.ok ⟨path, o.mode, s.opened⟩, ⟨s.fs.set path node, s.spare - 1, s.opened + 1⟩)) := by
  rw [System.openFile]
  by_cases exhausted : s.spare = 0
  · rw [if_pos exhausted]
    exact .inl ⟨fun ⟨pos, _⟩ => absurd exhausted (Nat.ne_of_gt pos), _, rfl⟩
  · rw [if_neg exhausted]
    cases found : s.fs.reach o path with
    | error e =>
      refine .inl ⟨fun ⟨_, node, eq⟩ => ?_, e, rfl⟩
      rw [found] at eq
      cases eq
    | ok node => exact .inr ⟨Nat.pos_of_ne_zero exhausted, node, rfl, rfl⟩

end

end Warpshell.Files
