import Warpshell.Interaction.Lower
import Warpshell.Xdma.Memory

/-!
# System calls

Below the accesses: `CtrlOps` and `DmaOps` of `xdma/mod.rs` with the loops of `read_exact_at` and
`write_all_at`, which repeat a system call until the buffer is done. A call may transfer any part of
what is left, and it may be interrupted any number of times.

In front of two memories, one behind each channel, this makes no difference (`transport_exact`): what
a driver can do over the system calls is what it can do when a read returns the bytes that are there or
fails, and a write stores all of its bytes or fails after some of them.
-/

namespace Warpshell.Xdma
open Interaction

/-- The files of the channels. -/
inductive Node where
  | user
  | h2c
  | c2h
  deriving DecidableEq, Repr

/-- Positioned reads and writes of a file (`pread` and `pwrite`). -/
inductive Syscall where
  | readAt (file : Node) (len offset : Nat)
  | writeAt (file : Node) (buf : List UInt8) (offset : Nat)
  deriving DecidableEq, Repr

/-- The bytes read, or how many of them were written, or an error code. -/
abbrev Syscall.Answer : Syscall → Type
  | .readAt _ len _ => Except Int { bytes : List UInt8 // bytes.length ≤ len }
  | .writeAt _ buf _ => Except Int (Fin (buf.length + 1))

/-- The call was interrupted by a signal. -/
def eintr : Int := 4

/-! ## Loops -/

/-- The part of a buffer that is filled, and where its next byte comes from. -/
structure ReadExact (len : Nat) where
  buf : List UInt8
  offset : Nat
  fits : buf.length ≤ len

/-- What the loop of `read_exact_at` does with the result of a call. -/
def ReadExact.next {len : Nat} (s : ReadExact len) :
    Except Int { bytes : List UInt8 // bytes.length ≤ len - s.buf.length } →
      ReadExact len ⊕ Except IoError (Bytes len)
  | .ok bytes =>
    if bytes.1.length = 0 then .inr (.error .unexpectedEof)
    else .inl {
      buf := s.buf ++ bytes.1
      offset := s.offset + bytes.1.length
      fits := by
        have := s.fits
        have := bytes.2
        rw [List.length_append]
        omega }
  | .error code => if code = eintr then .inl s else .inr (.error (.os code))

/-- One round of `read_exact_at`. -/
def readExactAt (file : Node) {len : Nat} (s : ReadExact len) :
    Prog Syscall Syscall.Answer (ReadExact len ⊕ Except IoError (Bytes len)) :=
  if full : s.buf.length = len then .ret (.inr (.ok ⟨s.buf, full⟩))
  else (Prog.access (.readAt file (len - s.buf.length) s.offset)).bind fun r => .ret (s.next r)

/-- What is left to write. -/
structure WriteAll where
  buf : List UInt8
  offset : Nat
  deriving DecidableEq, Repr

def WriteAll.next (s : WriteAll) :
    Except Int (Fin (s.buf.length + 1)) → WriteAll ⊕ Except IoError Unit
  | .ok n =>
    if n.1 = 0 then .inr (.error .writeZero) else .inl ⟨s.buf.drop n.1, s.offset + n.1⟩
  | .error code => if code = eintr then .inl s else .inr (.error (.os code))

/-- One round of `write_all_at`. -/
def writeAllAt (file : Node) (s : WriteAll) :
    Prog Syscall Syscall.Answer (WriteAll ⊕ Except IoError Unit) :=
  if s.buf.length = 0 then .ret (.inr (.ok ()))
  else (Prog.access (.writeAt file s.buf s.offset)).bind fun r => .ret (s.next r)

/-! ## Channels -/

/-- Answers with the system calls that led to them. -/
abbrev Transfer (ε α : Type) : Type := Except ε α → List (Event Syscall Syscall.Answer) → Prop

/-- Convert the error, and the value. -/
def Transfer.convert {ε ε' α β : Type} (transfer : Transfer ε α) (f : ε → ε') (g : α → β) :
    Transfer ε' β :=
  fun r t => ∃ r', transfer r' t ∧ r = (r'.map g).mapError f

def readExact (file : Node) (len offset : Nat) : Transfer IoError (Bytes len) :=
  fun r t => Loop (readExactAt file) ⟨[], offset, Nat.zero_le len⟩ t r

def writeAll (file : Node) (buf : List UInt8) (offset : Nat) : Transfer IoError Unit :=
  fun r t => Loop (writeAllAt file) ⟨buf, offset⟩ t r

def ctrlRead (len offset : Nat) : Transfer XdmaError (Bytes len) :=
  (readExact .user len offset).convert .ctrlReadFailed id

def ctrlWrite (buf : List UInt8) (offset : Nat) : Transfer XdmaError Unit :=
  (writeAll .user buf offset).convert .ctrlWriteFailed id

def dmaRead (len offset : Nat) : Transfer XdmaError (Bytes len) :=
  (readExact .c2h len offset).convert (.dmaReadFailed 0) id

def dmaWrite (buf : List UInt8) (offset : Nat) : Transfer XdmaError Unit :=
  (writeAll .h2c buf offset).convert (.dmaWriteFailed 0) id

/-- The runs that carry out an access. A register is read and written as four bytes. -/
def carriesOut : (e : Access) → e.Answer → List (Event Syscall Syscall.Answer) → Prop
  | .ctrlReadU32 addr => (ctrlRead 4 addr).convert .xdmaError fromLeBytes
  | .ctrlWriteU32 addr v => (ctrlWrite (toLeBytes v) addr).convert .xdmaError id
  | .dmaRead addr len => (dmaRead len addr).convert .xdmaError id
  | .dmaWrite addr buf => (dmaWrite buf addr).convert .xdmaError id

/-! ## Memories -/

/-- What a loop reports: an error code other than an interruption, or that nothing was transferred. -/
def Reported (zero : IoError) (e : IoError) : Prop := e = zero ∨ ∃ code, code ≠ eintr ∧ e = .os code

/-- A memory behind each channel. -/
structure Channels where
  ctrl : Memory
  dma : Memory

namespace Channels

def mem (c : Channels) : Node → Memory
  | .user => c.ctrl
  | .h2c => c.dma
  | .c2h => c.dma

def store (c : Channels) (file : Node) (addr : Nat) (bs : List UInt8) : Channels :=
  match file with
  | .user => { c with ctrl := c.ctrl.store addr bs }
  | .h2c => { c with dma := c.dma.store addr bs }
  | .c2h => { c with dma := c.dma.store addr bs }

/-- A system call transfers the first bytes, any number of them, or it fails and transfers none. -/
inductive Serves : Channels → (e : Syscall) → e.Answer → Channels → Prop where
  | read {c file len offset} (bytes : { bytes : List UInt8 // bytes.length ≤ len }) :
    bytes.1 = (c.mem file).bytes offset bytes.1.length →
    Serves c (.readAt file len offset) (.ok bytes) c
  | write {c file buf offset} (n : Fin (buf.length + 1)) :
    Serves c (.writeAt file buf offset) (.ok n) (c.store file offset (buf.take n.1))
  | readFailed {c file len offset} (code : Int) :
    Serves c (.readAt file len offset) (.error code) c
  | writeFailed {c file buf offset} (code : Int) :
    Serves c (.writeAt file buf offset) (.error code) c

/-- The memories under system calls. -/
def device : World Syscall Syscall.Answer Channels where
  env _ _ := False
  answers := Serves

/-- What an access does: a read returns the bytes that are there or fails, a write stores its bytes or
    fails after some of them. -/
inductive Answers : Channels → (e : Access) → e.Answer → Channels → Prop where
  | ctrlReadU32 {c addr} : Answers c (.ctrlReadU32 addr) (.ok (c.ctrl.word addr)) c
  | ctrlReadFailed {c addr} (e : IoError) : Reported .unexpectedEof e →
    Answers c (.ctrlReadU32 addr) (.error (.xdmaError (.ctrlReadFailed e))) c
  | ctrlWriteU32 {c addr v} :
    Answers c (.ctrlWriteU32 addr v) (.ok ()) (c.store .user addr (toLeBytes v))
  | ctrlWriteFailed {c addr v} (k : Nat) (e : IoError) : k < 4 → Reported .writeZero e →
    Answers c (.ctrlWriteU32 addr v) (.error (.xdmaError (.ctrlWriteFailed e)))
      (c.store .user addr ((toLeBytes v).take k))
  | dmaRead {c addr len} :
    Answers c (.dmaRead addr len) (.ok ⟨c.dma.bytes addr len, Memory.length_bytes⟩) c
  | dmaReadFailed {c addr len} (e : IoError) : 0 < len → Reported .unexpectedEof e →
    Answers c (.dmaRead addr len) (.error (.xdmaError (.dmaReadFailed 0 e))) c
  | dmaWrite {c addr buf} : Answers c (.dmaWrite addr buf) (.ok ()) (c.store .h2c addr buf)
  | dmaWriteFailed {c addr buf} (k : Nat) (e : IoError) : k < buf.length → Reported .writeZero e →
    Answers c (.dmaWrite addr buf) (.error (.xdmaError (.dmaWriteFailed 0 e)))
      (c.store .h2c addr (buf.take k))

/-- The memories under accesses. -/
def card : World Access Access.Answer Channels where
  env _ _ := False
  answers := Answers

end Channels

/-! ## Reads -/

section
variable {c c' : Channels} {file : Node} {len offset : Nat} {r : Except IoError (Bytes len)}
  {t : List (Event Syscall Syscall.Answer)}

/-- One round of the reading loop: it ends with a full buffer, or issues one `pread`. -/
lemma readExactAt_runs {s : ReadExact len} {o : ReadExact len ⊕ Except IoError (Bytes len)} :
    Run (readExactAt file s) t o ↔
      (∃ full : s.buf.length = len, t = [] ∧ o = .inr (.ok ⟨s.buf, full⟩)) ∨
      s.buf.length ≠ len ∧ ∃ r, t = [⟨.readAt file (len - s.buf.length) s.offset, r⟩] ∧ o = s.next r := by
  rw [readExactAt]
  split
  next full =>
    rw [run_ret]
    simp [full]
  next more =>
    rw [run_bind]
    simp only [run_access, run_ret, more, IsEmpty.exists_iff, false_or]
    apply Iff.intro
    · intro parts
      obtain ⟨t₁, t₂, a, rfl, rfl, rfl, rfl⟩ := parts
      exact ⟨more, a, rfl, rfl⟩
    · intro parts
      obtain ⟨_, r, rfl, rfl⟩ := parts
      exact ⟨_, [], r, rfl, rfl, rfl, rfl⟩

/-- What the node can answer to a `pread`: bytes that are there, or an error. -/
lemma serves_readAt {r} (path : Channels.device.Path c [⟨.readAt file len offset, r⟩] c') :
    c' = c ∧ ((∃ bytes, r = .ok bytes ∧ bytes.1 = (c.mem file).bytes offset bytes.1.length) ∨
      ∃ code, r = .error code) := by
  obtain ⟨c₁, serves, rest⟩ := World.path_cons.mp path
  obtain rfl := World.path_nil.mp rest
  cases serves with
  | read bytes eq => exact ⟨rfl, .inl ⟨bytes, rfl, eq⟩⟩
  | readFailed code => exact ⟨rfl, .inr ⟨code, rfl⟩⟩

/-- Whatever the calls transfer, a buffer that is filled holds the bytes of the memory. -/
lemma readExact_sound {s : ReadExact len} (loop : Loop (readExactAt file) s t r)
    (path : Channels.device.Path c t c') :
    c' = c ∧ (∀ b, r = .ok b → b.1 = s.buf ++ (c.mem file).bytes s.offset (len - s.buf.length)) ∧
      ∀ e, r = .error e → s.buf.length ≠ len ∧ Reported .unexpectedEof e := by
  induction loop with
  | @done s t r run =>
    obtain ⟨full, rfl, eq⟩ | ⟨more, a, rfl, eq⟩ := readExactAt_runs.mp run
    · cases eq
      refine ⟨World.path_nil.mp path, fun b eq => ?_, fun e eq => (by cases eq)⟩
      cases eq
      rw [full, Nat.sub_self, Memory.bytes, List.append_nil]
    · obtain ⟨rfl, ⟨bytes, rfl, _⟩ | ⟨code, rfl⟩⟩ := serves_readAt path
      · rw [ReadExact.next] at eq
        split at eq
        · cases eq
          refine ⟨rfl, fun b eq => (by cases eq), fun e eq => ?_⟩
          cases eq
          exact ⟨more, .inl rfl⟩
        · cases eq
      · rw [ReadExact.next] at eq
        split at eq
        · cases eq
        next other =>
          cases eq
          refine ⟨rfl, fun b eq => (by cases eq), fun e eq => ?_⟩
          cases eq
          exact ⟨more, .inr ⟨code, other, rfl⟩⟩
  | @again s s' t t' r run _ ih =>
    obtain ⟨c₁, first, rest⟩ := World.path_append.mp path
    obtain ⟨_, rfl, eq⟩ | ⟨more, a, rfl, eq⟩ := readExactAt_runs.mp run
    · cases eq
    · obtain ⟨rfl, ⟨bytes, rfl, there⟩ | ⟨code, rfl⟩⟩ := serves_readAt first
      · rw [ReadExact.next] at eq
        split at eq
        · cases eq
        · cases eq
          obtain ⟨same, ok, error⟩ := ih rest
          obtain ⟨bytes, fits⟩ := bytes
          have split : len - s.buf.length = bytes.length + (len - (s.buf ++ bytes).length) := by
            rw [List.length_append]
            omega
          have rest : (c₁.mem file).bytes s.offset (len - s.buf.length) = bytes ++
              (c₁.mem file).bytes (s.offset + bytes.length) (len - (s.buf ++ bytes).length) := by
            rw [split, Memory.bytes_add, ← there]
          refine ⟨same, fun b eq => ?_, fun e eq => ⟨more, (error e eq).2⟩⟩
          rw [rest, ← List.append_assoc]
          exact ok b eq
      · rw [ReadExact.next] at eq
        split at eq
        · cases eq
          exact ih rest
        · cases eq

/-- The buffer can be filled in one go. -/
lemma readExact_ok : ∃ t, readExact file len offset
    (.ok ⟨(c.mem file).bytes offset len, Memory.length_bytes⟩) t ∧ Channels.device.Path c t c := by
  by_cases empty : len = 0
  · subst empty
    exact ⟨[], .done (readExactAt_runs.mpr (.inl ⟨rfl, rfl, rfl⟩)), .nil⟩
  · have full : ((c.mem file).bytes offset len).length = len := Memory.length_bytes
    let all : { bytes : List UInt8 // bytes.length ≤ len - ([] : List UInt8).length } :=
      ⟨(c.mem file).bytes offset len, Nat.le_of_eq full⟩
    let filled : ReadExact len := ⟨all.1, offset + all.1.length, Nat.le_of_eq full⟩
    have round : Run (readExactAt file ⟨[], offset, Nat.zero_le len⟩)
        [⟨.readAt file len offset, .ok all⟩] (.inl filled) := by
      refine readExactAt_runs.mpr (.inr ⟨fun eq => empty eq.symm, .ok all, rfl, ?_⟩)
      rw [ReadExact.next, if_neg fun none => empty (full.symm.trans none)]
      rfl
    have last : Loop (readExactAt file) filled [] (.ok ⟨filled.buf, full⟩) :=
      .done (readExactAt_runs.mpr (.inl ⟨full, rfl, rfl⟩))
    refine ⟨_, .again round last, .cons (.read all ?_) .nil⟩
    show (c.mem file).bytes offset len = (c.mem file).bytes offset ((c.mem file).bytes offset len).length
    rw [full]

/-- Each reported error of a read that is not empty does occur. -/
lemma readExact_error {e : IoError} (more : 0 < len) (reported : Reported .unexpectedEof e) :
    ∃ t, readExact file len offset (.error e) t ∧ Channels.device.Path c t c := by
  have short : ([] : List UInt8).length ≠ len := Nat.ne_of_lt more
  obtain rfl | ⟨code, other, rfl⟩ := reported
  · exact ⟨_, .done (readExactAt_runs.mpr (.inr ⟨short, .ok ⟨[], Nat.zero_le _⟩, rfl, rfl⟩)),
      .cons (.read _ rfl) .nil⟩
  · refine ⟨_, .done (readExactAt_runs.mpr (.inr ⟨short, .error code, rfl, ?_⟩)),
      .cons (.readFailed code) .nil⟩
    rw [ReadExact.next, if_neg other]

/-- The results of a whole read: the bytes asked for, or a reported error. -/
lemma reads_iff : (∃ t, readExact file len offset r t ∧ Channels.device.Path c t c') ↔
    c' = c ∧ (r = .ok ⟨(c.mem file).bytes offset len, Memory.length_bytes⟩ ∨
      0 < len ∧ ∃ e, Reported .unexpectedEof e ∧ r = .error e) := by
  apply Iff.intro
  · intro lower
    obtain ⟨t, loop, path⟩ := lower
    obtain ⟨same, ok, error⟩ := readExact_sound loop path
    refine ⟨same, ?_⟩
    cases r with
    | ok b => exact .inl (congrArg Except.ok (Subtype.ext (ok b rfl)))
    | error e =>
      obtain ⟨more, reported⟩ := error e rfl
      exact .inr ⟨Nat.pos_of_ne_zero fun empty => more empty.symm, e, reported, rfl⟩
  · intro upper
    obtain ⟨rfl, rfl | ⟨more, e, reported, rfl⟩⟩ := upper
    · exact readExact_ok
    · exact readExact_error more reported

end

/-! ## Writes -/

section
variable {c c' : Channels} {file : Node} {buf : List UInt8} {offset : Nat} {r : Except IoError Unit}
  {t : List (Event Syscall Syscall.Answer)}

lemma Channels.store_nil : c.store file offset [] = c := by
  cases file <;> simp [Channels.store, Memory.store_nil]

lemma Channels.store_append {bs cs : List UInt8} :
    c.store file offset (bs ++ cs) = (c.store file offset bs).store file (offset + bs.length) cs := by
  cases file <;> simp [Channels.store, Memory.store_append]

/-- One round of the writing loop: it ends with nothing left, or issues one `pwrite`. -/
lemma writeAllAt_runs {s : WriteAll} {o : WriteAll ⊕ Except IoError Unit} :
    Run (writeAllAt file s) t o ↔
      (s.buf.length = 0 ∧ t = [] ∧ o = .inr (.ok ())) ∨
      s.buf.length ≠ 0 ∧ ∃ r, t = [⟨.writeAt file s.buf s.offset, r⟩] ∧ o = s.next r := by
  rw [writeAllAt]
  split
  next empty =>
    rw [run_ret]
    simp [empty]
  next more =>
    rw [run_bind]
    simp only [run_access, run_ret, more, not_false_eq_true, ne_eq, true_and, false_and, false_or]
    apply Iff.intro
    · intro parts
      obtain ⟨t₁, t₂, a, rfl, rfl, rfl, rfl⟩ := parts
      exact ⟨a, rfl, rfl⟩
    · intro parts
      obtain ⟨r, rfl, rfl⟩ := parts
      exact ⟨_, [], r, rfl, rfl, rfl, rfl⟩

/-- What the node can answer to a `pwrite`: it takes a first part of the bytes, or none. -/
lemma serves_writeAt {r} (path : Channels.device.Path c [⟨.writeAt file buf offset, r⟩] c') :
    (∃ n : Fin (buf.length + 1), r = .ok n ∧ c' = c.store file offset (buf.take n.1)) ∨
      ∃ code, r = .error code ∧ c' = c := by
  obtain ⟨c₁, serves, rest⟩ := World.path_cons.mp path
  obtain rfl := World.path_nil.mp rest
  cases serves with
  | write n => exact .inl ⟨n, rfl, rfl⟩
  | writeFailed code => exact .inr ⟨code, rfl, rfl⟩

/-- Whatever the calls transfer, all of the buffer is stored, or the loop fails in the middle of it. -/
lemma writeAll_sound {s : WriteAll} (loop : Loop (writeAllAt file) s t r)
    (path : Channels.device.Path c t c') :
    (r = .ok () ∧ c' = c.store file s.offset s.buf) ∨
      ∃ k e, k < s.buf.length ∧ Reported .writeZero e ∧ r = .error e ∧
        c' = c.store file s.offset (s.buf.take k) := by
  induction loop generalizing c with
  | @done s t r run =>
    obtain ⟨empty, rfl, eq⟩ | ⟨more, a, rfl, eq⟩ := writeAllAt_runs.mp run
    · cases eq
      refine .inl ⟨rfl, ?_⟩
      rw [World.path_nil.mp path, List.length_eq_zero_iff.mp empty, Channels.store_nil]
    · obtain ⟨n, rfl, rfl⟩ | ⟨code, rfl, rfl⟩ := serves_writeAt path
      · rw [WriteAll.next] at eq
        split at eq
        next zero =>
          cases eq
          exact .inr ⟨0, .writeZero, Nat.pos_of_ne_zero more, .inl rfl, rfl, by rw [zero]⟩
        next => cases eq
      · rw [WriteAll.next] at eq
        split at eq
        next => cases eq
        next other =>
          cases eq
          refine .inr ⟨0, .os code, Nat.pos_of_ne_zero more, .inr ⟨code, other, rfl⟩, rfl, ?_⟩
          rw [List.take_zero, Channels.store_nil]
  | @again s s' t t' r run _ ih =>
    obtain ⟨c₁, first, rest⟩ := World.path_append.mp path
    obtain ⟨_, rfl, eq⟩ | ⟨more, a, rfl, eq⟩ := writeAllAt_runs.mp run
    · cases eq
    · obtain ⟨n, rfl, rfl⟩ | ⟨code, rfl, rfl⟩ := serves_writeAt first
      · rw [WriteAll.next] at eq
        split at eq
        next => cases eq
        next =>
          cases eq
          have len : (s.buf.take n.1).length = n.1 := by
            rw [List.length_take]
            omega
          obtain ⟨ok, stored⟩ | ⟨k, e, fits, reported, error, stored⟩ := ih rest
          · refine .inl ⟨ok, ?_⟩
            rw [stored]
            conv_rhs => rw [← List.take_append_drop n.1 s.buf, Channels.store_append, len]
          · refine .inr ⟨n.1 + k, e, ?_, reported, error, ?_⟩
            · rw [List.length_drop] at fits
              omega
            · rw [stored, List.take_add, Channels.store_append, len]
      · rw [WriteAll.next] at eq
        split at eq
        next =>
          cases eq
          exact ih rest
        next => cases eq

/-- A call for a part of the buffer, and the rest of the loop. -/
lemma writeAll_again {n : Nat} (pos : 0 < n) (fits : n ≤ buf.length)
    (rest : ∃ t, writeAll file (buf.drop n) (offset + n) r t ∧
      Channels.device.Path (c.store file offset (buf.take n)) t c') :
    ∃ t, writeAll file buf offset r t ∧ Channels.device.Path c t c' := by
  obtain ⟨t, loop, path⟩ := rest
  have round : Run (writeAllAt file ⟨buf, offset⟩)
      [⟨.writeAt file buf offset, .ok ⟨n, Nat.lt_succ_of_le fits⟩⟩]
      (.inl ⟨buf.drop n, offset + n⟩) := by
    refine writeAllAt_runs.mpr (.inr ⟨Nat.ne_of_gt (Nat.lt_of_lt_of_le pos fits), _, rfl, ?_⟩)
    rw [WriteAll.next, if_neg (Nat.ne_of_gt pos)]
  exact ⟨_, .again round loop, .cons (.write _) path⟩

/-- A write can succeed, and then all of it is stored. -/
lemma writeAll_ok : ∃ t, writeAll file buf offset (.ok ()) t ∧
    Channels.device.Path c t (c.store file offset buf) := by
  have last {offset c} : ∃ t, writeAll file [] offset (.ok ()) t ∧ Channels.device.Path c t c :=
    ⟨[], .done (writeAllAt_runs.mpr (.inl ⟨rfl, rfl, rfl⟩)), .nil⟩
  by_cases empty : buf = []
  · rw [empty, Channels.store_nil]
    exact last
  · refine writeAll_again (List.length_pos_iff.mpr empty) (Nat.le_refl _) ?_
    rw [List.drop_length, List.take_length]
    exact last

/-- Each reported error can occur, with any proper first part of the bytes stored. -/
lemma writeAll_error {k : Nat} {e : IoError} (fits : k < buf.length) (reported : Reported .writeZero e) :
    ∃ t, writeAll file buf offset (.error e) t ∧
      Channels.device.Path c t (c.store file offset (buf.take k)) := by
  have fails {buf offset c} (more : buf.length ≠ 0) :
      ∃ t, writeAll file buf offset (.error e) t ∧ Channels.device.Path c t c := by
    obtain rfl | ⟨code, other, rfl⟩ := reported
    · refine ⟨_, .done (writeAllAt_runs.mpr (.inr ⟨more, .ok 0, rfl, rfl⟩)), .cons ?_ .nil⟩
      have none : Channels.Serves c (.writeAt file buf offset) (.ok 0)
          (c.store file offset (buf.take 0)) := .write 0
      rwa [List.take_zero, Channels.store_nil] at none
    · refine ⟨_, .done (writeAllAt_runs.mpr (.inr ⟨more, .error code, rfl, ?_⟩)),
        .cons (.writeFailed code) .nil⟩
      rw [WriteAll.next, if_neg other]
  by_cases start : k = 0
  · rw [start, List.take_zero, Channels.store_nil]
    exact fails (Nat.ne_of_gt (Nat.lt_of_le_of_lt (Nat.zero_le k) fits))
  · refine writeAll_again (Nat.pos_of_ne_zero start) (Nat.le_of_lt fits) (fails ?_)
    rw [List.length_drop]
    omega

/-- The results of a whole write: all of it stored, or an error and a proper first part. -/
lemma writes_iff : (∃ t, writeAll file buf offset r t ∧ Channels.device.Path c t c') ↔
    (r = .ok () ∧ c' = c.store file offset buf) ∨
      ∃ k e, k < buf.length ∧ Reported .writeZero e ∧ r = .error e ∧
        c' = c.store file offset (buf.take k) := by
  apply Iff.intro
  · intro lower
    obtain ⟨t, loop, path⟩ := lower
    exact writeAll_sound loop path
  · intro upper
    obtain ⟨rfl, rfl⟩ | ⟨k, e, fits, reported, rfl, rfl⟩ := upper
    · exact writeAll_ok
    · exact writeAll_error fits reported

end

/-! ## Accesses -/

/-- A converted transfer is the transfer, and its result converted. -/
lemma convert_iff {ε ε' α β : Type} {transfer : Transfer ε α} {f : ε → ε'} {g : α → β}
    {r : Except ε' β} {c c' : Channels} :
    (∃ t, transfer.convert f g r t ∧ Channels.device.Path c t c') ↔
      ∃ r', (∃ t, transfer r' t ∧ Channels.device.Path c t c') ∧ r = (r'.map g).mapError f := by
  apply Iff.intro
  · intro parts
    obtain ⟨t, ⟨r', transfer, eq⟩, path⟩ := parts
    exact ⟨r', ⟨t, transfer, path⟩, eq⟩
  · intro parts
    obtain ⟨r', ⟨t, transfer, path⟩, eq⟩ := parts
    exact ⟨t, ⟨r', transfer, eq⟩, path⟩

section
variable {c c' : Channels} {file : Node} {ε ε' β : Type} {f : IoError → ε} {g : ε → ε'}

/-- A read under both conversions of its error. -/
lemma reads_through {len offset : Nat} {h : Bytes len → β} {r : Except ε' β} :
    (∃ t, ((readExact file len offset).convert f id).convert g h r t ∧
      Channels.device.Path c t c') ↔
    c' = c ∧ (r = .ok (h ⟨(c.mem file).bytes offset len, Memory.length_bytes⟩) ∨
      0 < len ∧ ∃ e, Reported .unexpectedEof e ∧ r = .error (g (f e))) := by
  simp only [convert_iff, reads_iff]
  apply Iff.intro
  · intro lower
    obtain ⟨_, ⟨_, ⟨rfl, rfl | ⟨more, e, reported, rfl⟩⟩, rfl⟩, rfl⟩ := lower
    · exact ⟨rfl, .inl rfl⟩
    · exact ⟨rfl, .inr ⟨more, e, reported, rfl⟩⟩
  · intro upper
    obtain ⟨rfl, rfl | ⟨more, e, reported, rfl⟩⟩ := upper
    · exact ⟨_, ⟨_, ⟨rfl, .inl rfl⟩, rfl⟩, rfl⟩
    · exact ⟨_, ⟨_, ⟨rfl, .inr ⟨more, e, reported, rfl⟩⟩, rfl⟩, rfl⟩

/-- A write under both conversions of its error. -/
lemma writes_through {buf : List UInt8} {offset : Nat} {r : Except ε' Unit} :
    (∃ t, ((writeAll file buf offset).convert f id).convert g id r t ∧
      Channels.device.Path c t c') ↔
    (r = .ok () ∧ c' = c.store file offset buf) ∨
      ∃ k e, k < buf.length ∧ Reported .writeZero e ∧ r = .error (g (f e)) ∧
        c' = c.store file offset (buf.take k) := by
  simp only [convert_iff, writes_iff]
  apply Iff.intro
  · intro lower
    obtain ⟨_, ⟨_, ⟨rfl, rfl⟩ | ⟨k, e, fits, reported, rfl, rfl⟩, rfl⟩, rfl⟩ := lower
    · exact .inl ⟨rfl, rfl⟩
    · exact .inr ⟨k, e, fits, reported, rfl, rfl⟩
  · intro upper
    obtain ⟨rfl, rfl⟩ | ⟨k, e, fits, reported, rfl, rfl⟩ := upper
    · exact ⟨_, ⟨_, .inl ⟨rfl, rfl⟩, rfl⟩, rfl⟩
    · exact ⟨_, ⟨_, .inr ⟨k, e, fits, reported, rfl, rfl⟩, rfl⟩, rfl⟩

end

/-- An access carried out by system calls has the effects and results of the access. -/
lemma carriesOut_iff (c : Channels) (e : Access) (r : e.Answer) (c' : Channels) :
    (∃ t, carriesOut e r t ∧ Channels.device.Path c t c') ↔ Channels.Answers c e r c' := by
  cases e with
  | ctrlReadU32 addr =>
    refine reads_through.trans ⟨fun through => ?_, fun answers => ?_⟩
    · obtain ⟨rfl, rfl | ⟨_, e, reported, rfl⟩⟩ := through
      · exact .ctrlReadU32
      · exact .ctrlReadFailed e reported
    · cases answers with
      | ctrlReadU32 => exact ⟨rfl, .inl rfl⟩
      | ctrlReadFailed e reported => exact ⟨rfl, .inr ⟨by decide, e, reported, rfl⟩⟩
  | ctrlWriteU32 addr v =>
    refine writes_through.trans ⟨fun through => ?_, fun answers => ?_⟩
    · obtain ⟨rfl, rfl⟩ | ⟨k, e, fits, reported, rfl, rfl⟩ := through
      · exact .ctrlWriteU32
      · exact .ctrlWriteFailed k e fits reported
    · cases answers with
      | ctrlWriteU32 => exact .inl ⟨rfl, rfl⟩
      | ctrlWriteFailed k e fits reported => exact .inr ⟨k, e, fits, reported, rfl, rfl⟩
  | dmaRead addr len =>
    refine reads_through.trans ⟨fun through => ?_, fun answers => ?_⟩
    · obtain ⟨rfl, rfl | ⟨more, e, reported, rfl⟩⟩ := through
      · exact .dmaRead
      · exact .dmaReadFailed e more reported
    · cases answers with
      | dmaRead => exact ⟨rfl, .inl rfl⟩
      | dmaReadFailed e more reported => exact ⟨rfl, .inr ⟨more, e, reported, rfl⟩⟩
  | dmaWrite addr buf =>
    refine writes_through.trans ⟨fun through => ?_, fun answers => ?_⟩
    · obtain ⟨rfl, rfl⟩ | ⟨k, e, fits, reported, rfl, rfl⟩ := through
      · exact .dmaWrite
      · exact .dmaWriteFailed k e fits reported
    · cases answers with
      | dmaWrite => exact .inl ⟨rfl, rfl⟩
      | dmaWriteFailed k e fits reported => exact .inr ⟨k, e, fits, reported, rfl, rfl⟩

/-- What a driver does over the system calls, however these split its transfers and however often they
    are interrupted, is what it does over the accesses: the same results, with the same memories. -/
theorem transport_exact {α : Type} (p : Prog Access Access.Answer α) (c c' : Channels) (a : α) :
    (∃ t, Lowered carriesOut p t a ∧ Channels.device.Path c t c') ↔
      ∃ t, Run p t a ∧ Channels.card.Path c t c' :=
  World.lowered_iff carriesOut_iff p c c' a

end Warpshell.Xdma
