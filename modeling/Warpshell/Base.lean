import Mathlib.Algebra.Group.Nat.Defs
import Warpshell.Interaction.Wp

/-!
# Based access to memory-mapped components

The access layer of `warpshell/src/lib.rs` over the XDMA transport of `warpshell/src/xdma/mod.rs`:
errors, register and DMA accesses of a component at its base address, and the polling loops.

An access is one system call on a character device; its answer is what the call returns. Registers
are read and written as little-endian `u32`, so an access carries the word, and its address is
`BASE_ADDR + offset`. Addresses and offsets (`u64`) are natural numbers: the sums the drivers form
stay far below `2 ^ 64`. Sleeping between two polls touches no device and has no counterpart here.
-/

namespace Warpshell
open Interaction

/-- What a failed system call reports (Rust `std::io::Error`). -/
inductive IoError where
  | os (code : Int)
  | unexpectedEof
  | writeZero
  deriving DecidableEq, Repr

/-- Transport errors (Rust `xdma::Error`). -/
inductive XdmaError where
  | ctrlReadFailed (err : IoError)
  | ctrlWriteFailed (err : IoError)
  | dmaReadFailed (nChannel : Nat) (err : IoError)
  | dmaWriteFailed (nChannel : Nat) (err : IoError)
  | devNode (err : IoError)
  deriving DecidableEq, Repr

/-- Errors of based access (Rust `warpshell::Error`). -/
inductive BasedError where
  | xdmaError (err : XdmaError)
  | regMaskNotAsExpected (offset : Nat) (mask expected : UInt32)
  deriving DecidableEq, Repr

/-- An array of `n` bytes (Rust `[u8; n]`). -/
abbrev Bytes (n : Nat) : Type := { bytes : List UInt8 // bytes.length = n }

/-- Accesses to the card, at absolute addresses of its control and its DMA channel. -/
inductive Access where
  | ctrlReadU32 (addr : Nat)
  | ctrlWriteU32 (addr : Nat) (value : UInt32)
  | dmaRead (addr len : Nat)
  | dmaWrite (addr : Nat) (buf : List UInt8)
  deriving DecidableEq, Repr

/-- What an access returns. -/
abbrev Access.Answer : Access → Type
  | .ctrlReadU32 _ => Except BasedError UInt32
  | .ctrlWriteU32 _ _ => Except BasedError Unit
  | .dmaRead _ len => Except BasedError (Bytes len)
  | .dmaWrite _ _ => Except BasedError Unit

/-- The answer of a card where every access succeeds and every register reads `v`. -/
def Access.succeed (v : UInt32) : (e : Access) → e.Answer
  | .ctrlReadU32 _ => .ok v
  | .ctrlWriteU32 _ _ => .ok ()
  | .dmaRead _ len => .ok ⟨List.replicate len 0, List.length_replicate⟩
  | .dmaWrite _ _ => .ok ()

/-- Driver code: programs over accesses to the card. -/
abbrev Driver (ε α : Type) : Type := Io Access Access.Answer ε α

/-- An access to the card with its answer. -/
abbrev CardEvent : Type := Event Access Access.Answer

/-- An interface of a memory-mapped core: its base address (Rust `BaseParam`). -/
structure BaseParam where
  baseAddr : Nat
  deriving DecidableEq, Repr

def basedCtrlReadU32 (core : BaseParam) (offset : Nat) : Driver BasedError UInt32 :=
  (Prog.access (.ctrlReadU32 (core.baseAddr + offset))).bind fun r => .ret (.ofExcept r)

def basedCtrlWriteU32 (core : BaseParam) (offset : Nat) (value : UInt32) :
    Driver BasedError Unit :=
  (Prog.access (.ctrlWriteU32 (core.baseAddr + offset) value)).bind fun r => .ret (.ofExcept r)

/-- Reads `len` bytes at `offset` of the DMA channel. -/
def basedDmaRead (core : BaseParam) (len offset : Nat) : Driver BasedError (Bytes len) :=
  (Prog.access (.dmaRead (core.baseAddr + offset) len)).bind fun r => .ret (.ofExcept r)

/-- Writes the entire `buf` at `offset` of the DMA channel. -/
def basedDmaWrite (core : BaseParam) (buf : List UInt8) (offset : Nat) : Driver BasedError Unit :=
  (Prog.access (.dmaWrite (core.baseAddr + offset) buf)).bind fun r => .ret (.ofExcept r)

/-- The little-endian bytes of a word (Rust `u32::to_le_bytes`). -/
def toLeBytes (w : UInt32) : List UInt8 :=
  [w.toUInt8, (w >>> 8).toUInt8, (w >>> 16).toUInt8, (w >>> 24).toUInt8]

/-- The word with the given little-endian bytes (Rust `u32::from_le_bytes`). -/
def fromLeBytes (b : Bytes 4) : UInt32 :=
  match b with
  | ⟨[b₀, b₁, b₂, b₃], _⟩ =>
    b₀.toUInt32 ||| b₁.toUInt32 <<< 8 ||| b₂.toUInt32 <<< 16 ||| b₃.toUInt32 <<< 24

/-- A time span: whole seconds and nanoseconds below one second (Rust `std::time::Duration`). -/
structure Duration where
  secs : Nat
  nanos : Nat
  secs_lt : secs < 2 ^ 64
  nanos_lt : nanos < 1000000000

namespace Duration

def fromSecs (s : UInt64) : Duration := ⟨s.toNat, 0, s.toNat_lt, by decide⟩

/-- A span of `ms` milliseconds (Rust `from_millis`). -/
def fromMillis (ms : UInt64) : Duration :=
  ⟨ms.toNat / 1000, ms.toNat % 1000 * 1000000,
    Nat.lt_of_le_of_lt (Nat.div_le_self _ _) ms.toNat_lt, by omega⟩

/-- The total number of nanoseconds (Rust `as_nanos`, a `u128`). -/
def asNanos (d : Duration) : Nat := d.secs * 1000000000 + d.nanos

end Duration

/-- One poll of a register; a failed read counts as no value (Rust `.ok()`). -/
def pollOnce (core : BaseParam) (offset : Nat) : Prog Access Access.Answer (Option UInt32) :=
  (Prog.access (.ctrlReadU32 (core.baseAddr + offset))).bind fun r =>
    .ret (Except.toOption r)

def maskReady (mask expected : UInt32) (ready : Option UInt32) : Bool :=
  ready.map (· &&& mask) == some expected

/-- Polls a given `mask` in a given `u32` register at `offset` at most `n` times until the mask is
    equal to the expected value, sleeping for `_duration` in between tries. Returns the number of
    elapsed tries. -/
def pollRegMaskSleep (core : BaseParam) (offset : Nat) (mask expected : UInt32) (n : Nat)
    (_duration : Duration) : Driver BasedError Nat :=
  ((pollOnce core offset).position (maskReady mask expected) n).bind fun
    | some pos => .ret (.ok (pos + 1))
    | none => .ret (.err (.regMaskNotAsExpected offset mask expected))

/-- Polls without sleeping. -/
def pollRegMask (core : BaseParam) (offset : Nat) (mask expected : UInt32) (n : Nat) :
    Driver BasedError Unit :=
  ((pollOnce core offset).position (maskReady mask expected) n).bind fun
    | some _ => .ret (.ok ())
    | none => .ret (.err (.regMaskNotAsExpected offset mask expected))

def pollRegMaskClear (core : BaseParam) (offset : Nat) (mask : UInt32) (n : Nat) :
    Driver BasedError Unit :=
  pollRegMask core offset mask 0 n

def pollRegMaskSet (core : BaseParam) (offset : Nat) (mask : UInt32) (n : Nat) :
    Driver BasedError Unit :=
  pollRegMask core offset mask mask n

/-- `usize::try_from(n).unwrap_or_default()` on a 64-bit host. -/
def usizeOrDefault (n : Nat) : Nat := if n < 2 ^ 64 then n else 0

/-- A read ends the poll exactly if it succeeds and matches. -/
lemma maskReady_iff {mask expected : UInt32} {r : Except BasedError UInt32} :
    maskReady mask expected (Except.toOption r) = true ↔ ∃ v, r = .ok v ∧ v &&& mask = expected := by
  cases r with
  | error e => simp [maskReady, Except.toOption]
  | ok v => simp [maskReady, Except.toOption]

/-! ## Rules -/

section Rules
variable {σ : Type} {W : World Access Access.Answer σ} {G : σ → Access → Prop}
  {core : BaseParam} {offset : Nat} {mask expected : UInt32} {n : Nat} {d : Duration} {s : σ}

/-- A register read under interference, by an invariant `P` that holds until it. -/
lemma wp_basedCtrlReadU32 {Q : Outcome BasedError UInt32 → σ → Prop} {P : σ → Prop}
    (hs : P s) (stP : W.Stable P) (stQ : ∀ r, W.Stable (Q r))
    (h : ∀ s, P s → G s (.ctrlReadU32 (core.baseAddr + offset)) ∧
      ∀ r s', W.answers s (.ctrlReadU32 (core.baseAddr + offset)) r s' → Q (.ofExcept r) s') :
    W.wp G (basedCtrlReadU32 core offset) Q s := by
  refine World.wp_bind.mpr (World.wp_access hs stP ?_ ?_)
  · exact fun r s s' w e => World.wp_env w (.single e)
  · intro s hP
    obtain ⟨g, next⟩ := h s hP
    exact ⟨g, fun r s' an s'' e => (stQ _).env (next r s' an) e⟩

/-- A register write under interference, by an invariant `P` that holds until it. -/
lemma wp_basedCtrlWriteU32 {value : UInt32} {Q : Outcome BasedError Unit → σ → Prop} {P : σ → Prop}
    (hs : P s) (stP : W.Stable P) (stQ : ∀ r, W.Stable (Q r))
    (h : ∀ s, P s → G s (.ctrlWriteU32 (core.baseAddr + offset) value) ∧
      ∀ r s', W.answers s (.ctrlWriteU32 (core.baseAddr + offset) value) r s' →
        Q (.ofExcept r) s') :
    W.wp G (basedCtrlWriteU32 core offset value) Q s := by
  refine World.wp_bind.mpr (World.wp_access hs stP ?_ ?_)
  · exact fun r s s' w e => World.wp_env w (.single e)
  · intro s hP
    obtain ⟨g, next⟩ := h s hP
    exact ⟨g, fun r s' an s'' e => (stQ _).env (next r s' an) e⟩

/-- A poll under interference, by an invariant `J` that holds until a read matches. -/
lemma wp_pollRegMaskSleep {Q : Outcome BasedError Nat → σ → Prop} {J : σ → Prop}
    (hs : J s) (stJ : W.Stable J) (stQ : ∀ r, W.Stable (Q r))
    (step : ∀ s, J s → G s (.ctrlReadU32 (core.baseAddr + offset)) ∧
      ∀ r s', W.answers s (.ctrlReadU32 (core.baseAddr + offset)) r s' →
        if maskReady mask expected (Except.toOption r) then ∀ k, Q (.ok k) s' else J s')
    (timeout : ∀ s, J s → Q (.err (.regMaskNotAsExpected offset mask expected)) s) :
    W.wp G (pollRegMaskSleep core offset mask expected n d) Q s := by
  refine World.wp_bind.mpr (World.wp_position (J := fun _ => J) hs (fun _ => stJ) ?_ ?_)
  · intro j s _ _ hJ
    refine World.wp_bind.mpr (World.wp_access hJ stJ ?_ ?_)
    · exact fun r s s' w e => World.wp_env w (.single e)
    · intro s hJ
      obtain ⟨g, next⟩ := step s hJ
      refine ⟨g, fun r s' an s'' e => ?_⟩
      have h := next r s' an
      by_cases hm : maskReady mask expected (Except.toOption r) = true
      · rw [if_pos hm] at h
        simp only [if_pos hm]
        exact fun s₃ e' => (stQ _).env (h (j + 1)) (e.trans e')
      · rw [if_neg hm] at h
        simp only [if_neg hm]
        exact stJ.env h e
  · exact fun s hJ s' e => (stQ _).env (timeout s hJ) e

end Rules

/-! ## Rules over histories -/

section Histories
variable {G : List CardEvent → Access → Prop} {core : BaseParam} {offset : Nat}
  {mask expected : UInt32} {n : Nat} {d : Duration} {h : List CardEvent}

/-- A register read adds one event to the history. -/
@[simp] lemma history_read {Q : Outcome BasedError UInt32 → List CardEvent → Prop} :
    (history _ _).wp G (basedCtrlReadU32 core offset) Q h ↔
      G h (.ctrlReadU32 (core.baseAddr + offset)) ∧
        ∀ r, Q (.ofExcept r) (h ++ [⟨.ctrlReadU32 (core.baseAddr + offset), r⟩]) := by
  apply World.wp_bind.trans
  simp only [history_access, history_ret]

/-- A register write adds one event to the history. -/
@[simp] lemma history_write {value : UInt32} {Q : Outcome BasedError Unit → List CardEvent → Prop} :
    (history _ _).wp G (basedCtrlWriteU32 core offset value) Q h ↔
      G h (.ctrlWriteU32 (core.baseAddr + offset) value) ∧
        ∀ r, Q (.ofExcept r) (h ++ [⟨.ctrlWriteU32 (core.baseAddr + offset) value, r⟩]) := by
  apply World.wp_bind.trans
  simp only [history_access, history_ret]

/-- A DMA read adds one event to the history. -/
@[simp] lemma history_dmaRead {len : Nat}
    {Q : Outcome BasedError (Bytes len) → List CardEvent → Prop} :
    (history _ _).wp G (basedDmaRead core len offset) Q h ↔
      G h (.dmaRead (core.baseAddr + offset) len) ∧
        ∀ r, Q (.ofExcept r) (h ++ [⟨.dmaRead (core.baseAddr + offset) len, r⟩]) := by
  apply World.wp_bind.trans
  simp only [history_access, history_ret]

/-- A DMA write adds one event to the history. -/
@[simp] lemma history_dmaWrite {buf : List UInt8}
    {Q : Outcome BasedError Unit → List CardEvent → Prop} :
    (history _ _).wp G (basedDmaWrite core buf offset) Q h ↔
      G h (.dmaWrite (core.baseAddr + offset) buf) ∧
        ∀ r, Q (.ofExcept r) (h ++ [⟨.dmaWrite (core.baseAddr + offset) buf, r⟩]) := by
  apply World.wp_bind.trans
  simp only [history_access, history_ret]

/-- A read of the polled register that does not match. -/
def Miss (addr : Nat) (mask expected : UInt32) (ev : CardEvent) : Prop :=
  ∃ r : Except BasedError UInt32, ev = ⟨.ctrlReadU32 addr, r⟩ ∧ ∀ v, r = .ok v → v &&& mask ≠ expected

/-- A miss is a register read. -/
lemma Miss.read {addr mask expected ev} (m : Miss addr mask expected ev) :
    ∃ addr, ev.1 = .ctrlReadU32 addr := by
  obtain ⟨r, eq, _⟩ := m
  exact ⟨addr, by rw [eq]⟩

/-- A poll, in a trace: misses only, and then a match or the timeout. -/
lemma history_poll_within {Q : Outcome BasedError Nat → List CardEvent → Prop}
    (guard : ∀ ms, (∀ m ∈ ms, Miss (core.baseAddr + offset) mask expected m) →
      G (h ++ ms) (.ctrlReadU32 (core.baseAddr + offset)))
    (hit : ∀ ms v, (∀ m ∈ ms, Miss (core.baseAddr + offset) mask expected m) → ms.length < n →
      v &&& mask = expected →
      Q (.ok (ms.length + 1)) (h ++ ms ++ [⟨.ctrlReadU32 (core.baseAddr + offset), .ok v⟩]))
    (timeout : ∀ ms, (∀ m ∈ ms, Miss (core.baseAddr + offset) mask expected m) → ms.length = n →
      Q (.err (.regMaskNotAsExpected offset mask expected)) (h ++ ms)) :
    (history _ _).wp G (pollRegMaskSleep core offset mask expected n d) Q h := by
  let J (i : Nat) (h' : List CardEvent) : Prop :=
    ∃ ms, h' = h ++ ms ∧ ms.length = i ∧ ∀ m ∈ ms, Miss (core.baseAddr + offset) mask expected m
  refine World.wp_bind.mpr (World.wp_position (J := J) ⟨[], by simp⟩ (fun _ => history_stable) ?_ ?_)
  · rintro j _ _ hj ⟨ms, rfl, rfl, miss⟩
    apply World.wp_bind.mpr
    simp only [history_access, history_ret]
    refine ⟨guard ms miss, fun r => ?_⟩
    by_cases hm : maskReady mask expected (Except.toOption r) = true
    · rw [if_pos hm]
      obtain ⟨v, rfl, hv⟩ := maskReady_iff.mp hm
      exact hit ms v miss (by omega) hv
    · rw [if_neg hm]
      refine ⟨ms ++ [⟨_, r⟩], by simp, by simp, fun m hmem => ?_⟩
      rcases List.mem_append.mp hmem with hmem | hmem
      · exact miss m hmem
      · obtain rfl := List.mem_singleton.mp hmem
        exact ⟨r, rfl, fun v hr hv => hm (maskReady_iff.mpr ⟨v, hr, hv⟩)⟩
  · rintro _ ⟨ms, rfl, len, miss⟩
    exact history_ret.mpr (timeout ms miss (by omega))

/-- A poll whose reads are always allowed. -/
lemma history_poll {Q : Outcome BasedError Nat → List CardEvent → Prop}
    (guard : ∀ h, G h (.ctrlReadU32 (core.baseAddr + offset)))
    (hit : ∀ ms v, (∀ m ∈ ms, Miss (core.baseAddr + offset) mask expected m) → ms.length < n →
      v &&& mask = expected →
      Q (.ok (ms.length + 1)) (h ++ ms ++ [⟨.ctrlReadU32 (core.baseAddr + offset), .ok v⟩]))
    (timeout : ∀ ms, (∀ m ∈ ms, Miss (core.baseAddr + offset) mask expected m) → ms.length = n →
      Q (.err (.regMaskNotAsExpected offset mask expected)) (h ++ ms)) :
    (history _ _).wp G (pollRegMaskSleep core offset mask expected n d) Q h :=
  history_poll_within (fun ms _ => guard (h ++ ms)) hit timeout

/-! ## Steps of a sequence

Each rule takes one access off the front of a sequence: what is left to show is that the access is
allowed, that the sequence may end with the error of the access, and what follows its success. -/

variable {ε β : Type} {f : BasedError → ε} {Q : Outcome ε β → List CardEvent → Prop}

/-- A register read in front of a sequence. -/
lemma step_read {k : UInt32 → Driver ε β}
    (guard : G h (.ctrlReadU32 (core.baseAddr + offset)))
    (fails : ∀ e, Q (.err (f e)) (h ++ [⟨.ctrlReadU32 (core.baseAddr + offset), .error e⟩]))
    (next : ∀ v, (history _ _).wp G (k v) Q
      (h ++ [⟨.ctrlReadU32 (core.baseAddr + offset), .ok v⟩])) :
    (history _ _).wp G ((basedCtrlReadU32 core offset).mapErr f >>= k : Driver ε β) Q h := by
  rw [World.wp_seq, World.wp_mapErr, history_read]
  refine ⟨guard, fun r => ?_⟩
  cases r with
  | error e => exact fails e
  | ok v => exact next v

/-- A register write in front of a sequence. -/
lemma step_write {value : UInt32} {k : Unit → Driver ε β}
    (guard : G h (.ctrlWriteU32 (core.baseAddr + offset) value))
    (fails : ∀ e, Q (.err (f e)) (h ++ [⟨.ctrlWriteU32 (core.baseAddr + offset) value, .error e⟩]))
    (next : (history _ _).wp G (k ()) Q
      (h ++ [⟨.ctrlWriteU32 (core.baseAddr + offset) value, .ok ()⟩])) :
    (history _ _).wp G ((basedCtrlWriteU32 core offset value).mapErr f >>= k : Driver ε β) Q h := by
  rw [World.wp_seq, World.wp_mapErr, history_write]
  refine ⟨guard, fun r => ?_⟩
  cases r with
  | error e => exact fails e
  | ok v => exact next

/-- A DMA write in front of a sequence. -/
lemma step_dmaWrite {buf : List UInt8} {k : Unit → Driver ε β}
    (guard : G h (.dmaWrite (core.baseAddr + offset) buf))
    (fails : ∀ e, Q (.err (f e)) (h ++ [⟨.dmaWrite (core.baseAddr + offset) buf, .error e⟩]))
    (next : (history _ _).wp G (k ()) Q
      (h ++ [⟨.dmaWrite (core.baseAddr + offset) buf, .ok ()⟩])) :
    (history _ _).wp G ((basedDmaWrite core buf offset).mapErr f >>= k : Driver ε β) Q h := by
  rw [World.wp_seq, World.wp_mapErr, history_dmaWrite]
  refine ⟨guard, fun r => ?_⟩
  cases r with
  | error e => exact fails e
  | ok v => exact next

/-- A DMA read in front of a sequence. -/
lemma step_dmaRead {len : Nat} {k : Bytes len → Driver ε β}
    (guard : G h (.dmaRead (core.baseAddr + offset) len))
    (fails : ∀ e, Q (.err (f e)) (h ++ [⟨.dmaRead (core.baseAddr + offset) len, .error e⟩]))
    (next : ∀ b, (history _ _).wp G (k b) Q
      (h ++ [⟨.dmaRead (core.baseAddr + offset) len, .ok b⟩])) :
    (history _ _).wp G ((basedDmaRead core len offset).mapErr f >>= k : Driver ε β) Q h := by
  rw [World.wp_seq, World.wp_mapErr, history_dmaRead]
  refine ⟨guard, fun r => ?_⟩
  cases r with
  | error e => exact fails e
  | ok b => exact next b

/-- A poll in front of a sequence, its reads allowed after misses only. -/
lemma step_poll_within {k : Nat → Driver ε β}
    (guard : ∀ ms, (∀ m ∈ ms, Miss (core.baseAddr + offset) mask expected m) →
      G (h ++ ms) (.ctrlReadU32 (core.baseAddr + offset)))
    (timeout : ∀ ms, (∀ m ∈ ms, Miss (core.baseAddr + offset) mask expected m) → ms.length = n →
      Q (.err (f (.regMaskNotAsExpected offset mask expected))) (h ++ ms))
    (next : ∀ ms v, (∀ m ∈ ms, Miss (core.baseAddr + offset) mask expected m) → ms.length < n →
      v &&& mask = expected →
      (history _ _).wp G (k (ms.length + 1)) Q
        (h ++ ms ++ [⟨.ctrlReadU32 (core.baseAddr + offset), .ok v⟩])) :
    (history _ _).wp G ((pollRegMaskSleep core offset mask expected n d).mapErr f >>= k :
      Driver ε β) Q h := by
  rw [World.wp_seq, World.wp_mapErr]
  apply history_poll_within guard
  · intro ms v miss short hit
    exact next ms v miss short hit
  · intro ms miss len
    exact timeout ms miss len

/-- A poll in front of a sequence, its reads always allowed. -/
lemma step_poll {k : Nat → Driver ε β}
    (guard : ∀ h, G h (.ctrlReadU32 (core.baseAddr + offset)))
    (timeout : ∀ ms, (∀ m ∈ ms, Miss (core.baseAddr + offset) mask expected m) → ms.length = n →
      Q (.err (f (.regMaskNotAsExpected offset mask expected))) (h ++ ms))
    (next : ∀ ms v, (∀ m ∈ ms, Miss (core.baseAddr + offset) mask expected m) → ms.length < n →
      v &&& mask = expected →
      (history _ _).wp G (k (ms.length + 1)) Q
        (h ++ ms ++ [⟨.ctrlReadU32 (core.baseAddr + offset), .ok v⟩])) :
    (history _ _).wp G ((pollRegMaskSleep core offset mask expected n d).mapErr f >>= k :
      Driver ε β) Q h :=
  step_poll_within (fun ms _ => guard (h ++ ms)) timeout next

end Histories

end Warpshell
