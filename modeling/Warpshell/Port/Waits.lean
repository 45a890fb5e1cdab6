import Warpshell.Cores.Hbicap
import Warpshell.Polling

/-!
# Waits of the configuration port

The three polls of `cores/hbicap.rs` at 10 ms intervals. The time to wait is turned into a number of
polls by a conversion to `usize` that gives 0 when the number does not fit, so the longest times to
wait allow no poll at all. `longer_iff` says for which durations waiting longer never fails where
waiting less succeeds.
-/

namespace Warpshell

/-! ## Durations -/

namespace Duration

/-- The order that Rust derives: seconds first, then nanoseconds. -/
instance : LE Duration where
  le d d' := d.secs < d'.secs ∨ d.secs = d'.secs ∧ d.nanos ≤ d'.nanos

/-- Durations compare by their nanoseconds. -/
lemma le_iff {d d' : Duration} : d ≤ d' ↔ d.asNanos ≤ d'.asNanos := by
  have lt := d.nanos_lt
  have lt' := d'.nanos_lt
  show d.secs < d'.secs ∨ d.secs = d'.secs ∧ d.nanos ≤ d'.nanos ↔ _
  rw [asNanos, asNanos]
  omega

/-- The longest duration (Rust `Duration::MAX`). -/
def max : Duration := ⟨2 ^ 64 - 1, 999999999, by decide, by decide⟩

/-- The number of whole 10 ms periods. -/
def periods (d : Duration) : Nat := d.asNanos / 10000000

/-- The number of 10 ms periods does not fit into a `usize`. -/
def Overflows (d : Duration) : Prop := 2 ^ 64 ≤ d.periods

instance (d : Duration) : Decidable d.Overflows := inferInstanceAs (Decidable (_ ≤ _))

end Duration

namespace Hbicap
open Interaction

/-! ## Polls -/

/-- What the port is polled for. -/
inductive Wait where
  | done
  | readClear
  | abortFinished
  deriving DecidableEq, Repr

def Wait.poll (hb : HbicapIf) : Wait → Duration → Driver Error Nat
  | .done => pollDoneEvery10ms hb
  | .readClear => pollReadClearEvery10ms hb
  | .abortFinished => pollAbortFinishedEvery10ms hb

/-- The register polled, the mask, and the value expected. -/
def Wait.polled : Wait → Reg × UInt32 × UInt32
  | .done => (.status, StatusRegBit.idle.mask, StatusRegBit.idle.mask)
  | .readClear => (.control, ControlRegBit.read.mask, 0)
  | .abortFinished => (.control, ControlRegBit.abort.mask, 0)

/-- On every sequence of read outcomes, what a wait for `d₁` returns, a wait for `d₂` returns. -/
def Longer (hb : HbicapIf) (w : Wait) (d₁ d₂ : Duration) : Prop :=
  ∀ r k, ReturnsOn (hb.ctrlIf.baseAddr + w.polled.1.offset) r (w.poll hb d₁) (.ok k) →
    ReturnsOn (hb.ctrlIf.baseAddr + w.polled.1.offset) r (w.poll hb d₂) (.ok k)

section
variable {hb : HbicapIf} {w : Wait} {d d₁ d₂ : Duration}

/-- The runs of a wait: the number of polls up to the match, or the timeout. -/
lemma run_pollEvery10ms {reg : Reg} {mask expected : UInt32} {t : List CardEvent}
    {o : Outcome Error Nat} :
    Run (pollEvery10ms hb reg mask expected d) t o ↔
      (∃ pos, Searched (hb.ctrlIf.baseAddr + reg.offset) mask expected (pollsEvery10ms d) t
        (some pos) ∧ o = .ok (pos + 1)) ∨
      Searched (hb.ctrlIf.baseAddr + reg.offset) mask expected (pollsEvery10ms d) t none ∧
        o = .err (.basedError (.regMaskNotAsExpected reg.offset mask expected)) := by
  apply Io.run_mapErr.trans
  apply Iff.intro
  · intro ⟨o', run, eq⟩
    obtain ⟨pos, searched, rfl⟩ | ⟨searched, rfl⟩ := run_pollRegMaskSleep.mp run
    · exact .inl ⟨pos, searched, eq⟩
    · exact .inr ⟨searched, eq⟩
  · intro ends
    obtain ⟨pos, searched, rfl⟩ | ⟨searched, rfl⟩ := ends
    · exact ⟨_, run_pollRegMaskSleep.mpr (.inl ⟨pos, searched, rfl⟩), rfl⟩
    · exact ⟨_, run_pollRegMaskSleep.mpr (.inr ⟨searched, rfl⟩), rfl⟩

/-- Ten seconds are a thousand polls. -/
lemma polls_ten_seconds : pollsEvery10ms (Duration.fromSecs 10) = 1000 := by decide

/-- Each wait is a poll of its own register, mask and value. -/
lemma Wait.poll_eq : w.poll hb d = pollEvery10ms hb w.polled.1 w.polled.2.1 w.polled.2.2 d := by
  cases w <;> rfl

/-- Each wait is for a value that the mask lets through. -/
lemma Wait.reachable : w.polled.2.2 &&& w.polled.2.1 = w.polled.2.2 := by
  cases w <;> decide

/-- A wait returns the number of the first match. -/
lemma returnsOn_wait {r : Nat → ReadOutcome} {k : Nat} :
    ReturnsOn (hb.ctrlIf.baseAddr + w.polled.1.offset) r (w.poll hb d) (.ok k) ↔
      FirstMatch r w.polled.2.1 w.polled.2.2 (pollsEvery10ms d) k := by
  rw [Wait.poll_eq]
  apply Iff.intro
  · intro ⟨t, run, eq⟩
    obtain ⟨pos, searched, same⟩ | ⟨_, same⟩ := run_pollEvery10ms.mp run
    · cases same
      exact (searched_hit.mp ⟨pos, searched, eq, rfl⟩).1
    · cases same
  · intro first
    obtain ⟨pos, searched, eq, rfl⟩ := searched_hit.mpr ⟨first, rfl⟩
    exact ⟨_, run_pollEvery10ms.mpr (.inl ⟨pos, searched, rfl⟩), eq⟩

/-- A wait is longer exactly if it has as many polls. -/
lemma longer_iff_polls : Longer hb w d₁ d₂ ↔ pollsEvery10ms d₁ ≤ pollsEvery10ms d₂ := by
  rw [← firstMatch_mono_iff (Wait.reachable (w := w))]
  apply Iff.intro
  · intro longer r k first
    exact returnsOn_wait.mp (longer r k (returnsOn_wait.mpr first))
  · intro mono r k returns
    exact returnsOn_wait.mpr (mono r k (returnsOn_wait.mp returns))

/-- The number of polls: one for each period, unless the count overflows. -/
lemma pollsEvery10ms_eq : pollsEvery10ms d = if d.Overflows then 0 else d.periods := by
  have period : (Duration.fromMillis 10).asNanos = 10000000 := by decide
  rw [pollsEvery10ms, period, usizeOrDefault]
  by_cases huge : d.Overflows
  · rw [if_pos huge]
    exact if_neg (Nat.not_lt.mpr huge)
  · rw [if_neg huge]
    exact if_pos (Nat.not_le.mp huge)

end

/-- For `d₁ ≤ d₂`, waiting for `d₂` returns what waiting for `d₁` does, for each of the three polls,
    exactly when the number of polls in `d₂` fits into a `usize`, or the one in `d₁` does not fit
    either, or `d₁` is below the interval; and the number of polls allowed is then monotone. -/
theorem longer_iff (hb : HbicapIf) {d₁ d₂ : Duration} (le : d₁ ≤ d₂) :
    (∀ w, Longer hb w d₁ d₂ ↔ ¬ d₂.Overflows ∨ d₁.Overflows ∨ d₁.asNanos < 10000000) ∧
    (pollsEvery10ms d₁ ≤ pollsEvery10ms d₂ ↔
      ¬ d₂.Overflows ∨ d₁.Overflows ∨ d₁.asNanos < 10000000) := by
  have polls : pollsEvery10ms d₁ ≤ pollsEvery10ms d₂ ↔
      ¬ d₂.Overflows ∨ d₁.Overflows ∨ d₁.asNanos < 10000000 := by
    have le := Duration.le_iff.mp le
    rw [pollsEvery10ms_eq, pollsEvery10ms_eq]
    by_cases huge₁ : d₁.Overflows
    · rw [if_pos huge₁]
      exact ⟨fun _ => .inr (.inl huge₁), fun _ => Nat.zero_le _⟩
    rw [if_neg huge₁]
    by_cases huge₂ : d₂.Overflows
    · -- No poll is allowed in `d₂`, so none may be needed in `d₁`.
      rw [if_pos huge₂]
      have short : d₁.periods ≤ 0 ↔ d₁.asNanos < 10000000 := by rw [Duration.periods]; omega
      rw [short]
      exact ⟨fun h => .inr (.inr h), fun h => (h.resolve_left (· huge₂)).resolve_left huge₁⟩
    · -- Both numbers of polls are whole periods, and the longer time has at least as many.
      rw [if_neg huge₂]
      exact ⟨fun _ => .inl huge₂, fun _ => Nat.div_le_div_right le⟩
  exact ⟨fun w => longer_iff_polls.trans polls, polls⟩

/-- Whatever ends within a second ends within ten. -/
theorem longer_iff_seconds :
    Longer ⟨⟨0x04050000⟩, ⟨0x1000000000000000⟩⟩ .done (.fromSecs 1) (.fromSecs 10) :=
  ((longer_iff _ (.inl (by decide))).1 .done).mpr (.inl (by decide))

/-- The port is idle at once: a wait of 10 ms sees it, and a wait for the longest duration does not
    look. -/
theorem max_never_looks : Duration.fromMillis 10 ≤ .max ∧
    ReturnsOn 0x04050110 (fun _ => .ok 1)
      (pollDoneEvery10ms ⟨⟨0x04050000⟩, ⟨0x1000000000000000⟩⟩ (.fromMillis 10)) (.ok 1) ∧
    ¬ ReturnsOn 0x04050110 (fun _ => .ok 1)
      (pollDoneEvery10ms ⟨⟨0x04050000⟩, ⟨0x1000000000000000⟩⟩ .max) (.ok 1) := by
  refine ⟨.inl (by decide), ?_, ?_⟩
  · refine (returnsOn_wait (w := .done)).mpr ⟨⟨Nat.le_refl 1, by decide, 1, rfl, by decide⟩, ?_⟩
    intro j ⟨pos, _⟩
    exact pos
  · intro returns
    have first := (returnsOn_wait (w := .done)).mp returns
    exact absurd first.1.2.1 (by decide)

end Hbicap

end Warpshell
