import Warpshell.Mailbox.Card

/-!
# Driving the card

How the accesses of the driver act on the card: what each address stands for, and the rules that take
one access off the front of a driver program. The environment between the accesses is a parameter;
an assertion about the card is carried from one access to the next when the environment keeps it.
-/

namespace Warpshell.Cms
open Interaction

/-! ## The status bit -/

/-- A mask distributes over a disjunction of bits. -/
lemma or_and_distrib (a b c : UInt32) : (a ||| b) &&& c = a &&& c ||| b &&& c := by
  rw [← UInt32.toBitVec_inj]
  simp only [UInt32.toBitVec_and, UInt32.toBitVec_or]
  ext i
  simp [Bool.and_or_distrib_right]

lemma or_and_ne_zero (v w mask : UInt32) :
    (v ||| w) &&& mask ≠ 0 ↔ v &&& mask ≠ 0 ∨ w &&& mask ≠ 0 := by
  rw [or_and_distrib, ne_eq, UInt32.or_eq_zero_iff, not_and_or]

lemma busy_or {v w : UInt32} : Busy (v ||| w) ↔ Busy v ∨ Busy w := or_and_ne_zero v w _

lemma busy_status (v : UInt32) : Busy (v ||| ControlRegBit.mailboxStatus.mask) :=
  busy_or.mpr (.inr (by decide))

/-- Setting another bit leaves the status bit as it was. -/
lemma busy_other {v : UInt32} {bit : ControlRegBit} (ne : bit ≠ .mailboxStatus) :
    Busy (v ||| bit.mask) ↔ Busy v := by
  have quiet : ¬ Busy bit.mask := by
    cases bit <;> first | contradiction | decide
  rw [busy_or, or_iff_left quiet]

/-- Clearing the status bit lowers it. -/
lemma not_busy_clear (control : UInt32) :
    ¬ Busy (control &&& ~~~ControlRegBit.mailboxStatus.mask) := by
  rw [Busy, not_not, UInt32.and_assoc, UInt32.not_and_self, UInt32.and_zero]

/-! ## Addresses -/

namespace Map
variable (m : Map)

/-- The registers lie below the mailbox. -/
lemma reg_lt_word (r : CmsReg) (i : Nat) : m.reg r < m.word i := by
  have low : r.offset < 0x29000 := by cases r <;> decide
  have range := m.inRange.1
  simp only [reg, word, mboxOffset]
  omega

lemma reg_ne {r r' : CmsReg} (ne : r.offset ≠ r'.offset) : m.reg r ≠ m.reg r' :=
  fun eq => ne (Nat.add_left_cancel eq)

lemma locate_control : m.locate (m.reg .control) = .control := if_pos rfl

lemma locate_hostMsgOffset : m.locate (m.reg .hostMsgOffset) = .hostMsgOffset := by
  rw [locate, if_neg (m.reg_ne (by decide)), if_pos rfl]

lemma locate_hostMsgError : m.locate (m.reg .hostMsgError) = .hostMsgError := by
  rw [locate, if_neg (m.reg_ne (by decide)), if_neg (m.reg_ne (by decide)), if_pos rfl]

lemma locate_word (i : Nat) : m.locate (m.word i) = .word i := by
  have above : ∀ r, m.word i ≠ m.reg r := fun r => Nat.ne_of_gt (m.reg_lt_word r i)
  have eq : m.word i - m.word 0 = 4 * i := by
    simp only [word]
    omega
  have le : m.word 0 ≤ m.word i := by
    simp only [word]
    omega
  rw [locate, if_neg (above _), if_neg (above _), if_neg (above _), eq]
  rw [if_pos ⟨le, Nat.mul_mod_right 4 i⟩, Nat.mul_div_cancel_left i (by decide)]

/-- The addresses of the registers that the mailbox exchange does not use. -/
lemma locate_other {r : CmsReg} (other : r = .microblazeResetN ∨ r = .regMapId ∨ r = .hostStatus) :
    m.locate (m.reg r) = .other := by
  have below : ¬ (m.word 0 ≤ m.reg r ∧ (m.reg r - m.word 0) % 4 = 0) :=
    fun both => absurd both.1 (Nat.not_le.mpr (m.reg_lt_word r 0))
  obtain eq | eq | eq := other
  all_goals
    subst eq
    rw [locate, if_neg (m.reg_ne (by decide)), if_neg (m.reg_ne (by decide)),
      if_neg (m.reg_ne (by decide)), if_neg below]

end Map

/-! ## Accesses -/

namespace Card
variable {τ : Type} {m : Map} {who : τ} {s : Card τ} {v : UInt32}

/-- What a read returns, by the location of its address. -/
lemma reads_located {addr : Nat} {l : Location} (eq : m.locate addr = l) :
    s.Reads m addr v ↔ s.Holds m v l := by
  rw [Reads, eq]

/-- What a write does, by the location of its address. -/
lemma write_located {addr : Nat} {l : Location} (eq : m.locate addr = l) :
    s.write m who addr v = (s.record (.wrote who addr v)).put v l := by
  rw [write, eq]

/-- A write is logged. -/
lemma write_log {addr : Nat} : (s.write m who addr v).log = s.log ++ [.wrote who addr v] := by
  rw [write]
  cases m.locate addr <;> rfl

/-- A write leaves the firmware's phase alone. -/
lemma write_phase {addr : Nat} : (s.write m who addr v).phase = s.phase := by
  rw [write]
  cases m.locate addr <;> rfl

/-- A write of Control sets it. -/
lemma write_control : (s.write m who (m.reg .control) v).control = v := by
  rw [write_located m.locate_control]
  rfl

/-- Only a write to the Control register changes the status bit. -/
lemma write_elsewhere {addr : Nat} (elsewhere : addr ≠ m.reg .control) :
    (s.write m who addr v).control = s.control := by
  have ne : m.locate addr ≠ .control := by
    rw [Map.locate, if_neg elsewhere]
    split_ifs <;> nofun
  rw [write]
  cases eq : m.locate addr with
  | control => exact absurd eq ne
  | hostMsgOffset => rfl
  | hostMsgError => rfl
  | word i => rfl
  | other => rfl

/-- What raises the status bit is a write of Control. -/
lemma write_raises {addr : Nat} (quiet : ¬ s.busy) (busy : (s.write m who addr v).busy) :
    addr = m.reg .control ∧ Busy v := by
  by_cases eq : addr = m.reg .control
  · subst eq
    rw [Card.busy, write_control] at busy
    exact ⟨rfl, busy⟩
  · rw [Card.busy, write_elsewhere eq] at busy
    exact absurd busy quiet

/-- An access does nothing, logs a read, or is a write. -/
lemma Answers.effect {e : Access} {r : e.Answer} {s' : Card τ} (an : Answers m who s e r s') :
    s' = s ∨ (∃ addr v, s' = s.record (.read who addr v)) ∨
      ∃ addr v, e = .ctrlWriteU32 addr v ∧ s' = s.write m who addr v := by
  cases an with
  | read => exact .inr (.inl ⟨_, _, rfl⟩)
  | readFailed => exact .inl rfl
  | write => exact .inr (.inr ⟨_, _, rfl, rfl⟩)
  | writeFailed => exact .inl rfl
  | writeUnsure => exact .inr (.inr ⟨_, _, rfl, rfl⟩)
  | dmaRead => exact .inl rfl
  | dmaWrite => exact .inl rfl

/-- The executable card answers a read of Control with its value. -/
lemma respond_control {others : Nat → UInt32} :
    (s.respond m who others (.ctrlReadU32 (m.reg .control))).2 =
      s.record (.read who (m.reg .control) s.control) := by
  simp only [respond, m.locate_control]

/-- The world of one party on the card. -/
def world (m : Map) (who : τ) (env : Card τ → Card τ → Prop) :
    World Access Access.Answer (Card τ) where
  env := env
  answers := Answers m who

end Card

/-! ## Rules -/

section Rules
variable {τ : Type} {m : Map} {who : τ} {env : Card τ → Card τ → Prop}
  {G : Card τ → Access → Prop} {offset : Nat} {ε β : Type} {f : BasedError → ε}
  {Q : Outcome ε β → Card τ → Prop} {P : Card τ → Prop} {s : Card τ}

/-- A register read of the mailbox card, in front of a sequence. -/
lemma card_read {k : UInt32 → Driver ε β} (hs : P s) (stP : (Card.world m who env).Stable P)
    (stQ : ∀ o, (Card.world m who env).Stable (Q o))
    (step : ∀ s, P s → G s (.ctrlReadU32 (m.core.baseAddr + offset)) ∧ (∀ e, Q (.err (f e)) s) ∧
      ∀ v, s.Reads m (m.core.baseAddr + offset) v → (Card.world m who env).wp G (k v) Q
        (s.record (.read who (m.core.baseAddr + offset) v))) :
    (Card.world m who env).wp G ((basedCtrlReadU32 m.core offset).mapErr f >>= k : Driver ε β) Q s := by
  rw [World.wp_seq, World.wp_mapErr]
  apply wp_basedCtrlReadU32 hs stP
  · intro o s s' h e
    cases o with
    | ok v => exact World.wp_env h (.single e)
    | err err => exact stQ _ s s' h e
    | panic => exact stQ _ s s' h e
  · intro s hP
    obtain ⟨g, fails, next⟩ := step s hP
    refine ⟨g, fun r s' an => ?_⟩
    cases an with
    | read reads => exact next _ reads
    | readFailed => exact fails _

/-- A register write to the mailbox card, in front of a sequence: it may fail and still land. -/
lemma card_write {value : UInt32} {k : Unit → Driver ε β} (hs : P s)
    (stP : (Card.world m who env).Stable P) (stQ : ∀ o, (Card.world m who env).Stable (Q o))
    (step : ∀ s, P s → G s (.ctrlWriteU32 (m.core.baseAddr + offset) value) ∧
      (∀ e, Q (.err (f e)) s ∧ Q (.err (f e)) (s.write m who (m.core.baseAddr + offset) value)) ∧
      (Card.world m who env).wp G (k ()) Q (s.write m who (m.core.baseAddr + offset) value)) :
    (Card.world m who env).wp G
      ((basedCtrlWriteU32 m.core offset value).mapErr f >>= k : Driver ε β) Q s := by
  rw [World.wp_seq, World.wp_mapErr]
  apply wp_basedCtrlWriteU32 hs stP
  · intro o s s' h e
    cases o with
    | ok v => exact World.wp_env h (.single e)
    | err err => exact stQ _ s s' h e
    | panic => exact stQ _ s s' h e
  · intro s hP
    obtain ⟨g, fails, next⟩ := step s hP
    refine ⟨g, fun r s' an => ?_⟩
    cases an with
    | write => exact next
    | writeFailed => exact (fails _).1
    | writeUnsure => exact (fails _).2

/-- A poll of the mailbox card, in front of a sequence. -/
lemma card_poll {mask expected : UInt32} {n : Nat} {d : Duration} {k : Nat → Driver ε β} (hs : P s)
    (stP : (Card.world m who env).Stable P) (stQ : ∀ o, (Card.world m who env).Stable (Q o))
    (step : ∀ s, P s → G s (.ctrlReadU32 (m.core.baseAddr + offset)) ∧ (∀ e, Q (.err (f e)) s) ∧
      ∀ v, s.Reads m (m.core.baseAddr + offset) v →
        (v &&& mask = expected → ∀ j, (Card.world m who env).wp G (k j) Q
          (s.record (.read who (m.core.baseAddr + offset) v))) ∧
        (v &&& mask ≠ expected → P (s.record (.read who (m.core.baseAddr + offset) v)))) :
    (Card.world m who env).wp G ((pollRegMaskSleep m.core offset mask expected n d).mapErr f >>= k :
      Driver ε β) Q s := by
  rw [World.wp_seq, World.wp_mapErr]
  refine wp_pollRegMaskSleep hs stP ?_ ?_ (fun s hP => (step s hP).2.1 _)
  · intro o s s' h e
    cases o with
    | ok v => exact World.wp_env h (.single e)
    | err err => exact stQ _ s s' h e
    | panic => exact stQ _ s s' h e
  · intro s hP
    obtain ⟨g, fails, next⟩ := step s hP
    refine ⟨g, fun r s' an => ?_⟩
    cases an with
    | @read _ v reads =>
      obtain ⟨hit, miss⟩ := next v reads
      split
      next ready =>
        obtain ⟨v', eq, clear⟩ := maskReady_iff.mp ready
        cases eq
        exact hit clear
      next ready => exact miss fun clear => ready (maskReady_iff.mpr ⟨v, rfl, clear⟩)
    | readFailed => exact hP

/-! The same, by what is accessed. -/

/-- A read of a located register through the driver. -/
lemma card_getCmsReg {r : CmsReg} {l : Location} {k : UInt32 → Driver Error β}
    {Q : Outcome Error β → Card τ → Prop} (located : m.locate (m.reg r) = l) (hs : P s)
    (stP : (Card.world m who env).Stable P) (stQ : ∀ o, (Card.world m who env).Stable (Q o))
    (step : ∀ s, P s → G s (.ctrlReadU32 (m.reg r)) ∧ (∀ e, Q (.err (.basedError e)) s) ∧
      ∀ v, s.Holds m v l →
        (Card.world m who env).wp G (k v) Q (s.record (.read who (m.reg r) v))) :
    (Card.world m who env).wp G (getCmsReg m.core r >>= k : Driver Error β) Q s := by
  apply card_read hs stP stQ
  intro s hP
  obtain ⟨g, fails, next⟩ := step s hP
  exact ⟨g, fails, fun v reads => next v ((Card.reads_located located).mp reads)⟩

/-- A write of a located register through the driver. -/
lemma card_setCmsReg {r : CmsReg} {l : Location} {value : UInt32} {k : Unit → Driver Error β}
    {Q : Outcome Error β → Card τ → Prop} (located : m.locate (m.reg r) = l) (hs : P s)
    (stP : (Card.world m who env).Stable P) (stQ : ∀ o, (Card.world m who env).Stable (Q o))
    (step : ∀ s, P s → G s (.ctrlWriteU32 (m.reg r) value) ∧
      (∀ e, Q (.err (.basedError e)) s ∧
        Q (.err (.basedError e)) ((s.record (.wrote who (m.reg r) value)).put value l)) ∧
      (Card.world m who env).wp G (k ()) Q ((s.record (.wrote who (m.reg r) value)).put value l)) :
    (Card.world m who env).wp G (setCmsReg m.core r value >>= k : Driver Error β) Q s := by
  apply card_write hs stP stQ
  intro s hP
  obtain ⟨g, fails, next⟩ := step s hP
  have eq : s.write m who (m.core.baseAddr + r.offset) value =
      (s.record (.wrote who (m.reg r) value)).put value l := Card.write_located located
  rw [eq]
  exact ⟨g, fails, next⟩

/-- A poll of a located register through the driver. -/
lemma card_pollReg {r : CmsReg} {l : Location} {mask expected : UInt32} {n : Nat} {d : Duration}
    {k : Nat → Driver ε β} (located : m.locate (m.reg r) = l) (hs : P s)
    (stP : (Card.world m who env).Stable P) (stQ : ∀ o, (Card.world m who env).Stable (Q o))
    (step : ∀ s, P s → G s (.ctrlReadU32 (m.reg r)) ∧ (∀ e, Q (.err (f e)) s) ∧
      ∀ v, s.Holds m v l →
        (v &&& mask = expected → ∀ j, (Card.world m who env).wp G (k j) Q
          (s.record (.read who (m.reg r) v))) ∧
        (v &&& mask ≠ expected → P (s.record (.read who (m.reg r) v)))) :
    (Card.world m who env).wp G ((pollRegMaskSleep m.core r.offset mask expected n d).mapErr f >>= k :
      Driver ε β) Q s := by
  apply card_poll hs stP stQ
  intro s hP
  obtain ⟨g, fails, next⟩ := step s hP
  exact ⟨g, fails, fun v reads => next v ((Card.reads_located located).mp reads)⟩

/-- A read of a mailbox word. -/
lemma card_readWord {i : Nat} {k : UInt32 → Driver ε β} (hs : P s)
    (stP : (Card.world m who env).Stable P) (stQ : ∀ o, (Card.world m who env).Stable (Q o))
    (step : ∀ s, P s → G s (.ctrlReadU32 (m.word i)) ∧ (∀ e, Q (.err (f e)) s) ∧
      (Card.world m who env).wp G (k (s.mailbox i)) Q
        (s.record (.read who (m.word i) (s.mailbox i)))) :
    (Card.world m who env).wp G
      ((basedCtrlReadU32 m.core (m.mboxOffset + 4 * i)).mapErr f >>= k : Driver ε β) Q s := by
  apply card_read hs stP stQ
  intro s hP
  obtain ⟨g, fails, next⟩ := step s hP
  refine ⟨g, fails, fun v reads => ?_⟩
  have eq : v = s.mailbox i := (Card.reads_located (m.locate_word i)).mp reads
  subst eq
  exact next

/-- A write of a mailbox word. -/
lemma card_writeWord {i : Nat} {value : UInt32} {k : Unit → Driver ε β} (hs : P s)
    (stP : (Card.world m who env).Stable P) (stQ : ∀ o, (Card.world m who env).Stable (Q o))
    (step : ∀ s, P s → G s (.ctrlWriteU32 (m.word i) value) ∧
      (∀ e, Q (.err (f e)) s ∧
        Q (.err (f e)) ((s.record (.wrote who (m.word i) value)).put value (.word i))) ∧
      (Card.world m who env).wp G (k ()) Q
        ((s.record (.wrote who (m.word i) value)).put value (.word i))) :
    (Card.world m who env).wp G
      ((basedCtrlWriteU32 m.core (m.mboxOffset + 4 * i) value).mapErr f >>= k : Driver ε β) Q s := by
  apply card_write hs stP stQ
  intro s hP
  obtain ⟨g, fails, next⟩ := step s hP
  have eq : s.write m who (m.core.baseAddr + (m.mboxOffset + 4 * i)) value =
      (s.record (.wrote who (m.word i) value)).put value (.word i) :=
    Card.write_located (m.locate_word i)
  rw [eq]
  exact ⟨g, fails, next⟩

/-- Reading Control and writing it back with one more bit; `J` links the value read to the card. -/
lemma card_setControlBit {bit : ControlRegBit} {J : UInt32 → Card τ → Prop}
    {Q : Outcome Error Unit → Card τ → Prop} (hs : P s) (stP : (Card.world m who env).Stable P)
    (stJ : ∀ v, (Card.world m who env).Stable (J v)) (stQ : ∀ o, (Card.world m who env).Stable (Q o))
    (read : ∀ s, P s → G s (.ctrlReadU32 (m.reg .control)) ∧ (∀ e, Q (.err e) s) ∧
      J s.control (s.record (.read who (m.reg .control) s.control)))
    (write : ∀ s v, J v s → G s (.ctrlWriteU32 (m.reg .control) (v ||| bit.mask)) ∧
      (∀ e, Q (.err e) s) ∧
      ∀ o, Q o
        ((s.record (.wrote who (m.reg .control) (v ||| bit.mask))).put (v ||| bit.mask) .control)) :
    (Card.world m who env).wp G (setControlBit m.core bit) Q s := by
  apply card_getCmsReg m.locate_control hs stP stQ
  intro s h
  obtain ⟨g, fails, linked⟩ := read s h
  refine ⟨g, fun e => fails _, fun v holds => ?_⟩
  cases holds
  rw [← Io.bind_pure (setCmsControlReg _ _)]
  apply card_setCmsReg m.locate_control linked (stJ _) stQ
  intro s h
  obtain ⟨g, fails, written⟩ := write s _ h
  exact ⟨g, fun e => ⟨fails _, written _⟩, fun s' e => World.Stable.env (stQ _) (written _) e⟩

/-- The word loop only reads, so it keeps what reads keep. -/
lemma card_readInfoBytes {offset dataOffset : Nat} {r : Int} {bytes : List UInt8} (hs : P s)
    (stP : (Card.world m who env).Stable P) (record : ∀ s e, P s → P (s.record e))
    (reads : ∀ s addr, P s → G s (.ctrlReadU32 addr)) :
    (Card.world m who env).wp G (readInfoBytes m.core offset dataOffset r bytes) (fun _ => P) s := by
  induction n : r.toNat using Nat.strongRecOn generalizing dataOffset r bytes s with
  | ind n ih =>
    subst n
    rw [readInfoBytes]
    split
    next more =>
      refine card_read hs stP (fun _ => stP) fun s h => ⟨reads s _ h, fun e => h, fun v _ => ?_⟩
      exact ih (r - 4).toNat (by omega) (record s _ h) rfl
    next done => exact fun s' e => World.Stable.env stP hs e

/-- `init` up to the read-modify-write of Control: accesses that nothing but the log shows. -/
lemma card_init {Q : Outcome Error Unit → Card τ → Prop} (hs : P s)
    (stP : (Card.world m who env).Stable P) (stQ : ∀ o, (Card.world m who env).Stable (Q o))
    (record : ∀ s e, P s → P (s.record e)) (reads : ∀ s addr, P s → G s (.ctrlReadU32 addr))
    (reset : ∀ s, P s → G s (.ctrlWriteU32 (m.reg .microblazeResetN) 1))
    (fails : ∀ s e, P s → Q (.err e) s)
    (enable : ∀ s, P s → (Card.world m who env).wp G (enableHbmTempMonitoring m.core) Q s) :
    (Card.world m who env).wp G (init m.core) Q s := by
  have resetN : m.locate (m.reg .microblazeResetN) = .other := m.locate_other (.inl rfl)
  have regMapId : m.locate (m.reg .regMapId) = .other := m.locate_other (.inr (.inl rfl))
  have hostStatus : m.locate (m.reg .hostStatus) = .other := m.locate_other (.inr (.inr rfl))
  apply card_setCmsReg resetN hs stP stQ
  intro s h
  refine ⟨reset s h, fun e => ⟨fails _ _ h, fails _ _ (record _ _ h)⟩, ?_⟩
  apply card_pollReg hostStatus (record _ _ h) stP stQ
  intro s h
  refine ⟨reads _ _ h, fun e => fails _ _ h, fun v _ => ⟨fun _ j => ?_, fun _ => record _ _ h⟩⟩
  apply card_getCmsReg regMapId (record _ _ h) stP stQ
  intro s h
  refine ⟨reads _ _ h, fun e => fails _ _ h, fun v _ => ?_⟩
  by_cases supported : v ≠ supportedRegMapId
  · rw [if_pos supported]
    exact fun s' e => World.Stable.env (stQ _) (fails _ _ (record _ _ h)) e
  · rw [if_neg supported]
    exact enable _ (record _ _ h)

end Rules

end Warpshell.Cms
