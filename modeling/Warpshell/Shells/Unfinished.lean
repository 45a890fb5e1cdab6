import Warpshell.Shells.Course

/-!
# Unfinished operations

A read or an abort of the configuration port is over when its bit of the Control register reads as
clear. A call can return before that, so whether the next call may start something depends on the
whole history: `Pending` reads it off, and `respects_iff` says which sequences of calls never start
anything on top of an unfinished operation.
-/

namespace Warpshell.U55n
open Interaction Hbicap

/-- The operations that have a bit in the Control register. -/
inductive Operation where
  | read
  | abort
  deriving DecidableEq, Repr

def Operation.mask : Operation → UInt32
  | .read => ControlRegBit.read.mask
  | .abort => ControlRegBit.abort.mask

/-- A Control write that sets the bit. -/
def Sets (op : Operation) (ev : CardEvent) : Prop :=
  ∃ v, ev.1 = .ctrlWriteU32 (hbicapReg .control) v ∧ v &&& op.mask ≠ 0

/-- The bit was read as clear. -/
def ClearSeen (op : Operation) (ev : CardEvent) : Prop :=
  ∃ v, ev = ⟨.ctrlReadU32 (hbicapReg .control), .ok v⟩ ∧ v &&& op.mask = 0

/-- The last Control write that set a bit set the one of `op`, which has not been seen clear since. -/
def PendingOp (op : Operation) : List CardEvent → Prop :=
  Since (Sets op) fun ev => ClearSeen op ev ∨ ∃ op', Sets op' ev

/-- Some operation is not known to be over. -/
def Pending (h : List CardEvent) : Prop := ∃ op, PendingOp op h

/-- A Size write, a DMA write, or a Control write that sets Read. -/
def Initiates (e : Access) : Prop :=
  Starts e ∨ ∃ v, e = .ctrlWriteU32 (hbicapReg .control) v ∧ v &&& ControlRegBit.read.mask ≠ 0

/-- Nothing is initiated on top of an unfinished operation. -/
def Respects : List CardEvent → List CardEvent → Prop :=
  Guarded fun h ev => Initiates ev.1 → ¬ Pending h

inductive Call where
  | configLogicRegReadback (reg : ConfigLogicReg)
  | abort
  | programUserImage (image : List UInt8)
  deriving DecidableEq, Repr

/-- The traces of a call. -/
inductive Call.Runs : Call → List CardEvent → Prop where
  | configLogicRegReadback {reg t r} : Run (Hbicap.configLogicRegReadback hbicap reg) t r →
    Runs (.configLogicRegReadback reg) t
  | abort {debug t r} : Run (Hbicap.abort debug hbicap) t r → Runs .abort t
  | programUserImage {debug image t r} : Run (U55n.programUserImage debug image) t r →
    Runs (.programUserImage image) t

/-- The initial poll of a reprogramming saw the Idle bit, and both firewalls were blocked. -/
def GoesAhead (t : List CardEvent) : Prop :=
  ∃ t₀ rest, SeenIdle t₀ ∧
    t = t₀ ++ [blocked ctrlAxiFirewall] ++ [blocked dmaAxiFirewall] ++ rest

/-- A call that does not meet an unfinished operation, or aborts it. -/
def Call.Careful (h : List CardEvent) : Call × List CardEvent → Prop
  | (.configLogicRegReadback _, _) => ¬ Pending h
  | (.abort, _) => True
  | (.programUserImage _, t) => ¬ (Pending h ∧ GoesAhead t)

section
variable {op : Operation} {h t : List CardEvent} {e : Access}

/-! ## What changes what is pending -/

/-- A write to another register sets no bit. -/
lemma not_sets_of_addr {addr : Nat} {v : UInt32} {r} (other : addr ≠ hbicapReg .control) :
    ¬ Sets op ⟨.ctrlWriteU32 addr v, r⟩ := by
  intro ⟨v', eq, _⟩
  exact other (Access.ctrlWriteU32.inj eq).1

/-- A read sets no bit. -/
lemma not_sets_of_read {ev : CardEvent} (read : ∃ addr, ev.1 = .ctrlReadU32 addr) : ¬ Sets op ev := by
  obtain ⟨addr, eq⟩ := read
  intro ⟨v, eq', _⟩
  rw [eq] at eq'
  cases eq'

/-- Nothing is pending after accesses that set no bit. -/
lemma not_pending_append (idle : ¬ Pending h) (quiet : ∀ ev ∈ t, ∀ op, ¬ Sets op ev) :
    ¬ Pending (h ++ t) := by
  intro ⟨op, pending⟩
  exact idle ⟨op, pending.of_append fun ev mem => quiet ev mem op⟩

lemma not_pending_concat {x : CardEvent} (idle : ¬ Pending h) (quiet : ∀ op, ¬ Sets op x) :
    ¬ Pending (h ++ [x]) :=
  not_pending_append idle fun _ mem => List.mem_singleton.mp mem ▸ quiet

/-- An operation is over once its bit is seen clear. -/
lemma not_pendingOp_clear {x : CardEvent} (clear : ClearSeen op x) : ¬ PendingOp op (h ++ [x]) := by
  intro pending
  rcases since_concat.mp pending with sets | ⟨kept, _⟩
  · obtain ⟨v, eq, _⟩ := clear
    exact not_sets_of_read ⟨_, by rw [eq]⟩ sets
  · exact kept (.inl clear)

/-- A write that sets another bit takes the place of an operation. -/
lemma not_pendingOp_sets {op' : Operation} {x : CardEvent} (sets : Sets op' x) (other : ¬ Sets op x) :
    ¬ PendingOp op (h ++ [x]) := by
  intro pending
  rcases since_concat.mp pending with sets' | ⟨kept, _⟩
  · exact other sets'
  · exact kept (.inr ⟨op', sets⟩)

/-- The wait initiates nothing. -/
lemma Waits.not_initiates (w : Waits e) : ¬ Initiates e := by
  intro i
  obtain starts | ⟨v, eq, set⟩ := i
  · exact w.not_starts starts
  · rw [eq] at w
    rw [w.2] at set
    exact set (by decide)

/-- A write to another register leaves pending what is pending. -/
lemma pending_write {addr : Nat} {v : UInt32} {r} (other : addr ≠ hbicapReg .control) :
    Pending (h ++ [⟨.ctrlWriteU32 addr v, r⟩]) ↔ Pending h := by
  refine exists_congr fun op => since_append fun ev mem => ?_
  rw [List.mem_singleton.mp mem]
  refine ⟨not_sets_of_addr other, fun ends => ?_⟩
  obtain ⟨v', eq, _⟩ | ⟨op', sets⟩ := ends
  · cases eq
  · exact not_sets_of_addr other sets

/-- Reading Status leaves pending what is pending. -/
lemma SeenIdle.pending (s : SeenIdle t) : Pending (h ++ t) ↔ Pending h := by
  have quiet : ∀ op, ∀ ev ∈ t, ¬ Sets op ev ∧ ¬ (ClearSeen op ev ∨ ∃ op', Sets op' ev) := by
    intro op ev mem
    have read : ∃ addr, ev.1 = .ctrlReadU32 addr := s.reads ev mem
    refine ⟨not_sets_of_read read, fun ends => ?_⟩
    obtain ⟨v, eq, _⟩ | ⟨op', sets⟩ := ends
    · have status := s.status ev mem
      rw [eq] at status
      exact absurd (Access.ctrlReadU32.inj status) (by decide)
    · exact not_sets_of_read read sets
  exact exists_congr fun op => since_append (quiet op)

/-- After an abort that succeeds, nothing is pending. -/
lemma Aborted.not_pending (a : Aborted t) : ¬ Pending (h ++ t) := by
  cases a with
  | @intro ms t miss done =>
    cases done with
    | @intro mid ev seen reads clear =>
      let request := written (hbicapReg .control) ControlRegBit.abort.mask
      have eq : h ++ (ms ++ request :: (mid ++ [ev])) = h ++ ms ++ [request] ++ mid ++ [ev] := by
        simp only [List.append_assoc, List.cons_append, List.nil_append]
      rw [eq]
      intro ⟨op, pending⟩
      cases op with
      | abort =>
        have ended : ¬ PendingOp .abort (h ++ ms ++ [request] ++ mid ++ [ev]) :=
          not_pendingOp_clear clear
        exact ended pending
      | read =>
        -- The request took the place of a read, and nothing after it asks for one.
        have quiet : ∀ x ∈ mid ++ [ev], ¬ Sets .read x := by
          intro x mem
          rcases List.mem_append.mp mem with mem | mem
          · exact not_sets_of_read (reads x mem)
          · rw [List.mem_singleton.mp mem]
            exact not_sets_of_read clear.read
        rw [List.append_assoc] at pending
        have requested : Sets .abort request := ⟨_, rfl, by decide⟩
        have other : ¬ Sets .read request := by
          intro ⟨v, eq, set⟩
          rw [← (Access.ctrlWriteU32.inj eq).2] at set
          exact set (by decide)
        exact not_pendingOp_sets requested other (pending.of_append quiet)

/-! ## The calls -/

/-- A write to neither Size nor Control initiates nothing. -/
lemma not_initiates_of_addr {addr : Nat} {v : UInt32} (size : addr ≠ hbicapReg .size)
    (control : addr ≠ hbicapReg .control) : ¬ Initiates (.ctrlWriteU32 addr v) := by
  intro i
  obtain eq | ⟨v', eq, _⟩ := i
  · exact size eq
  · exact control (Access.ctrlWriteU32.inj eq).1

lemma not_initiates_read {addr : Nat} : ¬ Initiates (.ctrlReadU32 addr) :=
  Waits.not_initiates trivial

/-- The guard of a call that initiates nothing on top of an unfinished operation. -/
def OnlyIdle (h : List CardEvent) (e : Access) : Prop := Initiates e → ¬ Pending h

lemma onlyIdle_read {addr : Nat} : OnlyIdle h (.ctrlReadU32 addr) :=
  fun i => absurd i not_initiates_read

/-- Polls set no bit. -/
lemma missed_quiet {addr mask expected} (miss : ∀ m ∈ t, Miss addr mask expected m) :
    ∀ ev ∈ t, ∀ op, ¬ Sets op ev :=
  fun ev mem _ => not_sets_of_read (miss ev mem).read

section Readback
variable {β : Type}

/-- A transfer that starts with nothing pending leaves nothing pending. -/
lemma onlyIdle_writeBitstream {buf : List UInt8} {k : Unit → Driver Hbicap.Error β}
    (idle : ¬ Pending h)
    (next : ∀ h', ¬ Pending h' → (history _ _).wp OnlyIdle (k ()) (fun _ _ => True) h') :
    (history _ _).wp OnlyIdle (writeBitstream hbicap buf >>= k : Driver Hbicap.Error β)
      (fun _ _ => True) h := by
  rw [writeBitstream, setHbicapReg, Io.bind_assoc]
  apply step_write (fun _ => idle) (fun _ => trivial)
  have quiet : ∀ op, ¬ Sets op (written (hbicapReg .size) (announcedWords buf.length)) :=
    fun op => not_sets_of_addr (by decide)
  have idle' := not_pending_concat idle quiet
  apply step_dmaWrite (fun _ => idle') (fun _ => trivial)
  exact next _ (not_pending_concat idle' nofun)

/-- A wait that starts with nothing pending leaves nothing pending. -/
lemma onlyIdle_pollDone {d : Duration} {k : Nat → Driver Hbicap.Error β} (idle : ¬ Pending h)
    (next : ∀ n h', ¬ Pending h' → (history _ _).wp OnlyIdle (k n) (fun _ _ => True) h') :
    (history _ _).wp OnlyIdle (pollDoneEvery10ms hbicap d >>= k : Driver Hbicap.Error β)
      (fun _ _ => True) h := by
  apply step_poll (fun _ => onlyIdle_read) (fun _ _ _ => trivial)
  intro ms v miss _ _
  refine next _ _ (not_pending_concat (not_pending_append idle (missed_quiet miss)) fun op => ?_)
  exact not_sets_of_read ⟨_, rfl⟩

/-- A read is over when its bit is clear. -/
lemma onlyIdle_readBitstream {len : Nat} {d : Duration} {k : Bytes len → Nat → Driver Hbicap.Error β}
    (idle : ¬ Pending h)
    (next : ∀ b n h', ¬ Pending h' → (history _ _).wp OnlyIdle (k b n) (fun _ _ => True) h') :
    (history _ _).wp OnlyIdle (readBitstream hbicap len >>= fun output =>
      pollReadClearEvery10ms hbicap d >>= k output : Driver Hbicap.Error β) (fun _ _ => True) h := by
  simp only [readBitstream, setHbicapReg, Io.bind_assoc]
  apply step_write (fun _ => idle) (fun _ => trivial)
  have quiet : ∀ op, ¬ Sets op (written (hbicapReg .size) (announcedWords len)) :=
    fun op => not_sets_of_addr (by decide)
  have idle' := not_pending_concat idle quiet
  apply step_write (fun _ => idle') (fun _ => trivial)
  let request := written (hbicapReg .control) ControlRegBit.read.mask
  have requested : Sets .read request := ⟨_, rfl, by decide⟩
  have other : ¬ Sets .abort request := by
    intro ⟨v, eq, set⟩
    rw [← (Access.ctrlWriteU32.inj eq).2] at set
    exact set (by decide)
  refine step_dmaRead (fun i => ?_) (fun _ => trivial) ?_
  · obtain starts | ⟨v, eq, _⟩ := i
    · exact starts.elim
    · cases eq
  intro b
  apply step_poll (fun _ => onlyIdle_read) (fun _ _ _ => trivial)
  intro ms v miss _ clear
  apply next b _ _
  intro ⟨op, pending⟩
  cases op with
  | read =>
    have ended : ClearSeen .read ⟨.ctrlReadU32 (hbicapReg .control), .ok v⟩ := ⟨v, rfl, clear⟩
    exact not_pendingOp_clear ended pending
  | abort =>
    -- The request took the place of an abort, and nothing after it asks for one.
    have before := pending.of_append fun ev mem => by
      rw [List.mem_singleton.mp mem]
      exact not_sets_of_read ⟨_, rfl⟩
    have before := before.of_append fun ev mem => missed_quiet miss ev mem .abort
    have before := before.of_append fun ev mem => by
      rw [List.mem_singleton.mp mem]
      nofun
    exact not_pendingOp_sets requested other before

end Readback

/-- A readback that starts with nothing pending finishes its read before it writes again. -/
lemma wp_configLogicRegReadback {reg : ConfigLogicReg} (idle : ¬ Pending h) :
    (history _ _).wp OnlyIdle (Hbicap.configLogicRegReadback hbicap reg) (fun _ _ => True) h := by
  simp only [Hbicap.configLogicRegReadback, readProgramming, Io.bind_assoc]
  apply onlyIdle_writeBitstream idle
  intro h idle
  apply onlyIdle_pollDone idle
  intro _ h idle
  apply onlyIdle_readBitstream idle
  intro output _ h idle
  apply onlyIdle_writeBitstream idle
  intro h idle
  apply onlyIdle_pollDone idle
  intro _ h idle
  exact history_ret.mpr trivial

/-- A reprogramming that waits for an idle port only, and not for the operation that is pending. -/
def Excused (h h' : List CardEvent) (e : Access) : Prop :=
  Initiates e → Pending h' → Pending h ∧ ∃ t, GoesAhead t ∧ h' = h ++ t

lemma excused_of_not {h' : List CardEvent} (quiet : ¬ Initiates e) : Excused h h' e :=
  fun i => absurd i quiet

/-- After the wait, `h'` is the history `h` and the wait. -/
lemma wp_configure_excused {image : List UInt8} {h' : List CardEvent}
    (idle : ¬ Pending h' ∨ Pending h ∧ ∃ t, SeenIdle t ∧ h' = h ++ t) :
    (history _ _).wp (Excused h) (configure image) (fun _ _ => True) h' := by
  have excused : ∀ {rest e}, (∀ ev ∈ rest, ∀ op, ¬ Sets op ev) →
      Excused h (h' ++ [blocked ctrlAxiFirewall] ++ [blocked dmaAxiFirewall] ++ rest) e := by
    intro rest e quiet _ pending
    rcases idle with idle | ⟨before, t, seen, eq⟩
    · have block : ∀ core, core = ctrlAxiFirewall ∨ core = dmaAxiFirewall →
          ∀ op, ¬ Sets op (blocked core) := by
        intro core which op
        obtain eq | eq := which
        all_goals
          rw [eq]
          exact not_sets_of_addr (by decide)
      have idle₁ := not_pending_concat idle (block ctrlAxiFirewall (.inl rfl))
      have idle₂ := not_pending_concat idle₁ (block dmaAxiFirewall (.inr rfl))
      exact absurd pending (not_pending_append idle₂ quiet)
    · refine ⟨before, t ++ [blocked ctrlAxiFirewall] ++ [blocked dmaAxiFirewall] ++ rest,
        ⟨t, rest, seen, rfl⟩, ?_⟩
      simp only [eq, List.append_assoc]
  have poll : ∀ h' addr, Excused h h' (.ctrlReadU32 addr) :=
    fun _ _ => excused_of_not not_initiates_read
  have other : ∀ {h' addr v}, addr ≠ hbicapReg .size → addr ≠ hbicapReg .control →
      Excused h h' (.ctrlWriteU32 addr v) :=
    fun size control => excused_of_not (not_initiates_of_addr size control)
  rw [configure]
  apply step_write (other (by decide) (by decide)) (fun _ => trivial)
  apply step_write (other (by decide) (by decide)) (fun _ => trivial)
  have size : Excused h (h' ++ [blocked ctrlAxiFirewall] ++ [blocked dmaAxiFirewall] ++ [])
      (sizeWrite image) := excused fun _ mem => absurd mem List.not_mem_nil
  rw [List.append_nil] at size
  apply step_write size (fun _ => trivial)
  have quiet : ∀ ev ∈ [sizeWritten image], ∀ op, ¬ Sets op ev := by
    intro ev mem op
    rw [List.mem_singleton.mp mem]
    exact not_sets_of_addr (by decide)
  apply step_dmaWrite (excused quiet) (fun _ => trivial)
  apply step_poll (fun _ => poll _ _) (fun _ _ _ => trivial)
  intro ms v _ _ _
  apply step_write (other (by decide) (by decide)) (fun _ => trivial)
  apply step_write (other (by decide) (by decide)) (fun _ => trivial)
  apply step_write (other (by decide) (by decide)) (fun _ => trivial)
  rw [World.wp_mapErr, history_write]
  exact ⟨other (by decide) (by decide), fun _ => trivial⟩

/-- What a reprogramming initiates on top of an unfinished operation has that excuse. -/
lemma programUserImage_excused {debug : Bool} {image : List UInt8} {r}
    (run : Run (U55n.programUserImage debug image) t r) :
    Guarded (fun h' ev => Excused h h' ev.1) h t := by
  have spec : (history _ _).wp (Excused h) (U55n.programUserImage debug image)
      (fun _ _ => True) h := by
    rw [programUserImage_eq, World.wp_seq]
    refine wp_awaitIdle (fun _ _ w => excused_of_not w.not_initiates) ?_ ?_ (fun _ _ _ => trivial)
    · intro t seen
      apply wp_configure_excused
      by_cases pending : Pending h
      · exact .inr ⟨pending, t, seen, rfl⟩
      · exact .inl fun pending' => pending (seen.pending.mp pending')
    · intro t aborted
      exact wp_configure_excused (.inl aborted.not_pending)
  exact fun pre ev post eq => (wp_run spec run).2 pre ev.1 ev.2 post eq

/-- Behind the first block write there is no other one. -/
lemma notMem_begun {image : List UInt8} {a} {rest : List CardEvent}
    (never : Never (fun ev => Blocks ev.1) rest) :
    blocked ctrlAxiFirewall ∉ blocked dmaAxiFirewall :: ⟨sizeWrite image, a⟩ :: rest := by
  intro mem
  obtain same | mem := List.mem_cons.mp mem
  · have same : blockWrite ctrlAxiFirewall = blockWrite dmaAxiFirewall := congrArg Sigma.fst same
    exact absurd same (by decide)
  · obtain same | mem := List.mem_cons.mp mem
    · have same : blockWrite ctrlAxiFirewall = sizeWrite image := congrArg Sigma.fst same
      exact absurd (Access.ctrlWriteU32.inj same).1 (by decide)
    · exact never _ mem (.inl rfl)

/-- A hasty reprogramming writes the size next, on top of what was pending. -/
lemma GoesAhead.initiates {debug : Bool} {image : List UInt8} {r}
    (run : Run (U55n.programUserImage debug image) t r) (ahead : GoesAhead t) (pending : Pending h) :
    ¬ Respects h t := by
  obtain ⟨t₀, rest, seen, eq⟩ := ahead
  have begun : Begun image t := (course run).begun_of_blocked (by simp [eq])
  cases begun with
  | @intro s a rest' idle never =>
    -- The first block write is there once, so both ways to cut the trace agree.
    have early : blocked ctrlAxiFirewall ∉ s := idle.notMem_of_blocks (.inl rfl)
    simp only [List.append_assoc, List.cons_append, List.nil_append] at eq
    obtain ⟨same, _⟩ := (List.append_cons_inj_of_notMem early (notMem_begun never)).mp eq
    subst same
    intro respects
    have first := respects (s ++ [blocked ctrlAxiFirewall] ++ [blocked dmaAxiFirewall])
      ⟨sizeWrite image, a⟩ rest' rfl (.inl rfl)
    rw [← List.append_assoc, ← List.append_assoc] at first
    refine first ((pending_write (by decide)).mpr ((pending_write (by decide)).mpr ?_))
    exact seen.pending.mpr pending

/-- One call respects unfinished operations exactly when it is careful. -/
lemma respects_call {c : Call} (runs : c.Runs t) : Respects h t ↔ Call.Careful h (c, t) := by
  cases runs with
  | @configLogicRegReadback reg _ r run =>
    apply Iff.intro
    · intro respects pending
      obtain ⟨a, t', eq, _⟩ := Run.first run
      have first := respects [] _ t' eq (.inl rfl)
      rw [List.append_nil] at first
      exact first pending
    · intro idle pre ev post eq
      exact (wp_run (wp_configLogicRegReadback idle) run).2 pre ev.1 ev.2 post eq
  | @abort debug _ r run =>
    refine ⟨fun _ => trivial, fun _ pre ev post eq => ?_⟩
    have spec : (history _ _).wp OnlyIdle (Hbicap.abort debug hbicap) (fun _ _ => True) h :=
      wp_abort (fun _ _ w i => absurd i w.not_initiates) .refl (fun _ _ => trivial)
        (fun _ _ _ => trivial)
    exact (wp_run spec run).2 pre ev.1 ev.2 post eq
  | @programUserImage debug image _ r run =>
    apply Iff.intro
    · intro respects ⟨pending, ahead⟩
      exact ahead.initiates run pending respects
    · intro careful pre ev post eq initiates pending
      obtain ⟨before, t', ⟨t₀, rest, seen, eq'⟩, eqh⟩ :=
        programUserImage_excused run pre ev post eq initiates pending
      obtain rfl : pre = t' := List.append_cancel_left eqh
      refine careful ⟨before, t₀, rest ++ ev :: post, seen, ?_⟩
      rw [eq, eq', List.append_assoc]

/-- In any sequence of calls, nothing is initiated on top of an unfinished operation exactly when every
    call is careful: no readback starts with an operation pending, and no reprogramming that starts with
    one finds the port idle at once and blocks both firewalls. -/
theorem respects_iff (calls : List (Call × List CardEvent)) (runs : ∀ c ∈ calls, c.1.Runs c.2) :
    Respects [] (calls.flatMap Prod.snd) ↔ ∀ before c after, calls = before ++ c :: after →
      Call.Careful (before.flatMap Prod.snd) c := by
  apply guarded_flatMap.trans
  apply Iff.intro
  · intro all before c after eq
    have mem : c ∈ calls := by
      rw [eq]
      exact List.mem_append_right _ List.mem_cons_self
    exact (respects_call (runs c mem)).mp (all before c after eq)
  · intro all before c after eq
    have mem : c ∈ calls := by
      rw [eq]
      exact List.mem_append_right _ List.mem_cons_self
    exact (respects_call (runs c mem)).mpr (all before c after eq)

end

/-- A readback and an abort on a card where every access succeeds. -/
theorem respects_iff_abort :
    Respects [] ([(Call.configLogicRegReadback .idcode,
        ((Hbicap.configLogicRegReadback hbicap .idcode).runWith (fun _ e => e.succeed 1) []).1),
      (Call.abort, ((Hbicap.abort true hbicap).runWith (fun _ e => e.succeed 1) []).1)].flatMap
        Prod.snd) := by
  have run₁ := run_runWith (fun _ e => Access.succeed 1 e)
    (Hbicap.configLogicRegReadback hbicap .idcode) []
  have run₂ := run_runWith (fun _ e => Access.succeed 1 e) (Hbicap.abort true hbicap) []
  refine (respects_iff _ ?_).mpr ?_
  · intro c mem
    simp only [List.mem_cons, List.not_mem_nil, or_false] at mem
    obtain eq | eq := mem
    · rw [eq]
      exact .configLogicRegReadback run₁
    · rw [eq]
      exact .abort run₂
  · intro before c after eq
    cases before with
    | nil =>
      cases eq
      exact fun ⟨op, pending⟩ => since_nil pending
    | cons b before =>
      cases before with
      | nil => cases eq; trivial
      | cons b' before => cases before <;> cases eq

/-- A readback whose DMA read fails leaves its read unfinished, and the next one writes on top. -/
theorem readback_on_unfinished :
    ∃ t₁ t₂, (Call.configLogicRegReadback .idcode).Runs t₁ ∧
      (Call.configLogicRegReadback .idcode).Runs t₂ ∧ ¬ Respects [] (t₁ ++ t₂) := by
  let error : BasedError := .xdmaError (.dmaReadFailed 0 (.os 5))
  let request := written (hbicapReg .control) ControlRegBit.read.mask
  let failed : CardEvent := ⟨.dmaRead hbicap.dmaIf.baseAddr 4, .error error⟩
  let opening : List CardEvent := [written (hbicapReg .size) 9,
    ⟨.dmaWrite hbicap.dmaIf.baseAddr ((readbackOpening .idcode).flatMap toLeBytes), .ok ()⟩,
    ⟨.ctrlReadU32 (hbicapReg .status), .ok 1⟩, written (hbicapReg .size) 1]
  have run₁ : Run (Hbicap.configLogicRegReadback hbicap .idcode) (opening ++ [request, failed])
      (.err (.basedError error)) := .act (.act (.act (.act (.act (.act .ret)))))
  have run₂ : Run (Hbicap.configLogicRegReadback hbicap .idcode)
      [⟨.ctrlWriteU32 (hbicapReg .size) 9, .error error⟩] (.err (.basedError error)) := .act .ret
  refine ⟨_, _, .configLogicRegReadback run₁, .configLogicRegReadback run₂, fun respects => ?_⟩
  have requested : Sets .read request := ⟨_, rfl, by decide⟩
  have quiet : ∀ ev ∈ [failed], ¬ (ClearSeen .read ev ∨ ∃ op', Sets op' ev) := by
    intro ev mem ends
    have dmaRead : ev.1 = .dmaRead hbicap.dmaIf.baseAddr 4 := by rw [List.mem_singleton.mp mem]
    obtain ⟨v, eq, _⟩ | ⟨op', v, eq, _⟩ := ends
    all_goals
      rw [eq] at dmaRead
      cases dmaRead
  have pending : Pending (opening ++ [request, failed]) :=
    ⟨.read, opening, request, [failed], rfl, requested, quiet⟩
  exact respects _ _ [] rfl (.inl rfl) pending

end Warpshell.U55n
