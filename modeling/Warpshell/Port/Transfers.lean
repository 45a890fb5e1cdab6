import Warpshell.Interaction.Triple
import Warpshell.Port.Device

/-!
# Transfers

What the port does while a program is put on it, and while words are read out of it. The assertions
below follow a transfer through its states. Each of them is one that the port keeps by its own steps,
and a wait of the driver is what leads from one to the next.
-/

namespace Warpshell.Hbicap
open Interaction

/-! ## The programs -/

section
variable {l : Logic} {reg : ConfigLogicReg}

/-- In step and with no packet open, a header is taken as the packet it encodes. -/
lemma Logic.take_header (synced : l.synced = true) (none : l.payload = 0) (p : Packet) :
    l.take p.header = l.packet p.trimmed := by
  simp [take, synced, none, Packet.decode_header]

/-- In step and with no packet open, the header for one word is taken as that packet. -/
lemma Logic.take_word (synced : l.synced = true) (none : l.payload = 0) (opcode : Opcode) :
    l.take (Type1Packet.toU32 ⟨opcode, reg, 1⟩) = l.packet (.type1 ⟨opcode, reg, 1⟩) := by
  have fits : (1 : UInt32) &&& type1NWordsMask = 1 := by decide
  apply (take_header synced none (.type1 ⟨opcode, reg, 1⟩)).trans
  exact congrArg (fun n => l.packet (.type1 ⟨opcode, reg, n⟩)) fits

/-- A no-op changes nothing. -/
lemma Logic.take_noop (none : l.payload = 0) : l.take Type1Packet.noop.toU32 = l := by
  obtain ⟨synced, reg, payload, requested⟩ := l
  obtain rfl : payload = 0 := none
  cases synced with
  | false => rfl
  | true => exact Logic.take_header rfl rfl (.type1 .noop)

/-- The words at the beginning of a program synchronise the logic. -/
lemma Logic.takeAll_sync (none : l.payload = 0) :
    l.takeAll [dummyCmd, busWidthSyncCmd, busWidthDetectCmd, dummyCmd, syncCmd] =
      ⟨true, l.reg, 0, l.requested⟩ := by
  obtain ⟨synced, reg, payload, requested⟩ := l
  obtain rfl : payload = 0 := none
  cases synced with
  | false => rfl
  | true => rfl

/-- Whether the logic was synchronised before or not, it is then, and a word of the register is
    requested. -/
lemma Logic.takeAll_opening (none : l.payload = 0) :
    l.takeAll (readbackOpening reg) = ⟨true, reg, 0, 1⟩ := by
  have request : Logic.take ⟨true, l.reg, 0, l.requested⟩ (Type1Packet.toU32 ⟨.read, reg, 1⟩) =
      ⟨true, reg, 0, 1⟩ := Logic.take_word rfl rfl .read
  calc l.takeAll (readbackOpening reg)
      = Logic.takeAll (l.takeAll [dummyCmd, busWidthSyncCmd, busWidthDetectCmd, dummyCmd, syncCmd])
          [Type1Packet.noop.toU32, Type1Packet.toU32 ⟨.read, reg, 1⟩, Type1Packet.noop.toU32,
            Type1Packet.noop.toU32] := rfl
    _ = ⟨true, reg, 0, 1⟩ := by
      rw [takeAll_sync none]
      simp only [takeAll, List.foldl]
      rw [take_noop (l := ⟨true, l.reg, 0, l.requested⟩) rfl, request, take_noop rfl, take_noop rfl]

/-- The Desync command is the payload of a write packet, and not taken for a header. -/
lemma Logic.takeAll_closing (synced : l.synced = true) (none : l.payload = 0) :
    l.takeAll readbackClosing = ⟨false, .cmd, 0, l.requested⟩ := by
  have write : l.take (Type1Packet.toU32 ⟨.write, .cmd, 1⟩) = ⟨true, .cmd, 1, l.requested⟩ := by
    obtain ⟨_, reg, payload, requested⟩ := l
    obtain rfl := synced
    obtain rfl := none
    exact Logic.take_word rfl rfl .write
  have desync : Logic.take ⟨true, .cmd, 1, l.requested⟩ CmdRegCode.desync.code =
      ⟨false, .cmd, 0, l.requested⟩ := rfl
  simp only [takeAll, readbackClosing, List.foldl]
  rw [write, desync, take_noop rfl, take_noop rfl]

end

/-! ## States of an operation -/

section
variable {hb : HbicapIf} {l : Logic} {n : Nat} {r : List UInt32} {d : List Move}
  {words : List UInt32} {s : Port}

/-- Nothing is going on, `n` words are announced. -/
def Resting (l : Logic) (n : Nat) (r : List UInt32) (d : List Move) (s : Port) : Prop :=
  ∃ regs, s = ⟨regs, l, n, [], r, false, false, d⟩

/-- Some of the words were put on the port, the others are on their way. -/
def Sending (l : Logic) (words r : List UInt32) (d : List Move) (s : Port) : Prop :=
  ∃ regs sent rest, words = sent ++ rest ∧
    s = ⟨regs, l.takeAll sent, rest.length, rest, r, false, false, d ++ sent.map .put⟩

/-- Some of `n` words were read out, the others are still to be. -/
def Fetching (l : Logic) (n : Nat) (d : List Move) (s : Port) : Prop :=
  ∃ regs vs k reading, vs.length + k = n ∧ (reading = false → k = 0) ∧
    s = ⟨regs, l.deliver vs.length, k, [], vs, reading, false, d ++ vs.map (.read l.reg)⟩

/-- All words were fetched, but the Read bit may be set yet. -/
def Fetched (l : Logic) (d : List Move) (s : Port) : Prop :=
  ∃ regs reading, s = ⟨regs, l, 0, [], [], reading, false, d⟩

/-- Nothing is going on, and no packet is open. -/
def Quiet (d : List Move) (s : Port) : Prop := ∃ l, l.payload = 0 ∧ Resting l 0 [] d s

/-- An abort is not over, or nothing is going on. -/
def Aborting (s : Port) : Prop := s.aborting = true ∨ Quiet s.log s

lemma Resting.acts {s s' : Port} (rest : Resting l n r d s) (acts : Port.Acts s s') :
    Resting l n r d s' := by
  obtain ⟨regs, rfl⟩ := rest
  cases acts with
  | change regs' => exact ⟨regs', rfl⟩
  | put _ _ wait => cases wait
  | deliver set => cases set
  | starve _ set => cases set
  | readDone set => cases set
  | abortDone _ set => cases set

lemma stable_resting : hb.world.Stable (Resting l n r d) := fun _ _ => Resting.acts

/-- The port takes the words one by one. -/
lemma stable_sending : hb.world.Stable (Sending l words r d) := by
  rintro _ _ ⟨regs, sent, rest, rfl, rfl⟩ acts
  cases acts with
  | change regs' => exact ⟨regs', sent, rest, rfl, rfl⟩
  | @put w ws n _ left wait =>
    obtain rfl : rest = w :: ws := wait
    obtain rfl : ws.length = n := Nat.succ.inj left
    have taken : l.takeAll (sent ++ [w]) = (l.takeAll sent).take w := List.foldl_append
    exact ⟨regs, sent ++ [w], ws, (List.append_assoc sent [w] ws).symm, by simp [taken]⟩
  | deliver set => cases set
  | starve _ set => cases set
  | readDone set => cases set
  | abortDone _ set => cases set

/-- The port reads the words out one by one. -/
lemma stable_fetching (requested : n ≤ l.requested) : hb.world.Stable (Fetching l n d) := by
  rintro _ _ ⟨regs, vs, k, reading, count, done, rfl⟩ acts
  cases acts with
  | change regs' => exact ⟨regs', vs, k, reading, count, done, rfl⟩
  | put _ _ wait => cases wait
  | @deliver k' m set left more =>
    obtain rfl : reading = true := set
    obtain rfl : k = k' + 1 := left
    refine ⟨regs, vs ++ [regs l.reg], k', true, by simp; omega, nofun, ?_⟩
    simp [Logic.deliver, Nat.sub_sub]
  | @starve k' _ set left more =>
    -- The packet asks for all the words that are announced.
    have left : k = k' + 1 := left
    have more : l.requested - vs.length = 0 := more
    omega
  | readDone set left =>
    obtain rfl : k = 0 := left
    exact ⟨regs, vs, 0, false, count, fun _ => rfl, rfl⟩
  | abortDone _ set => cases set

/-- The port may take the Read bit back. -/
lemma stable_fetched : hb.world.Stable (Fetched l d) := by
  rintro _ _ ⟨regs, reading, rfl⟩ acts
  cases acts with
  | change regs' => exact ⟨regs', reading, rfl⟩
  | put _ left => cases left
  | deliver _ left => cases left
  | starve _ _ left => cases left
  | readDone => exact ⟨regs, false, rfl⟩
  | abortDone _ set => cases set

lemma Quiet.acts {s s' : Port} (quiet : Quiet d s) (acts : Port.Acts s s') : Quiet d s' := by
  obtain ⟨l, none, rest⟩ := quiet
  exact ⟨l, none, rest.acts acts⟩

lemma stable_quiet : hb.world.Stable (Quiet d) := fun _ _ => Quiet.acts

/-- Once nothing is going on the log stays as it is. -/
lemma Quiet.log (quiet : Quiet d s) : s.log = d := by
  obtain ⟨l, _, regs, rfl⟩ := quiet
  rfl

/-- Nothing happens on a quiet port until the host does something. -/
lemma stable_quietened : hb.world.Stable fun s => Quiet s.log s := by
  intro s s' quiet acts
  have quiet' : Quiet s.log s' := quiet.acts acts
  have same : s'.log = s.log := quiet'.log
  exact same ▸ quiet'

/-- An abort may end, and then the port is quiet. -/
lemma stable_aborting : hb.world.Stable Aborting := by
  rintro s s' (set | quiet) acts
  · cases acts with
    | abortDone synced => exact .inr ⟨_, rfl, s.regs, rfl⟩
    | _ => exact .inl set
  · have kept : hb.world.Stable fun s => Quiet s.log s := stable_quietened
    exact .inr (kept s s' quiet acts)

end

/-! ## Accesses -/

lemma locate_reg (hb : HbicapIf) (reg : Reg) :
    hb.locate (hb.ctrlIf.baseAddr + reg.offset) = some reg := by
  have same : ∀ r : Reg, (hb.ctrlIf.baseAddr + r.offset == hb.ctrlIf.baseAddr + reg.offset) =
      (r.offset == reg.offset) := by
    intro r
    simp
  simp only [HbicapIf.locate, same]
  cases reg <;> rfl

/-- Each register can be read. -/
lemma Port.exists_shows (s : Port) (reg : Reg) : ∃ v, s.Shows v reg := by
  have bits : ∀ reading aborting : Bool, ∃ v ∈ [0, 2, 16, 18],
      (v &&& ControlRegBit.read.mask ≠ 0 ↔ reading = true) ∧
        (v &&& ControlRegBit.abort.mask ≠ 0 ↔ aborting = true) := by decide
  cases reg with
  | status => exact ⟨0, fun idle => absurd idle (by decide)⟩
  | control =>
    obtain ⟨v, _, shows⟩ := bits s.reading s.aborting
    exact ⟨v, shows⟩
  | _ => exact ⟨0, trivial⟩

/-- A port with nothing to do shows Idle. -/
lemma shows_idle {s : Port} (reading : s.reading = false) (empty : s.writeFifo = []) :
    s.Shows StatusRegBit.idle.mask .status := by
  intro _ busy
  obtain busy | ⟨_, more⟩ := busy
  · cases reading.symm.trans busy
  · exact more empty

/-- A port with nothing to do shows a clear Control. -/
lemma shows_clear {s : Port} (reading : s.reading = false) (aborting : s.aborting = false) :
    s.Shows 0 .control := by
  apply And.intro
  · rw [reading]
    decide
  · rw [aborting]
    decide

section
variable {hb : HbicapIf} {α : Type} {P : Port → Prop}

/-- A register read establishes what follows from the value shown. -/
lemma port_read {reg : Reg} {K : UInt32 → Port → Prop} (stP : hb.world.Stable P)
    (stK : ∀ v, hb.world.Stable (K v)) (shows : ∀ s v, P s → s.Shows v reg → K v s) :
    hb.world.Triple P (getHbicapReg hb reg) K := by
  refine World.Triple.mapErr (World.Triple.access stP stK ?_ ?_)
  · intro s r s' v hs an eq
    cases an with
    | read reads =>
      cases eq
      exact shows s _ hs (reads reg (locate_reg hb reg))
    | readFailed => cases eq
    | dmaElsewhere _ other => exact absurd rfl (other _)
  · intro s _
    obtain ⟨v, reads⟩ := s.exists_shows reg
    refine ⟨s, .ok v, s, v, .refl, .read fun reg' eq => ?_, rfl⟩
    obtain rfl := Option.some.inj ((locate_reg hb reg).symm.trans eq)
    exact reads

/-- A register write establishes what the write brings about. -/
lemma port_write {reg : Reg} {v : UInt32} {K : Port → Prop} (stP : hb.world.Stable P)
    (stK : hb.world.Stable K) (effect : ∀ s, P s → K (s.set v reg)) :
    hb.world.Triple P (setHbicapReg hb reg v) fun _ => K := by
  refine World.Triple.mapErr (World.Triple.access stP (fun _ => stK) ?_ ?_)
  · intro s r s' _ hs an eq
    cases an with
    | write located =>
      obtain rfl := Option.some.inj ((locate_reg hb reg).symm.trans located)
      exact effect s hs
    | writeElsewhere located => cases (locate_reg hb reg).symm.trans located
    | writeFailed => cases eq
    | dmaElsewhere other => exact absurd rfl (other _ _)
  · intro s _
    exact ⟨s, .ok (), s.set v reg, (), .refl, .write (locate_reg hb reg), rfl⟩

/-- A DMA write puts its words into the write FIFO. -/
lemma port_dmaWrite {buf : List UInt8} {K : Port → Prop} (stP : hb.world.Stable P)
    (stK : hb.world.Stable K)
    (effect : ∀ s, P s → K { s with writeFifo := s.writeFifo ++ leWords buf }) :
    hb.world.Triple P ((basedDmaWrite hb.dmaIf buf 0).mapErr Error.basedError) fun _ => K := by
  refine World.Triple.mapErr (World.Triple.access stP (fun _ => stK) ?_ ?_)
  · intro s r s' _ hs an eq
    cases an with
    | dmaWrite => exact effect s hs
    | dmaWriteFailed => cases eq
    | dmaElsewhere _ _ _ other => exact absurd rfl (other _)
  · intro s _
    exact ⟨s, .ok (), _, (), .refl, .dmaWrite, rfl⟩

/-- A DMA read takes its words from the read FIFO. -/
lemma port_dmaRead {len : Nat} {K : Bytes len → Port → Prop} (stP : hb.world.Stable P)
    (stK : ∀ b, hb.world.Stable (K b))
    (effect : ∀ s (b : Bytes len) rest, P s → s.readFifo = leWords b.1 ++ rest →
      K b { s with readFifo := rest })
    (can : ∀ s, P s → ∃ s₁, hb.world.Env s s₁ ∧
      ∃ (b : Bytes len) (rest : List UInt32), s₁.readFifo = leWords b.1 ++ rest) :
    hb.world.Triple P ((basedDmaRead hb.dmaIf len 0).mapErr Error.basedError) K := by
  refine World.Triple.mapErr (World.Triple.access stP stK ?_ ?_)
  · intro s r s' b hs an eq
    cases an with
    | dmaRead there =>
      cases eq
      exact effect s _ _ hs there
    | dmaReadFailed => cases eq
    | dmaElsewhere _ _ other => exact absurd rfl (other _)
  · intro s hs
    obtain ⟨s₁, en, b, rest, there⟩ := can s hs
    exact ⟨s₁, .ok b, _, b, en, .dmaRead there, rfl⟩

/-- A poll establishes what its match shows, and a match stays possible. -/
lemma port_poll {reg : Reg} {mask expected : UInt32} {K : Port → Prop} (stP : hb.world.Stable P)
    (stK : hb.world.Stable K)
    (hit : ∀ s v, P s → s.Shows v reg → v &&& mask = expected → K s)
    (can : ∀ s, P s → ∃ s₁ v, hb.world.Env s s₁ ∧ s₁.Shows v reg ∧ v &&& mask = expected) :
    hb.world.Triple P (pollEvery10ms hb reg mask expected (Duration.fromSecs 10)) fun _ => K := by
  refine World.Triple.mapErr (World.Triple.search stP stK ?_ ?_ ?_ ?_ ?_)
  · exact ⟨_, rfl⟩
  · exact fun j => ⟨j + 1, rfl⟩
  · decide
  · intro s r s' hs an
    split
    next ready =>
      obtain ⟨v, rfl, eq⟩ := maskReady_iff.mp ready
      cases an with
      | read reads => exact hit s v hs (reads reg (locate_reg hb reg)) eq
      | dmaElsewhere _ other => exact absurd rfl (other _)
    next =>
      cases an with
      | read => exact hs
      | readFailed => exact hs
      | dmaElsewhere _ other => exact absurd rfl (other _)
  · intro s hs
    obtain ⟨s₁, v, en, reads, eq⟩ := can s hs
    refine ⟨s₁, .ok v, s₁, en, .read fun reg' located => ?_, maskReady_iff.mpr ⟨v, rfl, eq⟩⟩
    obtain rfl := Option.some.inj ((locate_reg hb reg).symm.trans located)
    exact reads

/-- A wait that fails has changed nothing. -/
lemma port_poll_fails {reg : Reg} {mask expected : UInt32} {t : Duration} {s : Port}
    (stP : hb.world.Stable P) (hs : P s) :
    hb.world.wp (fun _ _ => True) (pollEvery10ms hb reg mask expected t)
      (fun o s => ∀ e, o = .err e → P s) s := by
  refine World.wp_mapErr.mpr (wp_pollRegMaskSleep hs stP ?_ ?_ fun s hs _ _ => hs)
  · intro o s s' kept acts e eq
    exact stP s s' (kept e eq) acts
  · intro s hs
    refine ⟨trivial, fun r s' an => ?_⟩
    split
    · nofun
    · cases an with
      | read => exact hs
      | readFailed => exact hs
      | dmaElsewhere _ other => exact absurd rfl (other _)

end

/-! ## Transfers -/

lemma length_leWords {buf : List UInt8} {n : Nat} (len : buf.length = 4 * n) :
    (leWords buf).length = n := by
  induction n generalizing buf with
  | zero => rw [List.length_eq_zero_iff.mp len]; rfl
  | succ n ih =>
    match buf with
    | _ :: _ :: _ :: _ :: rest => exact congrArg (· + 1) (ih (by simp at len; omega))
    | [] | [_] | [_, _] | [_, _, _] => simp at len <;> omega

section
variable {hb : HbicapIf} {l : Logic} {n m : Nat} {r : List UInt32} {d : List Move} {words : List UInt32}

/-- The port can put all the words that wait. -/
lemma env_drain (rest : List UInt32) {l : Logic} {regs} :
    hb.world.Env ⟨regs, l, rest.length, rest, r, false, false, d⟩
      ⟨regs, l.takeAll rest, 0, [], r, false, false, d ++ rest.map .put⟩ := by
  induction rest generalizing l d with
  | nil =>
    rw [List.map_nil, List.append_nil]
    exact .refl
  | cons w ws ih =>
    rw [List.map_cons, List.append_cons]
    exact .head (.put rfl rfl rfl) ih

/-- The port can read out one more word. -/
lemma acts_deliver {k : Nat} {regs} {vs : List UInt32} (more : vs.length < l.requested) :
    Port.Acts ⟨regs, l.deliver vs.length, k + 1, [], vs, true, false, d ++ vs.map (.read l.reg)⟩
      ⟨regs, l.deliver (vs ++ [regs l.reg]).length, k, [], vs ++ [regs l.reg], true, false,
        d ++ (vs ++ [regs l.reg]).map (.read l.reg)⟩ := by
  have some : l.requested - vs.length = (l.requested - vs.length - 1) + 1 := by omega
  have acts := Port.Acts.deliver
    (s := ⟨regs, l.deliver vs.length, k + 1, [], vs, true, false, d ++ vs.map (.read l.reg)⟩) rfl rfl some
  simpa [Logic.deliver, Nat.sub_sub] using acts

/-- The port can read out all that was asked for. -/
lemma env_fetch {k : Nat} {vs : List UInt32} {regs reading} (requested : n ≤ l.requested)
    (count : vs.length + k = n) (done : reading = false → k = 0) :
    ∃ vs', vs'.length = n ∧
      Relation.ReflTransGen Port.Acts
        ⟨regs, l.deliver vs.length, k, [], vs, reading, false, d ++ vs.map (.read l.reg)⟩
        ⟨regs, l.deliver vs'.length, 0, [], vs', reading, false, d ++ vs'.map (.read l.reg)⟩ := by
  induction k generalizing vs with
  | zero => exact ⟨vs, count, .refl⟩
  | succ k ih =>
    obtain rfl : reading = true := by
      by_contra not
      cases done (Bool.eq_false_of_not_eq_true not)
    obtain ⟨vs', all, en⟩ := @ih (vs ++ [regs l.reg]) (by simp; omega) nofun
    exact ⟨vs', all, .head (acts_deliver (by omega)) en⟩

/-- Below 2^30 words, the Size register holds their number. -/
lemma announced_words (small : words.length < 2 ^ 30) :
    (announcedWords (words.flatMap toLeBytes).length).toNat % 2 ^ 30 = words.length := by
  rw [length_words, announcedWords_words (by omega)]
  exact Nat.mod_eq_of_lt small

/-- A write announces the words and puts them into the FIFO. -/
lemma triple_writeBitstream (small : words.length < 2 ^ 30) :
    hb.world.Triple (Resting l n r d) (writeBitstream hb (words.flatMap toLeBytes))
      fun _ => Sending l words r d := by
  apply World.Triple.bind (K := fun _ => Resting l words.length r d)
  · apply port_write stable_resting stable_resting
    rintro _ ⟨regs, rfl⟩
    exact ⟨regs, by rw [Port.set, announced_words small]⟩
  · intro _
    apply port_dmaWrite stable_resting stable_sending
    rintro _ ⟨regs, rfl⟩
    exact ⟨regs, [], words, rfl, by rw [leWords_words, List.map_nil, List.append_nil]; rfl⟩

/-- When the port is seen idle, the program has been put on it. -/
lemma triple_pollDone : hb.world.Triple (Sending l words r d)
    (pollDoneEvery10ms hb (Duration.fromSecs 10))
    fun _ => Resting (l.takeAll words) 0 r (d ++ words.map .put) := by
  apply port_poll stable_sending stable_resting
  · rintro _ v ⟨regs, sent, rest, rfl, rfl⟩ idle seen
    have none : rest = [] := by
      by_contra more
      exact idle seen (.inr ⟨List.length_pos_of_ne_nil more, more⟩)
    subst none
    exact ⟨regs, by rw [List.append_nil]; rfl⟩
  · rintro _ ⟨regs, sent, rest, rfl, rfl⟩
    exact ⟨_, StatusRegBit.idle.mask, env_drain rest, shows_idle rfl rfl, by decide⟩

/-- A read returns the words that the port has read out. -/
lemma triple_readBitstream (small : n < 2 ^ 30) (requested : n ≤ l.requested) :
    hb.world.Triple (Resting l m [] d) (readBitstream hb (4 * n))
      fun b => Fetched (l.deliver n) (d ++ (leWords b.1).map (.read l.reg)) := by
  have announced : (announcedWords (4 * n)).toNat % 2 ^ 30 = n := by
    rw [announcedWords_words (by omega)]
    exact Nat.mod_eq_of_lt small
  apply World.Triple.bind (K := fun _ => Resting l n [] d)
  · apply port_write stable_resting stable_resting
    rintro _ ⟨regs, rfl⟩
    exact ⟨regs, by rw [Port.set, announced]⟩
  · intro _
    apply World.Triple.bind (K := fun _ => Fetching l n d)
    · apply port_write stable_resting (stable_fetching requested)
      rintro _ ⟨regs, rfl⟩
      exact ⟨regs, [], n, true, Nat.zero_add n, nofun, by rw [List.map_nil, List.append_nil]; rfl⟩
    · intro _
      apply port_dmaRead (stable_fetching requested) (fun _ => stable_fetched)
      · rintro _ b rest ⟨regs, vs, k, reading, count, done, rfl⟩ there
        have there : vs = leWords b.1 ++ rest := there
        have all : (leWords b.1).length = n := length_leWords b.2
        -- There are no more words than were asked for, so these are all.
        have none : rest = [] := by
          rw [there, List.length_append] at count
          exact List.length_eq_zero_iff.mp (by omega)
        rw [none, List.append_nil] at there
        subst there none
        obtain rfl : k = 0 := by omega
        exact ⟨regs, reading, by rw [all]⟩
      · rintro _ ⟨regs, vs, k, reading, count, done, rfl⟩
        obtain ⟨vs', all, en⟩ := env_fetch (d := d) requested count done
        refine ⟨_, en, ⟨vs'.flatMap toLeBytes, by rw [length_words, all]⟩, [], ?_⟩
        rw [List.append_nil, leWords_words]

/-- The wait for the Read bit ends at rest. -/
lemma triple_readDone : hb.world.Triple (Fetched l d)
    (pollReadClearEvery10ms hb (Duration.fromSecs 10)) fun _ => Resting l 0 [] d := by
  apply port_poll stable_fetched stable_resting
  · rintro _ v ⟨regs, reading, rfl⟩ ⟨shows, _⟩ clear
    cases reading with
    | false => exact ⟨regs, rfl⟩
    | true => exact absurd clear (shows.mpr rfl)
  · rintro _ ⟨regs, reading, rfl⟩
    refine ⟨⟨regs, l, 0, [], [], false, false, d⟩, 0, ?_, shows_clear rfl rfl, by decide⟩
    cases reading with
    | false => exact .refl
    | true => exact .single (.readDone rfl rfl)

end

end Warpshell.Hbicap
