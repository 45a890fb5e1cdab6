import Warpshell.Shells.Delivery

/-!
# Sessions of a shell

Reprogrammings and the calls of the driver, one after the other. An image that is made of whole packets
leaves the port as quiet as it found it, so it is one more call of a session: the log of the port is the
record of the calls.
-/

namespace Warpshell.U55n
open Interaction Hbicap

/-! ## Images of whole packets -/

/-- The image leaves no packet open. -/
def Concluded (words : List UInt32) : Prop :=
  ∀ l : Logic, l.payload = 0 → (l.takeAll words).payload = 0

/-- An image that can be programmed in the middle of a session. -/
structure Image where
  words : List UInt32
  small : words.length < 2 ^ 30
  concluded : Concluded words

/-- A write of some words to a configuration register, none of which is the Desync command. -/
structure WritePacket where
  reg : ConfigLogicReg
  payload : List UInt32
  fits : payload.length < 2 ^ 27
  stays : reg = .cmd → CmdRegCode.desync.code ∉ payload

/-- The header, and a second one if the first has no room for the word count. -/
def WritePacket.headers (p : WritePacket) : List Packet :=
  let count := UInt32.ofNat p.payload.length
  if p.payload.length < 2 ^ 11 then [.type1 ⟨.write, p.reg, count⟩]
  else [.type1 ⟨.write, p.reg, 0⟩, .type2 ⟨.write, count⟩]

def WritePacket.words (p : WritePacket) : List UInt32 := p.headers.map Packet.header ++ p.payload

/-- Synchronisation, writes, and the end of it. -/
def bitstream (ps : List WritePacket) : List UInt32 :=
  [dummyCmd, busWidthSyncCmd, busWidthDetectCmd, dummyCmd, syncCmd] ++ ps.flatMap WritePacket.words ++
    readbackClosing

section
variable {l : Logic}

lemma takeAll_append {ws ws' : List UInt32} : l.takeAll (ws ++ ws') = (l.takeAll ws).takeAll ws' :=
  List.foldl_append

/-- A word count that fits its field is not cut off. -/
lemma count_masked {n w : Nat} (mask : UInt32) (small : n < 2 ^ w) (narrow : w ≤ 32)
    (lowest : mask.toNat = 2 ^ w - 1) : (UInt32.ofNat n &&& mask).toNat % 2 ^ w = n := by
  have word : (UInt32.ofNat n).toNat = n :=
    UInt32.toNat_ofNat_of_lt (Nat.lt_of_lt_of_le small (Nat.pow_le_pow_right (by decide) narrow))
  rw [UInt32.toNat_and, lowest, Nat.and_two_pow_sub_one_eq_mod, word, Nat.mod_mod,
    Nat.mod_eq_of_lt small]

/-- After its headers the logic waits for the payload of the packet. -/
lemma WritePacket.takeAll_headers (p : WritePacket) (synced : l.synced = true) (none : l.payload = 0) :
    l.takeAll (p.headers.map Packet.header) = { l with reg := p.reg, payload := p.payload.length } := by
  rw [headers]
  split
  case isTrue short =>
    apply (Logic.take_header synced none (.type1 ⟨.write, p.reg, .ofNat p.payload.length⟩)).trans
    have count := count_masked type1NWordsMask short (by decide) rfl
    simp only [Logic.packet, Packet.trimmed, Packet.opcode, Packet.reg, Packet.count, count,
      Option.getD_some]
  case isFalse =>
    have first := Logic.take_header synced none (.type1 ⟨.write, p.reg, 0⟩)
    have zero : ((0 : UInt32) &&& type1NWordsMask).toNat % 2 ^ 11 = 0 := by decide
    simp only [Logic.packet, Packet.trimmed, Packet.opcode, Packet.reg, Packet.count, zero,
      Option.getD_some] at first
    have count := count_masked type2NWordsMask p.fits (by decide) rfl
    simp only [List.map, Logic.takeAll, List.foldl, first]
    apply (Logic.take_header (l := { l with reg := p.reg, payload := 0 }) synced rfl
      (.type2 ⟨.write, .ofNat p.payload.length⟩)).trans
    simp only [Logic.packet, Packet.trimmed, Packet.opcode, Packet.reg, Packet.count, count,
      Option.getD_none]

/-- What is taken for payload changes nothing else. -/
lemma takeAll_payload {ws : List UInt32} (synced : l.synced = true) (count : l.payload = ws.length)
    (stays : l.reg = .cmd → CmdRegCode.desync.code ∉ ws) : l.takeAll ws = { l with payload := 0 } := by
  induction ws generalizing l with
  | nil =>
    rw [List.length_nil] at count
    rw [← count]
    rfl
  | cons w ws ih =>
    have more : 0 < l.payload := count ▸ Nat.succ_pos _
    have kept : (!(l.reg == .cmd && w == CmdRegCode.desync.code)) = true := by
      by_contra desync
      simp only [Bool.not_eq_true', Bool.not_eq_false, Bool.and_eq_true, beq_iff_eq] at desync
      exact stays desync.1 (desync.2 ▸ List.mem_cons_self)
    have next : l.take w = { l with payload := ws.length } := by
      rw [Logic.take, if_neg (by simp [synced]), if_pos more, kept, count, synced]
      rfl
    rw [Logic.takeAll, List.foldl_cons, next]
    exact ih synced rfl fun cmd mem => stays cmd (List.mem_cons_of_mem w mem)

/-- A write packet is whole: the logic is as ready for a header after it as before. -/
lemma takeAll_writes (ps : List WritePacket) (synced : l.synced = true) (none : l.payload = 0) :
    ∃ l' : Logic, l.takeAll (ps.flatMap WritePacket.words) = l' ∧ l'.synced = true ∧ l'.payload = 0 := by
  induction ps generalizing l with
  | nil => exact ⟨l, rfl, synced, none⟩
  | cons p ps ih =>
    have whole : l.takeAll p.words = { l with reg := p.reg, payload := 0 } := by
      rw [WritePacket.words, takeAll_append, p.takeAll_headers synced none]
      exact takeAll_payload (l := { l with reg := p.reg, payload := p.payload.length }) synced rfl p.stays
    rw [List.flatMap_cons, takeAll_append, whole]
    exact ih (l := { l with reg := p.reg, payload := 0 }) synced rfl

/-- A program of write packets between synchronisation and desynchronisation leaves no packet open. -/
lemma concluded_bitstream (ps : List WritePacket) : Concluded (bitstream ps) := by
  intro l none
  rw [bitstream, takeAll_append, takeAll_append, Logic.takeAll_sync none]
  obtain ⟨l', eq, synced, none'⟩ := takeAll_writes (l := ⟨true, l.reg, 0, l.requested⟩) ps rfl rfl
  rw [eq, Logic.takeAll_closing synced none']

end

/-- Such a program is an image. -/
def Image.ofWrites (ps : List WritePacket) (small : (bitstream ps).length < 2 ^ 30) : Image :=
  ⟨bitstream ps, small, concluded_bitstream ps⟩

section
variable {d : List Move} {debug : Bool}

/-- An image of whole packets leaves the port as quiet as it was. -/
lemma triple_image (image : Image) :
    hbicap.world.Triple (Quiet d) (programUserImage debug (image.words.flatMap toLeBytes))
      fun _ => Quiet (d ++ image.words.map .put) := by
  apply triple_reprogram (I := Quiet d)
    (M := fun s => ∃ l : Logic, l.payload = 0 ∧ Sending l image.words [] d s) stable_quiet stable_quiet
  · exact triple_awaitIdle stable_quiet stable_quiet triple_wait triple_abort_quiet
  · refine World.Triple.cases fun l => World.Triple.given fun none => ?_
    exact (triple_writeBitstream image.small).post fun _ s sending => ⟨l, none, sending⟩
  · refine World.Triple.cases fun l => World.Triple.given fun none => ?_
    exact triple_pollDone.post fun _ s rest => ⟨_, image.concluded l none, rest⟩

end

/-! ## Calls -/

inductive ShellCall where
  | program (debug : Bool) (image : Image)
  | port (c : PortCall)

/-- What a call reports. -/
inductive Report where
  | programmed
  | found (fs : List Found)
  deriving DecidableEq, Repr

def ShellCall.prog : ShellCall → Driver Error Report
  | .program debug image => do
    programUserImage debug (image.words.flatMap toLeBytes)
    pure .programmed
  | .port c => do
    let fs ← (c.prog hbicap).mapErr Error.hbicap
    pure (.found fs)

/-- What has crossed the port for a call, given what it reports. -/
def ShellCall.crossing : ShellCall → Report → List Move
  | .program _ image, _ => image.words.map .put
  | .port _, .found fs => fs.flatMap exchange
  | .port _, .programmed => []

/-- A report is of the kind of its call, and is about the registers that the call asks for. -/
def ShellCall.Reports : ShellCall → Report → Prop
  | .program _ _, report => report = .programmed
  | .port c, report => ∃ fs, report = .found fs ∧ fs.map Prod.fst = c.asks

/-- One call after the other, up to the first error. -/
def shellSession : List ShellCall → Driver Error (List Report)
  | [] => pure []
  | c :: cs => do
    let report ← c.prog
    let rest ← shellSession cs
    pure (report :: rest)

/-- All that has crossed the port, call by call. -/
def record (cs : List ShellCall) (reports : List Report) : List Move :=
  (cs.zip reports).flatMap fun c => c.1.crossing c.2

section
variable {d : List Move}

/-- The calls have reported, and nothing but what they say has crossed the port. -/
def Recorded (d : List Move) (cs : List ShellCall) (reports : List Report) (s : Port) : Prop :=
  List.Forall₂ ShellCall.Reports cs reports ∧ Quiet (d ++ record cs reports) s

lemma stable_recorded {cs : List ShellCall} {reports : List Report} :
    hbicap.world.Stable (Recorded d cs reports) :=
  fun _ _ recorded acts => ⟨recorded.1, recorded.2.acts acts⟩

/-- What each call reports, and what crosses the port in it. -/
lemma triple_shellCall (c : ShellCall) :
    hbicap.world.Triple (Quiet d) c.prog fun report s =>
      c.Reports report ∧ Quiet (d ++ c.crossing report) s := by
  have stable : ∀ (c : ShellCall) report,
      hbicap.world.Stable fun s => c.Reports report ∧ Quiet (d ++ c.crossing report) s :=
    fun _ _ _ _ h acts => ⟨h.1, h.2.acts acts⟩
  cases c with
  | program debug image =>
    refine World.Triple.bind (triple_image image) fun _ => ?_
    refine World.Triple.pre (World.Triple.pure (stable (.program debug image) .programmed))
      fun s quiet => ⟨rfl, quiet⟩
  | port c =>
    refine World.Triple.bind (World.Triple.mapErr (triple_call c)) fun fs => ?_
    exact World.Triple.pre (World.Triple.pure (stable (.port c) (.found fs)))
      fun s reports => ⟨⟨fs, rfl, reports.1⟩, reports.2⟩

/-- What a session reports, and all that crosses the port in it. -/
lemma triple_shellSession (cs : List ShellCall) :
    hbicap.world.Triple (Quiet d) (shellSession cs) (Recorded d cs) := by
  induction cs generalizing d with
  | nil =>
    refine World.Triple.pre (World.Triple.pure (K := Recorded d []) stable_recorded) fun s quiet => ?_
    exact ⟨.nil, (List.append_nil d).symm ▸ quiet⟩
  | cons c cs ih =>
    refine World.Triple.bind (triple_shellCall c) fun report => ?_
    refine World.Triple.given fun reported => ?_
    refine World.Triple.bind ih fun rest => ?_
    refine World.Triple.pre (World.Triple.pure (K := Recorded d (c :: cs)) stable_recorded)
      fun s recorded => ⟨.cons reported recorded.1, ?_⟩
    rw [record, List.zip_cons_cons, List.flatMap_cons, ← List.append_assoc]
    exact recorded.2

/-- The first call of a session. -/
lemma shellSession_abort {debug : Bool} {cs : List ShellCall} :
    shellSession (.port (.abort debug) :: cs) =
      ((abort debug hbicap).mapErr Error.hbicap >>= fun _ =>
        shellSession cs >>= fun rest => pure (.found [] :: rest)) := by
  simp only [shellSession, ShellCall.prog, PortCall.prog, Io.mapErr_bind, Io.bind_assoc]
  rfl

end

/-- A session of a shell that begins with an abort, on a port in any state whatever: programmings with
    images of whole packets, readbacks, further aborts, resets and register reads, in any order. In each
    state in which the abort has returned, the rest of the session is one in which each call reports what
    it was asked for, and nothing crosses the port but the words of the images and the exchanges of the
    readbacks, call by call, with the values that are reported. The runs of the session are these, and
    from every state there is one that succeeds. -/
theorem session_recorded (debug : Bool) (cs : List ShellCall) (s : Port) :
    (∀ s₁, hbicap.world.Steps (s, (abort debug hbicap).mapErr Error.hbicap) (s₁, .ret (.ok ())) →
      ∀ reports s', hbicap.world.Steps (s₁, shellSession cs) (s', .ret (.ok reports)) →
        List.Forall₂ ShellCall.Reports cs reports ∧ s'.log = s₁.log ++ record cs reports) ∧
    (∀ reports s', hbicap.world.Steps (s, shellSession (.port (.abort debug) :: cs))
        (s', .ret (.ok reports)) →
      ∃ s₁ rest, reports = .found [] :: rest ∧
        hbicap.world.Steps (s, (abort debug hbicap).mapErr Error.hbicap) (s₁, .ret (.ok ())) ∧
        hbicap.world.Steps (s₁, shellSession cs) (s', .ret (.ok rest))) ∧
    ∃ reports s', hbicap.world.Steps (s, shellSession (.port (.abort debug) :: cs))
      (s', .ret (.ok reports)) := by
  have aborts : hbicap.world.Triple (fun _ => True) ((abort debug hbicap).mapErr Error.hbicap)
      fun _ s => Quiet s.log s := World.Triple.mapErr triple_abort_any
  refine ⟨?_, ?_, ?_⟩
  · intro s₁ first reports s' rest
    have quiet : Quiet s₁.log s₁ := aborts.ends trivial first
    obtain ⟨reported, quiet'⟩ := (triple_shellSession cs).ends quiet rest
    exact ⟨reported, quiet'.log⟩
  · intro reports s' steps
    rw [shellSession_abort] at steps
    obtain ⟨_, s₁, first, second⟩ := World.Steps.split steps
    obtain ⟨rest, s₂, others, last⟩ := World.Steps.split second
    obtain ⟨eq, en⟩ := World.Steps.of_ret last
    cases eq
    exact ⟨s₁, rest, rfl, first, others.trans (World.Steps.env en)⟩
  · rw [shellSession_abort]
    obtain ⟨_, s₁, first⟩ := aborts.returns s trivial
    have quiet : Quiet s₁.log s₁ := aborts.ends trivial first
    obtain ⟨rest, s', others⟩ := (triple_shellSession cs).returns s₁ quiet
    exact ⟨_, s', (World.Steps.bind first).trans (World.Steps.bind others)⟩

end Warpshell.U55n
