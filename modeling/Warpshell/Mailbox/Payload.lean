import Warpshell.Cores.Cms
import Warpshell.Xdma.Memory

/-!
# The payload of a response

The word loop of `get_card_info`, run by run: it reads the words behind the header in ascending order,
as many as hold the announced bytes, and keeps exactly these bytes (`run_readInfoBytes`). On a memory
that does not change while it is read, this is one read of all the bytes (`getCardInfo_payload`).
-/

namespace Warpshell.Cms
open Interaction

/-! ## The two halves of the call -/

/-- From the header of the request to the error register. -/
def postRequest (core : BaseParam) (mboxOffset : Nat) : Driver Error Unit := do
  (basedCtrlWriteU32 core mboxOffset cardInfoRequest).mapErr .basedError
  let control ← getCmsControlReg core
  setCmsControlReg core (control ||| ControlRegBit.mailboxStatus.mask)
  let _ ← (pollRegMaskSleep core CmsReg.control.offset ControlRegBit.mailboxStatus.mask 0 100
    (Duration.fromMillis 10)).mapErr .basedError
  let error ← getCmsReg core .hostMsgError
  if error ≠ 0 then .throw (.hostMsgError error) else pure ()

/-- `get_card_info` up to the point where the response can be read. -/
def requestCardInfo (core : BaseParam) : Driver Error Nat := do
  let mboxOffset ← getMailboxOffset core
  postRequest core mboxOffset
  pure mboxOffset

def parsed (infoBytes : List UInt8) : Outcome Error CardInfo :=
  (CardInfo.tryFrom infoBytes).mapErr .cardInfoParseError

/-- `get_card_info` from the header of the response on. -/
def readResponse (core : BaseParam) (mboxOffset : Nat) : Driver Error CardInfo := do
  let header ← (basedCtrlReadU32 core mboxOffset).mapErr .basedError
  let infoBytes ← readInfoBytes core mboxOffset 4 (header &&& 0xfff).toNat []
  .ofOutcome (parsed infoBytes)

/-- A card info call requests the information and then reads the response. -/
lemma getCardInfo_eq (core : BaseParam) :
    getCardInfo core = requestCardInfo core >>= readResponse core := by
  unfold getCardInfo requestCardInfo postRequest readResponse parsed
  simp only [Io.bind_assoc, Io.ite_bind, Io.pure_bind, Io.throw_bind]

/-! ## The word loop -/

/-- Successful reads of words, in ascending order. -/
def wordReads (core : BaseParam) : (offset : Nat) → List UInt32 → List CardEvent
  | _, [] => []
  | offset, w :: ws =>
    ⟨.ctrlReadU32 (core.baseAddr + offset), .ok w⟩ :: wordReads core (offset + 4) ws

/-- The reads of the words that hold `len` bytes: all of them, or up to the first that fails. -/
inductive WordLoop (core : BaseParam) (offset len : Nat) :
    List CardEvent → Outcome Error (List UInt8) → Prop where
  | complete {ws} : ws.length = (len + 3) / 4 →
    WordLoop core offset len (wordReads core offset ws) (.ok ((ws.flatMap toLeBytes).take len))
  | failed {ws e} : ws.length < (len + 3) / 4 →
    WordLoop core offset len
      (wordReads core offset ws ++
        [⟨.ctrlReadU32 (core.baseAddr + (offset + 4 * ws.length)), .error e⟩])
      (.err (.basedError e))

section
variable {core : BaseParam} {t : List CardEvent} {mboxOffset : Nat} {α : Type}

/-- A read in front of a sequence: it fails and that is all, or the sequence goes on. -/
lemma run_read {β : Type} {offset : Nat} {k : UInt32 → Driver Error β} {o : Outcome Error β}
    (run : Run ((basedCtrlReadU32 core offset).mapErr .basedError >>= k : Driver Error β) t o) :
    (∃ w t', t = ⟨.ctrlReadU32 (core.baseAddr + offset), .ok w⟩ :: t' ∧ Run (k w) t' o) ∨
      ∃ e, t = [⟨.ctrlReadU32 (core.baseAddr + offset), .error e⟩] ∧ o = .err (.basedError e) := by
  obtain ⟨r, t', rfl, rest⟩ := Run.first run
  cases r with
  | ok w => exact .inl ⟨w, t', rfl, rest⟩
  | error e =>
    obtain ⟨rfl, rfl⟩ := run_ret.mp rest
    exact .inr ⟨e, rfl, rfl⟩

/-- One more word in front. -/
lemma WordLoop.cons {offset n : Nat} {w : UInt32} {o : Outcome Error (List UInt8)} (pos : 0 < n)
    (loop : WordLoop core (offset + 4) (n - 4) t o) :
    WordLoop core offset n (⟨.ctrlReadU32 (core.baseAddr + offset), .ok w⟩ :: t)
      (o >>= fun bytes => .ok ((toLeBytes w).take (min n 4) ++ bytes)) := by
  have words : (n + 3) / 4 = (n - 4 + 3) / 4 + 1 := by omega
  cases loop with
  | @complete ws len =>
    have kept : ((w :: ws).flatMap toLeBytes).take n =
        (toLeBytes w).take (min n 4) ++ (ws.flatMap toLeBytes).take (n - 4) := by
      have size : (toLeBytes w).length = 4 := rfl
      rw [List.flatMap_cons, List.take_append, size, List.take_eq_take_min, size]
    have len' : (w :: ws).length = (n + 3) / 4 := by rw [List.length_cons, len, words]
    have loop : WordLoop core offset n (wordReads core offset (w :: ws)) _ := .complete len'
    rw [kept] at loop
    exact loop
  | @failed ws e short =>
    have short' : (w :: ws).length < (n + 3) / 4 := by
      rw [List.length_cons, words]
      omega
    have loop : WordLoop core offset n _ (.err (.basedError e)) := .failed short'
    have place : offset + 4 * (w :: ws).length = offset + 4 + 4 * ws.length := by
      rw [List.length_cons]
      omega
    rw [place] at loop
    exact loop

/-- The invariant of the loop: what was kept so far, and then the bytes of the words to come. -/
lemma run_readInfoBytes {mboxOffset dataOffset : Nat} {remaining : Int} {infoBytes : List UInt8}
    {o : Outcome Error (List UInt8)}
    (run : Run (readInfoBytes core mboxOffset dataOffset remaining infoBytes) t o) :
    ∃ o', WordLoop core (mboxOffset + dataOffset) remaining.toNat t o' ∧
      o = o' >>= fun bytes => .ok (infoBytes ++ bytes) := by
  induction dataOffset, remaining, infoBytes using readInfoBytes.induct generalizing t o with
  | case1 dataOffset remaining infoBytes more ih =>
    rw [readInfoBytes, dif_pos more] at run
    obtain ⟨w, t', rfl, rest⟩ | ⟨e, rfl, rfl⟩ := run_read run
    · -- The word just read keeps as many bytes as are still missing, at most four.
      obtain ⟨o', loop, rfl⟩ := ih w rest
      rw [← Nat.add_assoc, show (remaining - 4).toNat = remaining.toNat - 4 by omega] at loop
      refine ⟨_, loop.cons (by omega), ?_⟩
      have kept : (min remaining 4).toNat = min remaining.toNat 4 := by omega
      rw [kept]
      cases o' with
      | ok bytes => exact congrArg Outcome.ok (List.append_assoc ..)
      | err e => rfl
      | panic => rfl
    · have first : ([] : List UInt32).length < (remaining.toNat + 3) / 4 := by
        rw [List.length_nil]
        omega
      exact ⟨_, .failed first, rfl⟩
  | case2 dataOffset remaining infoBytes done =>
    -- No byte is missing, so no word is read.
    rw [readInfoBytes, dif_neg done] at run
    obtain ⟨rfl, rfl⟩ := run_ret.mp run
    have none : ([] : List UInt32).length = (remaining.toNat + 3) / 4 := by
      rw [List.length_nil]
      omega
    refine ⟨_, .complete none, ?_⟩
    simp

/-! ## The request -/

/-- No payload was parsed: the call goes on, or it ends with an error of another kind. -/
def Unparsed {α : Type} (o : Outcome Error α) : Prop :=
  (∃ a, o = .ok a) ∨ ∃ e, o = .err e ∧ ∀ p, e ≠ .cardInfoParseError p

/-- A register access of an exchange: Control, the error register, or a word of the mailbox. -/
def Visits (core : BaseParam) (mboxOffset : Nat) (e : Access) : Prop :=
  ∃ offset, (offset = CmsReg.control.offset ∨ offset = CmsReg.hostMsgError.offset ∨
      ∃ i ≤ 1024, offset = mboxOffset + 4 * i) ∧
    (e = .ctrlReadU32 (core.baseAddr + offset) ∨
      ∃ v, e = .ctrlWriteU32 (core.baseAddr + offset) v)

lemma visits_control : Visits core mboxOffset (.ctrlReadU32 (core.baseAddr + CmsReg.control.offset)) :=
  ⟨_, .inl rfl, .inl rfl⟩

/-- An error of an access does not come from the parser. -/
lemma unparsed_based {e : BasedError} : Unparsed (.err (.basedError e) : Outcome Error α) :=
  .inr ⟨_, rfl, nofun⟩

/-- Posting the request parses nothing and stays among the addresses of the call. -/
lemma wp_postRequest {h : List CardEvent} :
    (history _ _).wp (fun _ => Visits core mboxOffset) (postRequest core mboxOffset)
      (fun o _ => Unparsed o) h := by
  rw [postRequest]
  apply step_write ⟨_, .inr (.inr ⟨0, Nat.zero_le _, rfl⟩), .inr ⟨_, rfl⟩⟩ (fun _ => unparsed_based)
  apply step_read visits_control (fun _ => unparsed_based)
  intro control
  apply step_write ⟨_, .inl rfl, .inr ⟨_, rfl⟩⟩ (fun _ => unparsed_based)
  apply step_poll (fun _ => visits_control) (fun _ _ _ => unparsed_based)
  intro misses v _ _ _
  apply step_read ⟨_, .inr (.inl rfl), .inl rfl⟩ (fun _ => unparsed_based)
  intro error
  split
  · exact history_ret.mpr (.inr ⟨_, rfl, nofun⟩)
  · exact history_ret.mpr (.inl ⟨_, rfl⟩)

/-- The runs of posting the request parse nothing and stay among the addresses of the call. -/
lemma run_postRequest {o : Outcome Error Unit} (run : Run (postRequest core mboxOffset) t o) :
    Unparsed o ∧ ∀ ev ∈ t, Visits core mboxOffset ev.1 := by
  obtain ⟨unparsed, visits⟩ := wp_run (h := []) wp_postRequest run
  refine ⟨unparsed, fun ev mem => ?_⟩
  obtain ⟨before, after, eq⟩ := List.append_of_mem mem
  exact visits before ev.1 ev.2 after eq

/-- The offset of the mailbox is what HostMsgOffset says it is. -/
lemma run_getMailboxOffset {o : Outcome Error Nat} (run : Run (getMailboxOffset core) t o) :
    (∃ control v, t = [⟨.ctrlReadU32 (core.baseAddr + CmsReg.control.offset), .ok control⟩,
        ⟨.ctrlReadU32 (core.baseAddr + CmsReg.hostMsgOffset.offset), .ok v⟩] ∧
      o = .ok (0x28000 + v.toNat)) ∨
    (∃ e, o = .err e ∧ ∀ p, e ≠ .cardInfoParseError p) ∧ ∀ ev ∈ t,
      ev.1 = .ctrlReadU32 (core.baseAddr + CmsReg.control.offset) ∨
        ∃ e, ev = ⟨.ctrlReadU32 (core.baseAddr + CmsReg.hostMsgOffset.offset), .error e⟩ := by
  obtain ⟨control, t', rfl, rest⟩ | ⟨e, rfl, rfl⟩ := run_read run
  · split at rest
    · obtain ⟨rfl, rfl⟩ := run_ret.mp rest
      refine .inr ⟨⟨_, rfl, nofun⟩, fun ev mem => .inl ?_⟩
      rw [List.mem_singleton.mp mem]
    · obtain ⟨v, t', rfl, last⟩ | ⟨e, rfl, rfl⟩ := run_read rest
      · obtain ⟨rfl, rfl⟩ := run_ret.mp last
        exact .inl ⟨control, v, rfl, rfl⟩
      · refine .inr ⟨⟨_, rfl, nofun⟩, List.forall_mem_cons.mpr ⟨.inl rfl, fun ev mem => .inr ?_⟩⟩
        exact ⟨e, List.mem_singleton.mp mem⟩
  · refine .inr ⟨⟨_, rfl, nofun⟩, fun ev mem => .inl ?_⟩
    rw [List.mem_singleton.mp mem]

/-- Requesting the information parses nothing. -/
lemma run_requestCardInfo {o : Outcome Error Nat} (run : Run (requestCardInfo core) t o) :
    Unparsed o := by
  obtain ⟨t₁, t₂, mboxOffset, rfl, _, rest⟩ | ⟨e, rfl, offset⟩ | ⟨_, offset⟩ := Io.run_seq.mp run
  · obtain ⟨t₁, t₂, _, rfl, _, rest⟩ | ⟨e, rfl, post⟩ | ⟨_, post⟩ := Io.run_seq.mp rest
    · obtain ⟨_, rfl⟩ := run_ret.mp rest
      exact .inl ⟨_, rfl⟩
    · obtain ⟨_, eq⟩ | ⟨e, eq, other⟩ := (run_postRequest post).1
      · cases eq
      · cases eq
        exact .inr ⟨_, rfl, other⟩
    · obtain ⟨_, eq⟩ | ⟨_, eq, _⟩ := (run_postRequest post).1
      all_goals cases eq
  · obtain ⟨_, _, _, eq⟩ | ⟨⟨e, eq, other⟩, _⟩ := run_getMailboxOffset offset
    · cases eq
    · cases eq
      exact .inr ⟨_, rfl, other⟩
  · obtain ⟨_, _, _, eq⟩ | ⟨⟨_, eq, _⟩, _⟩ := run_getMailboxOffset offset
    all_goals cases eq

end

/-! ## Stable memory -/

/-- What the reads returned is what the memory holds. -/
def Agrees (mem : Memory) (t : List CardEvent) : Prop :=
  ∀ addr w, ⟨.ctrlReadU32 addr, .ok w⟩ ∈ t → w = mem.word addr

/-- The words read, as bytes, are those of the memory. -/
lemma bytes_wordReads {core : BaseParam} {mem : Memory} {offset : Nat} {ws : List UInt32}
    (agrees : Agrees mem (wordReads core offset ws)) :
    ws.flatMap toLeBytes = mem.bytes (core.baseAddr + offset) (4 * ws.length) := by
  induction ws generalizing offset with
  | nil => rfl
  | cons w ws ih =>
    have first := agrees _ _ List.mem_cons_self
    have agrees' : Agrees mem (wordReads core (offset + 4) ws) :=
      fun addr w mem => agrees addr w (List.mem_cons_of_mem _ mem)
    have rest := ih agrees'
    have size : 4 * (w :: ws).length = 4 + 4 * ws.length := by
      rw [List.length_cons]
      omega
    rw [List.flatMap_cons, rest, size, first, Memory.toLeBytes_word, Memory.bytes_add, Nat.add_assoc]

/-- The words of `len` bytes, read from a memory that does not change, are the bytes of one read. -/
lemma take_wordReads {core : BaseParam} {mem : Memory} {offset len : Nat} {ws : List UInt32}
    (size : ws.length = (len + 3) / 4) (agrees : Agrees mem (wordReads core offset ws)) :
    (ws.flatMap toLeBytes).take len = (mem.basedCtrlRead core len offset).1 := by
  have enough : min (4 * ws.length) len = len := by omega
  rw [bytes_wordReads agrees, Memory.take_bytes, enough]
  rfl

/-- The response of `len` bytes behind the header was read: all of it, which is what is parsed, or up
    to the first word whose read failed, and nothing is parsed. -/
inductive PayloadRead (core : BaseParam) (offset len : Nat) :
    List CardEvent → Outcome Error CardInfo → Prop where
  | complete {words infoBytes} : words.length = (len + 3) / 4 → 4 * words.length ≤ len + 3 →
    (∀ mem : Memory, Agrees mem (wordReads core offset words) →
      infoBytes = (mem.basedCtrlRead core len offset).1) →
    infoBytes = (words.flatMap toLeBytes).take len →
    PayloadRead core offset len (wordReads core offset words) (parsed infoBytes)
  | failed {words e} : words.length < (len + 3) / 4 →
    PayloadRead core offset len
      (wordReads core offset words ++
        [⟨.ctrlReadU32 (core.baseAddr + (offset + 4 * words.length)), .error e⟩])
      (.err (.basedError e))

/-- The runs of reading the response: its header and the payload that it announces, or a failed
    header. -/
lemma run_readResponse {core : BaseParam} {mboxOffset : Nat} {t : List CardEvent}
    {o : Outcome Error CardInfo} (run : Run (readResponse core mboxOffset) t o) :
    (∃ header ws, t = ⟨.ctrlReadU32 (core.baseAddr + mboxOffset), .ok header⟩ :: ws ∧
      PayloadRead core (mboxOffset + 4) (header &&& 0xfff).toNat ws o) ∨
    ∃ e, t = [⟨.ctrlReadU32 (core.baseAddr + mboxOffset), .error e⟩] ∧ o = .err (.basedError e) := by
  obtain ⟨header, ws, rfl, rest⟩ | ⟨e, rfl, rfl⟩ := run_read run
  · refine .inl ⟨header, ws, rfl, ?_⟩
    obtain ⟨t₁, t₂, infoBytes, rfl, loop, rest⟩ | ⟨e, rfl, loop⟩ | ⟨_, loop⟩ := Io.run_seq.mp rest
    · obtain ⟨o', loop, eq⟩ := run_readInfoBytes loop
      obtain ⟨rfl, rfl⟩ := run_ret.mp rest
      rw [List.append_nil]
      cases loop with
      | complete size =>
        cases eq
        exact .complete size (by omega) (fun mem agrees => take_wordReads size agrees) rfl
      | failed => cases eq
    · obtain ⟨o', loop, eq⟩ := run_readInfoBytes loop
      cases loop with
      | complete => cases eq
      | failed short =>
        cases eq
        exact .failed short
    · obtain ⟨o', loop, eq⟩ := run_readInfoBytes loop
      cases loop with
      | complete => cases eq
      | failed => cases eq
  · exact .inr ⟨e, rfl, rfl⟩

/-- The word loop of `get_card_info` reads exactly the bytes of the response. A call whose request is
    answered reads the header, and then the words that hold the announced bytes; what it parses are
    the bytes of one read of that length behind the header, for every memory that the words agree
    with. A read that fails ends the call with its error, and a call that does not get as far does not
    parse anything either. -/
theorem getCardInfo_payload (core : BaseParam) (t : List CardEvent) (o : Outcome Error CardInfo)
    (run : Run (getCardInfo core) t o) :
    (∃ e, Run (requestCardInfo core) t (.err e) ∧ o = .err e ∧ ∀ p, e ≠ .cardInfoParseError p) ∨
    ∃ before mboxOffset r ws, Run (requestCardInfo core) before (.ok mboxOffset) ∧
      t = before ++ ⟨.ctrlReadU32 (core.baseAddr + mboxOffset), r⟩ :: ws ∧
      (∀ header, r = .ok header →
        PayloadRead core (mboxOffset + 4) (header &&& 0xfff).toNat ws o) ∧
      ∀ e, r = .error e → ws = [] ∧ o = .err (.basedError e) := by
  rw [getCardInfo_eq] at run
  obtain ⟨before, t', mboxOffset, rfl, request, rest⟩ | ⟨e, rfl, request⟩ | ⟨_, request⟩ :=
    Io.run_seq.mp run
  · obtain ⟨header, ws, rfl, payload⟩ | ⟨e, rfl, rfl⟩ := run_readResponse rest
    · refine .inr ⟨before, mboxOffset, .ok header, ws, request, rfl, ?_, nofun⟩
      intro header' same
      cases same
      exact payload
    · refine .inr ⟨before, mboxOffset, .error e, [], request, rfl, nofun, ?_⟩
      intro e' same
      cases same
      exact ⟨rfl, rfl⟩
  · obtain ⟨_, same⟩ | ⟨e, same, other⟩ := run_requestCardInfo request
    · cases same
    · cases same
      exact .inl ⟨_, request, rfl, other⟩
  · obtain ⟨_, same⟩ | ⟨e, same, _⟩ := run_requestCardInfo request
    all_goals cases same

/-- A card whose response is a single item, its revision. -/
def revCard (_ : List CardEvent) (e : Access) : e.Answer :=
  e.succeed (match e with
    | .ctrlReadU32 0x04028300 => 0x1000
    | .ctrlReadU32 0x04029000 => 4
    | .ctrlReadU32 0x04029004 => 0x00310226
    | _ => 0)

/-- A card of revision 1, whose payload is read and parsed. -/
theorem getCardInfo_payload_rev : ∃ before mboxOffset r ws,
    ((getCardInfo ⟨0x04000000⟩).runWith revCard []).1 =
      before ++ ⟨.ctrlReadU32 (0x04000000 + mboxOffset), r⟩ :: ws ∧
    ∀ header, r = .ok header → PayloadRead ⟨0x04000000⟩ (mboxOffset + 4) (header &&& 0xfff).toNat ws
      (.ok ⟨[.cardRev ⟨[0x31]⟩]⟩) := by
  have result : ((getCardInfo ⟨0x04000000⟩).runWith revCard []).2 = .ok ⟨[.cardRev ⟨[0x31]⟩]⟩ := by
    decide +kernel
  have run := run_runWith revCard (getCardInfo ⟨0x04000000⟩) []
  rw [result] at run
  obtain ⟨_, _, same, _⟩ | ⟨before, mboxOffset, r, ws, _, eq, read, _⟩ :=
    getCardInfo_payload _ _ _ run
  · cases same
  · exact ⟨before, mboxOffset, r, ws, eq, read⟩

end Warpshell.Cms
