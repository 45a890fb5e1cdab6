import Warpshell.CardInfo.Frames
import Warpshell.Interaction.Triple
import Warpshell.Mailbox.Exchange
import Warpshell.Xdma.Memory

/-!
# From the card to its user

A card that answers requests for its information with the same frames every time. What the call
returns are the items that these frames carry: the protocol hands over the response to the request of
the call, the word loop the bytes of this response, and the parser its frames.
-/

namespace Warpshell.Cms
open Interaction Framing

/-- The firmware of a card that has this to say about itself. Its responses to other requests are any,
    and it may answer with an error. -/
def Publishes {τ : Type} (info : List UInt8) (s s' : Card τ) : Prop :=
  Card.Firmware s s' ∧
    ∀ response, s'.log = s.log ++ [.posted cardInfoRequest response] → responseBytes response = info

/-! ## Responses -/

/-- The bytes from an address to the end of a list. -/
lemma bytes_getD (bs : List UInt8) (addr n : Nat) (len : addr + n = bs.length) :
    Memory.bytes (fun a => bs.getD a 0) addr n = bs.drop addr := by
  induction n generalizing addr with
  | zero =>
    rw [List.drop_of_length_le (by omega)]
    rfl
  | succ n ih =>
    have more : addr < bs.length := by omega
    rw [Memory.bytes, ih (addr + 1) (by omega), List.drop_eq_getElem_cons more]
    simp [List.getElem?_eq_getElem more]

/-- The bytes of the first words of a memory are its first bytes. -/
lemma flatMap_words (mem : Memory) (k : Nat) :
    (List.range k).flatMap (fun j => toLeBytes (mem.word (4 * j))) = mem.bytes 0 (4 * k) := by
  induction k with
  | zero => rfl
  | succ k ih =>
    rw [List.range_succ, List.flatMap_append, ih, Nat.mul_succ, Memory.bytes_add, Nat.zero_add,
      List.flatMap_singleton, Memory.toLeBytes_word]

/-- Every information of fewer than 4096 bytes is the payload of a response. -/
lemma exists_response (bs : List UInt8) (short : bs.length < 4096) :
    ∃ response, responseBytes response = bs := by
  let mem : Memory := fun a => bs.getD a 0
  let response : Nat → UInt32 := fun j =>
    if j = 0 then UInt32.ofNat bs.length else mem.word (4 * (j - 1))
  have count : (response 0 &&& 0xfff).toNat = bs.length := by
    have low : (0xfff : UInt32).toNat = 2 ^ 12 - 1 := rfl
    rw [UInt32.toNat_and, low, Nat.and_two_pow_sub_one_eq_mod]
    show (UInt32.ofNat bs.length).toNat % 2 ^ 12 = bs.length
    rw [UInt32.toNat_ofNat', Nat.mod_mod_of_dvd _ (by decide)]
    exact Nat.mod_eq_of_lt short
  have words : ∀ j, response (1 + j) = mem.word (4 * j) := by
    intro j
    rw [show response (1 + j) = mem.word (4 * (1 + j - 1)) from if_neg (by omega),
      Nat.add_sub_cancel_left]
  refine ⟨response, ?_⟩
  rw [responseBytes, count, bytesFrom]
  simp only [words]
  rw [flatMap_words, Memory.take_bytes, Nat.min_eq_right (by omega), bytes_getD bs 0 _ (by omega)]
  rfl

/-- Frames that are no old MAC addresses are accepted. -/
lemma parsed_frames (frames : List WellFormedFrame) (new : ∀ f ∈ frames, ¬ f.key.IsOldMac) :
    ∃ info, CardInfo.tryFrom (frames.flatMap (·.bytes)) = .ok info := by
  obtain ⟨items, split, _⟩ := CardInfo.split_frames frames new []
  have empty : CardInfo.tryFrom [] = .ok ⟨[]⟩ := CardInfo.tryFrom_short (by simp)
  rw [List.append_nil] at split
  exact ⟨_, by rw [CardInfo.tryFrom_split split, empty, CardInfo.prepend_ok]⟩

/-! ## What is posted -/

section
variable {τ : Type} {m : Map} {who : τ} {info : List UInt8} {s s' : Card τ}

/-- The card as a user of it sees it. -/
abbrev publication (m : Map) (who : τ) (info : List UInt8) : World Access Access.Answer (Card τ) :=
  Card.world m who (Publishes info)

/-- All responses to card info requests are the information. -/
def Posts (info : List UInt8) (es : List (Entry τ)) : Prop :=
  ∀ response, .posted cardInfoRequest response ∈ es → responseBytes response = info

/-- What the firmware logs posts nothing but the information. -/
lemma publishes_log (pub : Publishes info s s') : ∃ es, s'.log = s.log ++ es ∧ Posts info es := by
  obtain ⟨fw, posted⟩ := pub
  cases fw with
  | post response _ _ =>
    refine ⟨_, rfl, fun response' mem => posted response' ?_⟩
    rw [List.mem_singleton.mp mem]
  | setError => exact ⟨[], (List.append_nil _).symm, fun _ mem => absurd mem List.not_mem_nil⟩
  | clear =>
    refine ⟨_, rfl, fun response' mem => ?_⟩
    cases List.mem_singleton.mp mem

/-- What an access logs posts nothing. -/
lemma answers_log {e : Access} {r : e.Answer} (an : Card.Answers m who s e r s') :
    ∃ es, s'.log = s.log ++ es ∧ Posts info es := by
  obtain rfl | ⟨addr, v, rfl⟩ | ⟨addr, v, _, rfl⟩ := an.effect
  · exact ⟨[], (List.append_nil _).symm, fun _ mem => absurd mem List.not_mem_nil⟩
  · refine ⟨_, rfl, fun response mem => ?_⟩
    cases List.mem_singleton.mp mem
  · refine ⟨_, Card.write_log, fun response mem => ?_⟩
    cases List.mem_singleton.mp mem

/-- A step posts nothing but the information. -/
lemma step_log {α : Type} {c c' : Card τ × Prog Access Access.Answer α}
    (step : (publication m who info).Step c c') :
    ∃ es, c'.1.log = c.1.log ++ es ∧ Posts info es := by
  cases step with
  | env pub => exact publishes_log pub
  | act an => exact answers_log an

/-- A run posts nothing but the information. -/
lemma steps_log {α : Type} {c c' : Card τ × Prog Access Access.Answer α}
    (steps : (publication m who info).Steps c c') :
    ∃ es, c'.1.log = c.1.log ++ es ∧ Posts info es := by
  induction steps with
  | refl => exact ⟨[], (List.append_nil _).symm, fun _ mem => absurd mem List.not_mem_nil⟩
  | tail _ step ih =>
    obtain ⟨es, eq, posts⟩ := ih
    obtain ⟨es', eq', posts'⟩ := step_log step
    refine ⟨es ++ es', by rw [eq', eq, List.append_assoc], fun response mem => ?_⟩
    rcases List.mem_append.mp mem with mem | mem
    · exact posts response mem
    · exact posts' response mem

/-- What a call returns was parsed from the information. -/
lemma published [DecidableEq τ] {result : CardInfo} (consistent : s.Consistent)
    (steps : (publication m who info).Steps (s, getCardInfo m.core) (s', .ret (.ok result))) :
    CardInfo.tryFrom info = .ok result := by
  have reports : (publication m who info).wp (Polite m who s.log) (getCardInfo m.core)
      (Reported m who s) s :=
    World.wp_world (W := callWorld m who s) (fun _ _ pub => .firmware pub.1)
      (fun _ _ _ _ answers => answers) (wp_getCardInfo consistent)
  obtain ⟨es, eq, report⟩ := (World.wp_steps reports steps s' .refl).report
  obtain ⟨es', eq', posts⟩ := steps_log steps
  obtain rfl : es = es' := List.append_cancel_left (eq.symm.trans eq')
  obtain ⟨response, order, parsed⟩ := report.answer result rfl
  obtain ⟨_, posted, rfl⟩ := order.mem (P := (· = .posted cardInfoRequest response))
    (by simp [exchange])
  rwa [posts response posted] at parsed

/-! ## What the firmware can do -/

/-- The firmware may set its error code. -/
lemma publishes_setError {header : UInt32} {response : Nat → UInt32} (error : UInt32) (busy : s.busy)
    (posted : s.phase = .posted header response) :
    Publishes info s { s with hostMsgError := error, phase := .answered header response error } := by
  refine ⟨.setError error busy posted, fun response' eq => ?_⟩
  exact absurd (congrArg List.length eq) (by simp)

/-- The firmware may complete the request. -/
lemma publishes_clear {header error : UInt32} {response : Nat → UInt32} (busy : s.busy)
    (answered : s.phase = .answered header response error) :
    Publishes info s
      { s with
        control := s.control &&& ~~~ControlRegBit.mailboxStatus.mask
        phase := .idle
        log := s.log ++ [.served header response error] } := by
  refine ⟨.clear busy answered, fun response' eq => ?_⟩
  cases List.append_cancel_left eq

/-- The firmware can answer a request with the information. -/
lemma env_publish (response : Nat → UInt32) (told : responseBytes response = info)
    (busy : s.busy) (idle : s.phase = .idle) :
    (publication m who info).Env s (s.serve response 0) := by
  let s₁ : Card τ :=
    { s with
      mailbox := response
      phase := .posted (s.mailbox 0) response
      log := s.log ++ [.posted (s.mailbox 0) response] }
  have post : Publishes info s s₁ := by
    refine ⟨.post response busy idle, fun response' eq => ?_⟩
    obtain ⟨same, _⟩ := List.cons.inj (List.append_cancel_left eq)
    injection same with _ same
    exact same ▸ told
  exact .head post (.head (publishes_setError (s := s₁) 0 busy rfl) (.single (publishes_clear busy rfl)))

/-- Whatever it is doing, the firmware can come to its end with it. -/
lemma env_quiet {response : Nat → UInt32} (told : responseBytes response = info)
    (consistent : s.Consistent) :
    ∃ s', (publication m who info).Env s s' ∧ ¬ s'.busy ∧ s'.phase = .idle := by
  cases phase : s.phase with
  | idle =>
    by_cases busy : s.busy
    · exact ⟨s.serve response 0, env_publish response told busy phase, not_busy_clear _, rfl⟩
    · exact ⟨s, .refl, busy, phase⟩
  | posted header response =>
    have busy : s.busy := consistent (by simp [phase])
    exact ⟨_, .head (publishes_setError 0 busy phase) (.single (publishes_clear busy rfl)),
      not_busy_clear _, rfl⟩
  | answered header response error =>
    have busy : s.busy := consistent (by simp [phase])
    exact ⟨_, .single (publishes_clear busy phase), not_busy_clear _, rfl⟩

/-! ## A run that succeeds -/

/-- A read may return what its address holds. -/
lemma returns_read {offset : Nat} {ε β : Type} {f : BasedError → ε} {k : UInt32 → Driver ε β} {v}
    (reads : s.Reads m (m.core.baseAddr + offset) v)
    (next : (publication m who info).Returns (k v)
      (s.record (.read who (m.core.baseAddr + offset) v))) :
    (publication m who info).Returns
      ((basedCtrlReadU32 m.core offset).mapErr f >>= k : Driver ε β) s :=
  World.Returns.act (Card.Answers.read reads) next

/-- A register read may return what the register holds. -/
lemma returns_getCmsReg {reg : CmsReg} {l : Location} {β : Type} {k : UInt32 → Driver Error β} {v}
    (eq : m.locate (m.reg reg) = l) (holds : s.Holds m v l)
    (next : (publication m who info).Returns (k v) (s.record (.read who (m.reg reg) v))) :
    (publication m who info).Returns (getCmsReg m.core reg >>= k : Driver Error β) s :=
  returns_read ((Card.reads_located eq).mpr holds) next

/-- A write may succeed. -/
lemma returns_write {offset : Nat} {ε β : Type} {f : BasedError → ε} {k : Unit → Driver ε β} {v}
    (next : (publication m who info).Returns (k ()) (s.write m who (m.core.baseAddr + offset) v)) :
    (publication m who info).Returns
      ((basedCtrlWriteU32 m.core offset v).mapErr f >>= k : Driver ε β) s :=
  World.Returns.act Card.Answers.write next

/-- A register write may succeed. -/
lemma returns_setCmsReg {reg : CmsReg} {β : Type} {k : Unit → Driver Error β} {v}
    (next : (publication m who info).Returns (k ()) (s.write m who (m.reg reg) v)) :
    (publication m who info).Returns (setCmsReg m.core reg v >>= k : Driver Error β) s :=
  returns_write next

/-- A wait that is over at the first look. -/
lemma returns_pollReg {reg : CmsReg} {l : Location} {n : Nat} {mask expected : UInt32} {d : Duration}
    {ε β : Type} {f : BasedError → ε} {k : Nat → Driver ε β} {v} (eq : m.locate (m.reg reg) = l)
    (holds : s.Holds m v l) (hit : v &&& mask = expected)
    (next : (publication m who info).Returns (k 1) (s.record (.read who (m.reg reg) v))) :
    (publication m who info).Returns
      ((pollRegMaskSleep m.core reg.offset mask expected (n + 1) d).mapErr f >>= k : Driver ε β) s := by
  have ready : maskReady mask expected (Except.toOption (.ok v)) = true :=
    maskReady_iff.mpr ⟨v, rfl, hit⟩
  have flat : ((pollRegMaskSleep m.core reg.offset mask expected (n + 1) d).mapErr f >>= k :
      Driver ε β) =
      ((pollOnce m.core reg.offset).position (maskReady mask expected) (n + 1)).bind _ :=
    (congrArg (Prog.bind · (Io.next k)) (Prog.bind_bind _ _ _)).trans (Prog.bind_bind _ _ _)
  rw [flat]
  exact World.Returns.search (Card.Answers.read ((Card.reads_located eq).mpr holds)) ready next

/-- The word loop may return the bytes of the mailbox. -/
lemma returns_readInfoBytes {i : Nat} {r : Int} {bytes : List UInt8} {β : Type}
    {k : List UInt8 → Driver Error β}
    (next : ∀ s' : Card τ, (publication m who info).Returns
      (k (bytes ++ bytesFrom s.mailbox i r.toNat)) s') :
    (publication m who info).Returns
      (readInfoBytes m.core m.mboxOffset (4 * i) r bytes >>= k : Driver Error β) s := by
  induction n : r.toNat using Nat.strongRecOn generalizing i r bytes s with
  | ind n ih =>
    subst n
    rw [readInfoBytes]
    split
    next more =>
      rw [Io.bind_assoc]
      refine returns_read (v := s.mailbox i) ((Card.reads_located (m.locate_word i)).mpr rfl) ?_
      have rest : (publication m who info).Returns (readInfoBytes m.core m.mboxOffset (4 * (i + 1))
          (r - 4) (bytes ++ (toLeBytes (s.mailbox i)).take (min r 4).toNat) >>= k : Driver Error β)
          (s.record (.read who (m.word i) (s.mailbox i))) := by
        refine ih (r - 4).toNat (by omega) (fun s' => ?_) rfl
        have word : (min r 4).toNat = min r.toNat 4 := by omega
        have left : (r - 4).toNat = r.toNat - 4 := by omega
        have all := next s'
        rw [bytesFrom_step s.mailbox i r.toNat (by omega), ← List.append_assoc, ← word, ← left] at all
        exact all
      exact rest
    next done =>
      have none : r.toNat = 0 := by omega
      rw [Io.pure_bind]
      simpa [none, bytesFrom_zero] using next s

/-- From the response on. -/
lemma returns_reply {response : Nat → UInt32} {result : CardInfo} (mailbox : s.mailbox = response)
    (fine : s.hostMsgError = 0) (told : responseBytes response = info)
    (parsed : CardInfo.tryFrom info = .ok result) :
    (publication m who info).Returns (do
      let error ← getCmsReg m.core .hostMsgError
      if error ≠ 0 then .throw (.hostMsgError error)
      else do
        let header ← (basedCtrlReadU32 m.core m.mboxOffset).mapErr .basedError
        let infoBytes ← readInfoBytes m.core m.mboxOffset 4 (header &&& 0xfff).toNat []
        .ofOutcome ((CardInfo.tryFrom infoBytes).mapErr .cardInfoParseError) : Driver Error CardInfo)
      s := by
  refine returns_getCmsReg m.locate_hostMsgError rfl ?_
  rw [if_neg (not_not.mpr fine)]
  refine returns_read ((Card.reads_located (m.locate_word 0)).mpr rfl) ?_
  refine returns_readInfoBytes (i := 1) fun s' => ?_
  have bytes : [] ++ bytesFrom s.mailbox 1 (Int.toNat ((s.mailbox 0 &&& 0xfff).toNat : Int)) = info := by
    rw [List.nil_append, Int.toNat_natCast, mailbox]
    exact told
  have whole : (CardInfo.tryFrom
      ([] ++ bytesFrom s.mailbox 1 (Int.toNat ((s.mailbox 0 &&& 0xfff).toNat : Int)))).mapErr
      Error.cardInfoParseError = .ok result := by
    rw [bytes, parsed]
    rfl
  refine ⟨result, s', ?_⟩
  rw [← whole]
  exact .refl

/-- A mailbox that nobody uses can be used. -/
lemma returns_getCardInfo {response : Nat → UInt32} {result : CardInfo}
    (told : responseBytes response = info) (parsed : CardInfo.tryFrom info = .ok result)
    (quiet : ¬ s.busy) (idle : s.phase = .idle) :
    (publication m who info).Returns (getCardInfo m.core) s := by
  rw [getCardInfo, getMailboxOffset, Io.bind_assoc]
  refine returns_getCmsReg m.locate_control rfl ?_
  rw [if_neg fun taken => quiet (Ne.symm taken), Io.bind_assoc]
  refine returns_getCmsReg m.locate_hostMsgOffset rfl ?_
  refine returns_write ?_
  refine returns_getCmsReg m.locate_control rfl ?_
  refine returns_setCmsReg ?_
  -- The request is there, and the firmware serves it before the first look.
  refine World.Returns.env (env_publish response told ?_ ?_) ?_
  · rw [Card.busy, Card.write_control]
    exact busy_status _
  · rw [Card.write_phase]
    exact Card.write_phase.trans idle
  refine returns_pollReg m.locate_control rfl ?_ ?_
  · exact not_not.mp (not_busy_clear _)
  exact returns_reply rfl rfl told parsed

end

/-- The way of the information from a card to its user, whatever the firmware does between the accesses
    and whichever of them fail: a call that returns has exactly the items that the frames of the card
    carry, each with the payload of its frame and in their order; and unless the mailbox is taken, there
    is a run in which the call returns, if no frame is an old MAC address and all of them fit a
    response. -/
theorem getCardInfo_published {τ : Type} [DecidableEq τ] (m : Map) (who : τ)
    (frames : List WellFormedFrame) (s : Card τ) (consistent : s.Consistent) :
    (∀ info s', (publication m who (frames.flatMap (·.bytes))).Steps (s, getCardInfo m.core)
        (s', .ret (.ok info)) →
      List.Forall₂ (fun f item => f.Carries item) frames info.items) ∧
    (¬ s.busy → (∀ f ∈ frames, ¬ f.key.IsOldMac) → (frames.flatMap (·.bytes)).length < 4096 →
      ∃ info s', (publication m who (frames.flatMap (·.bytes))).Steps (s, getCardInfo m.core)
        (s', .ret (.ok info))) := by
  apply And.intro
  · intro info s' steps
    exact (CardInfo.tryFrom_carries frames (published consistent steps)).imp fun _ _ carried => carried.2
  · intro quiet new short
    obtain ⟨response, told⟩ := exists_response _ short
    obtain ⟨info, parsed⟩ := parsed_frames frames new
    have idle : s.phase = .idle := by
      by_contra phase
      exact quiet (consistent phase)
    exact returns_getCardInfo told parsed quiet idle

/-- A card whose only frame says that it has a fan. -/
theorem getCardInfo_published_fan : ∃ info s', (publication shellMap ()
      (([⟨⟨.fanPresence, [0x41], by decide⟩, 0x41, rfl⟩] : List WellFormedFrame).flatMap
        (·.bytes))).Steps (idleCard, getCardInfo shellMap.core) (s', .ret (.ok info)) ∧
    info.items.length = 1 := by
  obtain ⟨carried, run⟩ := getCardInfo_published shellMap ()
    [⟨⟨.fanPresence, [0x41], by decide⟩, 0x41, rfl⟩] idleCard idleCard_consistent
  obtain ⟨info, s', steps⟩ := run (by decide) (by simp [CardInfoKey.IsOldMac]) (by decide)
  exact ⟨info, s', steps, (carried info s' steps).length_eq.symm⟩

end Warpshell.Cms
