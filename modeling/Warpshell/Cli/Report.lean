import Warpshell.Cli.Terminal
import Warpshell.Mailbox.OneClient
import Warpshell.Mailbox.Publication

/-!
# From the card to the terminal

The card info command as a whole. The read-modify-write of the initialisation may set the status bit
of a request that the firmware has just served, but it keeps the card consistent, and that is what a
request for the card info starts from.
-/

namespace Warpshell.Cli
open Interaction Cms Framing

section
variable {τ : Type} {m : Map} {who : τ} {info : List UInt8} {result : CardInfo}
  {response : Nat → UInt32}

lemma stable_consistent : (publication m who info).Stable Card.Consistent :=
  fun _ _ _ pub => pub.1.consistent

/-! ## The calls of the library -/

/-- The initialisation of the CMS may succeed. -/
lemma returns_cmsInit {s : Card τ} : (publication m who info).Returns (Cms.init m.core) s := by
  have hostStatus : m.locate (m.reg .hostStatus) = .other := m.locate_other (.inr (.inr rfl))
  have regMapId : m.locate (m.reg .regMapId) = .other := m.locate_other (.inr (.inl rfl))
  rw [Cms.init]
  refine returns_setCmsReg ?_
  refine returns_pollReg (v := 1) hostStatus trivial (by decide) ?_
  refine returns_getCmsReg (v := supportedRegMapId) regMapId trivial ?_
  rw [if_neg fun other => other rfl]
  refine returns_getCmsReg m.locate_control rfl ?_
  exact World.Returns.act Card.Answers.write ⟨(), _, .refl⟩

/-- The initialisation of the CMS keeps the card consistent. -/
lemma triple_cmsInit :
    (publication m who info).Triple Card.Consistent (Cms.init m.core) fun _ => Card.Consistent := by
  refine World.Triple.of_steps (fun s o s' consistent steps => ?_) fun s _ => returns_cmsInit
  have keeps : (publication m who info).wp (WritesBack m) (Cms.init m.core)
      (fun _ s => s.Consistent) s :=
    World.wp_world (W := Card.world m who Card.Firmware) (fun _ _ pub => pub.1)
      (fun _ _ _ _ answers => answers) (wp_init consistent)
  exact World.wp_steps keeps steps s' .refl

/-- A card info call returns what the published information is parsed as. -/
lemma triple_getCardInfo [DecidableEq τ] (told : responseBytes response = info)
    (parsed : CardInfo.tryFrom info = .ok result) :
    (publication m who info).Triple Card.Consistent (getCardInfo m.core) fun info _ => info = result := by
  refine World.Triple.of_steps (fun s info s' consistent steps => ?_) fun s consistent => ?_
  · cases (published consistent steps).symm.trans parsed
    rfl
  · obtain ⟨s', en, quiet, idle⟩ := env_quiet told consistent
    exact World.Returns.env en (returns_getCardInfo told parsed quiet idle)

/-! ## The command -/

/-- The command reads the published card info and prints it. -/
lemma triple_get [DecidableEq τ] {checks : Bool} {content : String → List UInt8} {lines : List String}
    (here : m.core = U55n.cms) (told : responseBytes response = info)
    (parsed : CardInfo.tryFrom info = .ok result) :
    ((publication m who info).beside (terminal content)).Triple
      (fun s => s.1.Consistent ∧ s.2 = lines) (get checks .cardInfo)
      fun _ s => s.2 = lines ++ [result.asString] := by
  rw [get, mgmtValue, Io.bind_assoc, ← here]
  refine World.Triple.bind (triple_onCard (triple_getCardInfo told parsed)) fun shown => ?_
  have printed : ((publication m who info).beside (terminal content)).Triple
      (fun s => shown = result ∧ s.2 = lines) (println shown.asString)
      fun _ s => shown = result ∧ s.2 = lines ++ [shown.asString] :=
    triple_println (P := fun _ => shown = result) fun _ _ same _ => same
  exact printed.post fun _ s ⟨same, line⟩ => same ▸ line

end

/-- An invocation of the card info command that succeeds has made one `println` for the card, of the text
    of a card info with exactly the items that the frames of the card carry, each with the payload of its
    frame and in their order. It can succeed from every consistent state of a card whose frames fit a
    response, if none of them is an old MAC address, also when a request is still being served. -/
theorem main_reports {τ : Type} [DecidableEq τ] (debug checks : Bool) (config : Option String)
    (content : String → List UInt8) (m : Map) (here : m.core = U55n.cms) (who : τ)
    (frames : List WellFormedFrame) (new : ∀ f ∈ frames, ¬ f.key.IsOldMac)
    (short : (frames.flatMap (·.bytes)).length < 4096) (s : Card τ) (consistent : s.Consistent) :
    (∀ s' out, ((publication m who (frames.flatMap (·.bytes))).beside (terminal content)).Steps
        ((s, []), main debug checks ⟨config, some (.get .cardInfo)⟩) ((s', out), .ret (.ok ())) →
      ∃ info : CardInfo, List.Forall₂ (fun f item => f.Carries item) frames info.items ∧
        out = configLines config ++ [info.asString]) ∧
    ∃ s' out, ((publication m who (frames.flatMap (·.bytes))).beside (terminal content)).Steps
      ((s, []), main debug checks ⟨config, some (.get .cardInfo)⟩) ((s', out), .ret (.ok ())) := by
  obtain ⟨response, told⟩ := exists_response _ short
  obtain ⟨info, parsed⟩ := parsed_frames frames new
  have init : (publication m who (frames.flatMap (·.bytes))).Triple Card.Consistent U55n.init
      fun _ => Card.Consistent := World.Triple.mapErr (here ▸ triple_cmsInit)
  have t : ((publication m who (frames.flatMap (·.bytes))).beside (terminal content)).Triple
      (fun s => s.1.Consistent ∧ s.2 = []) (main debug checks ⟨config, some (.get .cardInfo)⟩)
      fun _ s => s.2 = configLines config ++ [info.asString] :=
    triple_main stable_consistent init (triple_get here told parsed)
  apply And.intro
  · intro s' out steps
    have carried := CardInfo.tryFrom_carries frames parsed
    exact ⟨info, carried.imp fun _ _ item => item.2, t.ends ⟨consistent, rfl⟩ steps⟩
  · obtain ⟨_, s', steps⟩ := t.returns (s, []) ⟨consistent, rfl⟩
    exact ⟨s'.1, s'.2, steps⟩

/-- A card whose only frame says that it has a fan. -/
theorem main_reports_fan : ∃ s' out,
    ((publication shellMap () (([⟨⟨.fanPresence, [0x41], by decide⟩, 0x41, rfl⟩] :
        List WellFormedFrame).flatMap (·.bytes))).beside (terminal fun _ => [])).Steps
      ((idleCard, []), main false true ⟨none, some (.get .cardInfo)⟩) ((s', out), .ret (.ok ())) ∧
    ∃ info : CardInfo, info.items.length = 1 ∧ out = [info.asString] := by
  obtain ⟨reports, s', out, steps⟩ := main_reports false true none (fun _ => []) shellMap rfl ()
    [⟨⟨.fanPresence, [0x41], by decide⟩, 0x41, rfl⟩] (by simp [CardInfoKey.IsOldMac]) (by decide)
    idleCard idleCard_consistent
  obtain ⟨info, carried, printed⟩ := reports s' out steps
  exact ⟨s', out, steps, info, carried.length_eq.symm, printed⟩

end Warpshell.Cli
