import Warpshell.Cli.Main

/-!
# The terminal

The side of the host: files that do not change, and a terminal that shows what was printed. What a
command does to the card is unaffected by it, so a command is shown correct from what is known of the
calls of the library (`triple_onCard`), whatever card they are made of (`triple_main`).
-/

namespace Warpshell.Cli
open Interaction

/-- How the host answers. The contents of the files are fixed; what was printed is the state. -/
inductive Terminal (content : String → List UInt8) :
    List String → (c : Call) → c.Answer → List String → Prop where
  | connect {out r} : Terminal content out .connect r out
  | openFile {out path r} : Terminal content out (.openFile path) r out
  | readToEnd {out path} : Terminal content out (.readToEnd path) (.ok (content path)) out
  | readFailed {out path e} : Terminal content out (.readToEnd path) (.error e) out
  | println {out line} : Terminal content out (.println line) (.ok ()) (out ++ [line])
  | printFailed {out line e} : Terminal content out (.println line) (.error e) out
  | elapsed {out time} : Terminal content out .elapsed time out

def terminal (content : String → List UInt8) : World Call Call.Answer (List String) where
  env _ _ := False
  answers := Terminal content

section
variable {σ : Type} {W : World Access Access.Answer σ} {content : String → List UInt8} {P : σ → Prop}
  {lines : List String} {path line : String}

lemma stable_terminal {I : List String → Prop} : (terminal content).Stable I := fun _ _ _ en => en.elim

/-- Connecting changes neither the card nor what is printed. -/
lemma triple_connect (stP : W.Stable P) : (W.beside (terminal content)).Triple
    (fun s => P s.1 ∧ s.2 = lines) connect fun _ s => P s.1 ∧ s.2 = lines := by
  refine World.Triple.right (I := (· = lines)) (L := fun _ => (· = lines)) stP stable_terminal
    (fun _ => stable_terminal) ?_ ?_
  · intro out r out' _ same an _
    cases an
    exact same
  · exact fun out _ => ⟨out, .ok (), out, (), .refl, .connect, rfl⟩

/-- A line is printed behind the others. -/
lemma triple_println (stP : W.Stable P) : (W.beside (terminal content)).Triple
    (fun s => P s.1 ∧ s.2 = lines) (println line) fun _ s => P s.1 ∧ s.2 = lines ++ [line] := by
  refine World.Triple.right (I := (· = lines)) (L := fun _ out => out = lines ++ [line]) stP
    stable_terminal (fun _ => stable_terminal) ?_ ?_
  · intro out r out' _ same an eq
    cases an with
    | println => rw [same]
    | printFailed => cases eq
  · exact fun out _ => ⟨out, .ok (), out ++ [line], (), .refl, .println, rfl⟩

/-- A call of the library prints nothing. -/
lemma triple_onCard {ε α : Type} {x : Driver ε α} {f : ε → Failure} {K : α → σ → Prop}
    (t : W.Triple P x K) : (W.beside (terminal content)).Triple (fun s => P s.1 ∧ s.2 = lines)
      (onCard x f) fun a s => K a s.1 ∧ s.2 = lines :=
  World.Triple.mapErr (World.Triple.left (I := (· = lines)) t stable_terminal)

/-- What is printed about the configuration. -/
def configLines (config : Option String) : List String :=
  (config.map ("Config file: " ++ ·)).toList

/-- An invocation is its initialisation, and then its command. -/
lemma triple_main {debug checks : Bool} {config : Option String} {command : Option Command}
    {Q : σ → Prop} {L : Unit → σ × List String → Prop} (stP : W.Stable P)
    (init : W.Triple P U55n.init fun _ => Q)
    (executed : (W.beside (terminal content)).Triple (fun s => Q s.1 ∧ s.2 = configLines config)
      (execute debug checks command) L) :
    (W.beside (terminal content)).Triple (fun s => P s.1 ∧ s.2 = [])
      (main debug checks ⟨config, command⟩) L := by
  have rest : (W.beside (terminal content)).Triple (fun s => P s.1 ∧ s.2 = configLines config)
      (connect >>= fun _ => onCard U55n.init (fun e => ⟨some "cannot initialise shell", .shell e⟩) >>=
        fun _ => execute debug checks command) L :=
    World.Triple.bind (triple_connect stP) fun _ =>
      World.Triple.bind (triple_onCard init) fun _ => executed
  cases config with
  | some path => exact World.Triple.bind (triple_println stP) fun _ => rest
  | none => exact rest

end

end Warpshell.Cli
