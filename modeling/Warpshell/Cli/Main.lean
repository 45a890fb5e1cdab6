import Warpshell.CardInfo.Display
import Warpshell.Cores.Readings
import Warpshell.Interaction.Product
import Warpshell.Shells.XilinxU55nXdmaStd

/-!
# Command line

The program of `warpshell-cli/src/main.rs`, from the parsed command line on. Beside the accesses to the
card it connects to the shell, reads the bitstream file, prints and looks at the clock; these are the
calls of the host.
-/

namespace Warpshell.Cli
open Interaction

inductive MgmtReading where
  | cardInfo
  | fpgaTemp
  | hbmTemp
  | boardPower
  deriving DecidableEq, Repr

inductive Command where
  | program (file : String)
  | get (reading : MgmtReading)
  deriving DecidableEq, Repr

/-- The parsed command line (Rust `Cli`). Paths are given as they are displayed. -/
structure Args where
  config : Option String
  command : Option Command
  deriving DecidableEq, Repr

inductive MeasurementUnit where
  | c
  | milliW
  deriving DecidableEq, Repr

def MeasurementUnit.asString : MeasurementUnit → String
  | .c => "C"
  | .milliW => "mW"

inductive MgmtValue where
  | cardInfo (info : Cms.CardInfo)
  | measurement (v : UInt32) (u : MeasurementUnit)
  deriving DecidableEq, Repr

def MgmtValue.asString : MgmtValue → String
  | .cardInfo info => info.asString
  | .measurement v u => toString v.toNat ++ " " ++ u.asString

/-! ## The host -/

inductive Call where
  /-- `XilinxU55nXdmaStd::new`. -/
  | connect
  | openFile (path : String)
  | readToEnd (path : String)
  | println (line : String)
  /-- The time since the programming began, as it is displayed. -/
  | elapsed
  deriving DecidableEq, Repr

abbrev Call.Answer : Call → Type
  | .connect => Except U55n.Error Unit
  | .openFile _ => Except IoError Unit
  | .readToEnd _ => Except IoError (List UInt8)
  | .println _ => Except IoError Unit
  | .elapsed => String

/-- The error that an `anyhow::Error` wraps. -/
inductive Source where
  | shell (err : U55n.Error)
  | cms (err : Cms.Error)
  | io (err : IoError)
  deriving DecidableEq, Repr

/-- What `main` fails with (Rust `anyhow::Error`). -/
structure Failure where
  context : Option String
  source : Source
  deriving DecidableEq, Repr

/-- Code over the card and the host. -/
abbrev Script (α : Type) : Type := Io (Access ⊕ Call) (Sum.elim Access.Answer Call.Answer) Failure α

/-- A call of the library; `f` is the conversion of its errors. -/
def onCard {ε α : Type} (x : Driver ε α) (f : ε → Failure) : Script α := (Io.left x).mapErr f

def connect : Script Unit := Io.right Call.connect fun
  | .ok () => .ok ()
  | .error e => .err ⟨some "failed to connect to shell", .shell e⟩

def openFile (path : String) : Script Unit := Io.right (Call.openFile path) fun
  | .ok () => .ok ()
  | .error e => .err ⟨some "cannot open bitstream file", .io e⟩

def readToEnd (path : String) : Script (List UInt8) := Io.right (Call.readToEnd path) fun
  | .ok bytes => .ok bytes
  | .error e => .err ⟨some "cannot read bitstream from file", .io e⟩

/-- The `println!` macro, which panics when nothing can be printed. -/
def println (line : String) : Script Unit := Io.right (Call.println line) fun
  | .ok () => .ok ()
  | .error _ => .panic

def elapsed : Script String := Io.right Call.elapsed .ok

/-! ## Power -/

/-- `a * b`; overflow panics in builds that check for it, and wraps around in the others. -/
def mul {ε : Type} (checks : Bool) (a b : UInt32) : Outcome ε UInt32 :=
  if checks = true ∧ 2 ^ 32 ≤ a.toNat * b.toNat then .panic else .ok (a * b)

/-- `a + b`. -/
def add {ε : Type} (checks : Bool) (a b : UInt32) : Outcome ε UInt32 :=
  if checks = true ∧ 2 ^ 32 ≤ a.toNat + b.toNat then .panic else .ok (a + b)

/-- `voltage * current / 1000 + voltage_aux * current_aux / 1000`. -/
def boardPower {ε : Type} (checks : Bool) (voltage current voltageAux currentAux : UInt32) :
    Outcome ε UInt32 := do
  let power ← mul checks voltage current
  let powerAux ← mul checks voltageAux currentAux
  add checks (power / 1000) (powerAux / 1000)

/-! ## Commands -/

def getReading (reading : Cms.Reading) : Script UInt32 :=
  onCard (Cms.getReading U55n.cms reading) fun e => ⟨none, .cms e⟩

def mgmtValue (checks : Bool) : MgmtReading → Script MgmtValue
  | .cardInfo => do
    let info ← onCard (Cms.getCardInfo U55n.cms) fun e => ⟨none, .cms e⟩
    pure (.cardInfo info)
  | .fpgaTemp => do
    let v ← getReading .fpgaTempInst
    pure (.measurement v .c)
  | .hbmTemp => do
    let v ← getReading .hbm0TempInst
    pure (.measurement v .c)
  | .boardPower => do
    let voltage ← getReading .pex12VInst
    let current ← getReading .pex12VCurrentInInst
    let voltageAux ← getReading .aux12VInst
    let currentAux ← getReading .aux12VCurrentInInst
    let power ← Io.ofOutcome (boardPower checks voltage current voltageAux currentAux)
    pure (.measurement power .milliW)

def program (debug : Bool) (file : String) : Script Unit := do
  openFile file
  let bitstream ← readToEnd file
  println ("Programming bitstream file " ++ file)
  onCard (U55n.programUserImage debug bitstream) fun e => ⟨none, .shell e⟩
  let time ← elapsed
  println ("Programming finished in " ++ time)

def get (checks : Bool) (reading : MgmtReading) : Script Unit := do
  let value ← mgmtValue checks reading
  println value.asString

/-- What is done for a command. `debug` is whether debug messages are logged, `checks` whether overflow
    is checked for. -/
def execute (debug checks : Bool) : Option Command → Script Unit
  | some (.program file) => program debug file
  | some (.get reading) => get checks reading
  | none => pure ()

def main (debug checks : Bool) (args : Args) : Script Unit := do
  match args.config with
  | some config => println ("Config file: " ++ config)
  | none => pure ()
  connect
  onCard U55n.init fun e => ⟨some "cannot initialise shell", .shell e⟩
  execute debug checks args.command

end Warpshell.Cli
