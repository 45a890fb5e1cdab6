import Warpshell.Cli.Main

/-!
# Board power

The formula for the board power multiplies readings of 32 bits in 32 bits. What is printed is the
power exactly when neither product overflows; a build that checks for overflow prints nothing
otherwise, one that does not prints too little.
-/

namespace Warpshell.Cli
open Interaction

/-- The value that the formula stands for. -/
def power (voltage current voltageAux currentAux : UInt32) : Nat :=
  voltage.toNat * current.toNat / 1000 + voltageAux.toNat * currentAux.toNat / 1000

/-- Neither product overflows. -/
def Fits (voltage current voltageAux currentAux : UInt32) : Prop :=
  voltage.toNat * current.toNat < 2 ^ 32 ∧ voltageAux.toNat * currentAux.toNat < 2 ^ 32

/-! ## Arithmetic -/

section
variable {ε : Type} {checks : Bool} {v i va ia a b : UInt32}

/-- A quotient by 1000 leaves room for a sum. -/
lemma div_lt_half (a : UInt32) : (a / 1000).toNat < 2 ^ 31 := by
  rw [UInt32.toNat_div]
  have lt := a.toNat_lt
  show a.toNat / 1000 < 2 ^ 31
  omega

/-- The sum of two quotients never overflows. -/
lemma add_quotients :
    add checks (a / 1000) (b / 1000) = (.ok (a / 1000 + b / 1000) : Outcome ε UInt32) := by
  have ha := div_lt_half a
  have hb := div_lt_half b
  rw [add, if_neg (by omega)]

/-- The sum of two quotients, as a number. -/
lemma toNat_quotients : (a / 1000 + b / 1000).toNat = a.toNat / 1000 + b.toNat / 1000 := by
  have ha := div_lt_half a
  have hb := div_lt_half b
  rw [UInt32.toNat_add, Nat.mod_eq_of_lt (by omega), UInt32.toNat_div, UInt32.toNat_div]
  rfl

/-- Where no check fails, the products are the ones that wrap around. -/
lemma boardPower_ok (passed : checks = true → Fits v i va ia) :
    boardPower checks v i va ia = (.ok (v * i / 1000 + va * ia / 1000) : Outcome ε UInt32) := by
  have pex : mul checks v i = (.ok (v * i) : Outcome ε UInt32) :=
    if_neg fun ⟨set, le⟩ => absurd (passed set).1 (Nat.not_lt.mpr le)
  have aux : mul checks va ia = (.ok (va * ia) : Outcome ε UInt32) :=
    if_neg fun ⟨set, le⟩ => absurd (passed set).2 (Nat.not_lt.mpr le)
  rw [boardPower, pex, Outcome.ok_bind, aux, Outcome.ok_bind, add_quotients]

/-- With the checks on, a product that does not fit panics. -/
lemma boardPower_panics (long : ¬ Fits v i va ia) :
    boardPower true v i va ia = (.panic : Outcome ε UInt32) := by
  rw [boardPower]
  by_cases pex : v.toNat * i.toNat < 2 ^ 32
  · have aux : 2 ^ 32 ≤ va.toNat * ia.toNat := Nat.not_lt.mp fun lt => long ⟨pex, lt⟩
    rw [mul, if_neg (by omega), Outcome.ok_bind, mul, if_pos ⟨rfl, aux⟩]
    rfl
  · rw [mul, if_pos ⟨rfl, Nat.not_lt.mp pex⟩]
    rfl

/-- A product that wraps around loses at least one of its thousands. -/
lemma wrapped_div (n : Nat) : n % 2 ^ 32 / 1000 ≤ n / 1000 ∧
    (n % 2 ^ 32 / 1000 = n / 1000 ↔ n < 2 ^ 32) := by
  omega

/-- Without the checks, the result is too low exactly when a product does not fit. -/
lemma toNat_wrapped (v i va ia : UInt32) :
    (v * i / 1000 + va * ia / 1000).toNat ≤ power v i va ia ∧
    ((v * i / 1000 + va * ia / 1000).toNat = power v i va ia ↔ Fits v i va ia) := by
  rw [toNat_quotients, UInt32.toNat_mul, UInt32.toNat_mul, power, Fits]
  obtain ⟨le, eq⟩ := wrapped_div (v.toNat * i.toNat)
  obtain ⟨le', eq'⟩ := wrapped_div (va.toNat * ia.toNat)
  rw [← eq, ← eq']
  omega

end

/-! ## Runs -/

/-- An access to the card or a call of the host with its answer. -/
abbrev HostEvent : Type := Event (Access ⊕ Call) (Sum.elim Access.Answer Call.Answer)

/-- A sensor is read. -/
def reads (reading : Cms.Reading) (v : UInt32) : HostEvent :=
  ⟨.inl (.ctrlReadU32 (U55n.cms.baseAddr + reading.offset)), (.ok v : Except BasedError UInt32)⟩

/-- A line is printed, or not. -/
def prints (line : String) (r : Except IoError Unit) : HostEvent := ⟨.inr (.println line), r⟩

/-- The readings that the formula is about. -/
def powerReads (v i va ia : UInt32) : List HostEvent :=
  [reads .pex12VInst v, reads .pex12VCurrentInInst i, reads .aux12VInst va,
    reads .aux12VCurrentInInst ia]

/-- What is printed of a power. -/
def milliwatts (n : Nat) : String := toString n ++ " " ++ MeasurementUnit.milliW.asString

/-- How the macro ends. -/
def printed : Except IoError Unit → Outcome Failure Unit
  | .ok () => .ok ()
  | .error _ => .panic

section
variable {checks : Bool} {v i va ia : UInt32} {t : List HostEvent} {o : Outcome Failure Unit}

/-- The runs behind a reading that succeeds. -/
lemma run_getReading {reading : Cms.Reading} {α : Type} {k : UInt32 → Script α} {o : Outcome Failure α} :
    Run (getReading reading >>= k : Script α) (reads reading v :: t) o ↔ Run (k v) t o := by
  apply Iff.intro
  · intro run
    cases run with
    | act run => exact run
  · exact fun run => .act run

/-- The run of a `println`: one line, printed or not. -/
lemma run_println {line : String} :
    Run (println line) t o ↔ ∃ r, t = [prints line r] ∧ o = printed r := by
  apply Iff.intro
  · intro run
    obtain ⟨r, t', rfl, rest⟩ := run.first
    obtain ⟨rfl, rfl⟩ := run_ret.mp rest
    refine ⟨r, rfl, ?_⟩
    cases r with
    | ok => rfl
    | error => rfl
  · intro parts
    obtain ⟨r, rfl, rfl⟩ := parts
    cases r with
    | ok => exact .act .ret
    | error => exact .act .ret

/-- After the readings, there is the formula. -/
lemma run_get : Run (get checks .boardPower) (powerReads v i va ia ++ t) o ↔
    Run (Io.ofOutcome (boardPower checks v i va ia) >>= fun n : UInt32 =>
      println (milliwatts n.toNat) : Script Unit) t o := by
  have flat : get checks .boardPower = (do
      let voltage ← getReading .pex12VInst
      let current ← getReading .pex12VCurrentInInst
      let voltageAux ← getReading .aux12VInst
      let currentAux ← getReading .aux12VCurrentInInst
      let power ← Io.ofOutcome (boardPower checks voltage current voltageAux currentAux)
      println (milliwatts power.toNat)) := by
    simp only [get, mgmtValue, Io.bind_assoc, Io.pure_bind, MgmtValue.asString, milliwatts]
  rw [flat]
  exact run_getReading.trans (run_getReading.trans (run_getReading.trans run_getReading))

end

/-- What the board power command makes of its four readings. When neither product overflows it prints
    the power; when one does, a build that checks for overflow panics before it prints anything, and
    one that does not prints a value below the power. Nothing else can happen after the readings. -/
theorem get_boardPower (v i va ia : UInt32) :
    (Fits v i va ia → ∀ checks t o, Run (get checks .boardPower) (powerReads v i va ia ++ t) o ↔
      ∃ r, t = [prints (milliwatts (power v i va ia)) r] ∧ o = printed r) ∧
    (¬ Fits v i va ia →
      (∀ t o, Run (get true .boardPower) (powerReads v i va ia ++ t) o ↔ t = [] ∧ o = .panic) ∧
      ∃ n < power v i va ia, ∀ t o, Run (get false .boardPower) (powerReads v i va ia ++ t) o ↔
        ∃ r, t = [prints (milliwatts n) r] ∧ o = printed r) := by
  have passed : ∀ {checks t o}, (checks = true → Fits v i va ia) →
      (Run (get checks .boardPower) (powerReads v i va ia ++ t) o ↔
        ∃ r, t = [prints (milliwatts (v * i / 1000 + va * ia / 1000).toNat) r] ∧
          o = printed r) := by
    intro checks t o fits
    rw [run_get, boardPower_ok fits]
    exact run_println
  obtain ⟨le, exact_iff⟩ := toNat_wrapped v i va ia
  refine ⟨fun fits checks t o => ?_, fun long => ⟨fun t o => ?_, ?_⟩⟩
  · rw [passed fun _ => fits, exact_iff.mpr fits]
  · rw [run_get, boardPower_panics long]
    exact run_ret
  · refine ⟨_, Nat.lt_of_le_of_ne le fun eq => long (exact_iff.mp eq), fun t o => ?_⟩
    exact passed fun set => absurd set Bool.false_ne_true

end Warpshell.Cli
