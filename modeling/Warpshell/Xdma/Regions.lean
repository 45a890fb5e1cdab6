import Mathlib.Data.Set.Basic
import Warpshell.Interaction.Parallel
import Warpshell.Xdma.Transport

/-!
# Regions

Threads that share the channels but not the bytes behind them. Nothing keeps the system calls of two
threads apart, so transfers that are split into several calls may overlap. What a thread reads and
leaves in its region is still what it could have read and left there alone (`clients_apart`).
-/

namespace Warpshell.Xdma
open Interaction

/-- The memory behind a channel. -/
inductive Space where
  | ctrl
  | dma
  deriving DecidableEq, Repr

def Node.space : Node → Space
  | .user => .ctrl
  | .h2c => .dma
  | .c2h => .dma

/-- The address of a byte. -/
abbrev Cell : Type := Space × Nat

def span (space : Space) (addr len : Nat) : Set Cell :=
  { x | x.1 = space ∧ addr ≤ x.2 ∧ x.2 < addr + len }

/-- The bytes that a call may transfer. -/
def Syscall.cells : Syscall → Set Cell
  | .readAt file len offset => span file.space offset len
  | .writeAt file buf offset => span file.space offset buf.length

def accessCells : Access → Set Cell
  | .ctrlReadU32 addr => span .ctrl addr 4
  | .ctrlWriteU32 addr _ => span .ctrl addr 4
  | .dmaRead addr len => span .dma addr len
  | .dmaWrite addr buf => span .dma addr buf.length

/-- The program stays within a region, whatever the answers are. -/
def StaysIn {α : Type} (region : Set Cell) (p : Prog Access Access.Answer α) : Prop :=
  Only (fun _ => True) (fun e => accessCells e ⊆ region) p

def Channels.get (c : Channels) : Cell → UInt8
  | (.ctrl, a) => c.ctrl a
  | (.dma, a) => c.dma a

/-- The same bytes in a region. -/
def AgreeOn (region : Set Cell) (c d : Channels) : Prop := ∀ x ∈ region, c.get x = d.get x

/-! ## The calls of a program -/

section
variable {file : Node} {len : Nat} {t : List (Event Syscall Syscall.Answer)} {region : Set Cell}

/-- A range within a range. -/
lemma span_subset {space : Space} {addr addr' len len' : Nat} (start : addr ≤ addr')
    (stop : addr' + len' ≤ addr + len) : span space addr' len' ⊆ span space addr len := by
  intro x mem
  obtain ⟨same, low, high⟩ := mem
  exact ⟨same, by omega, by omega⟩

/-- A reading loop only touches the cells it has still to read. -/
lemma readExact_cells {s : ReadExact len} {r : Except IoError (Bytes len)}
    (loop : Loop (readExactAt file) s t r) :
    ∀ x ∈ t, x.1.cells ⊆ span file.space s.offset (len - s.buf.length) := by
  induction loop with
  | @done s t r run =>
    intro x mem
    obtain ⟨_, rfl, _⟩ | ⟨_, a, rfl, _⟩ := readExactAt_runs.mp run
    · cases mem
    · rw [List.mem_singleton.mp mem]
      exact Set.Subset.rfl
  | @again s s' t t' r run _ ih =>
    intro x mem
    obtain ⟨_, rfl, eq⟩ | ⟨_, a, rfl, eq⟩ := readExactAt_runs.mp run
    · cases eq
    · rcases List.mem_append.mp mem with mem | mem
      · rw [List.mem_singleton.mp mem]
        exact Set.Subset.rfl
      · refine (ih x mem).trans ?_
        cases a with
        | ok bytes =>
          obtain ⟨bytes, fits⟩ := bytes
          rw [ReadExact.next] at eq
          split at eq
          · cases eq
          · cases eq
            refine span_subset (Nat.le_add_right _ _) ?_
            show s.offset + bytes.length + (len - (s.buf ++ bytes).length) ≤
              s.offset + (len - s.buf.length)
            rw [List.length_append]
            omega
        | error code =>
          rw [ReadExact.next] at eq
          split at eq
          · cases eq
            exact Set.Subset.rfl
          · cases eq

/-- A writing loop only touches the cells it has still to write. -/
lemma writeAll_cells {s : WriteAll} {r : Except IoError Unit} (loop : Loop (writeAllAt file) s t r) :
    ∀ x ∈ t, x.1.cells ⊆ span file.space s.offset s.buf.length := by
  induction loop with
  | @done s t r run =>
    intro x mem
    obtain ⟨_, rfl, _⟩ | ⟨_, a, rfl, _⟩ := writeAllAt_runs.mp run
    · cases mem
    · rw [List.mem_singleton.mp mem]
      exact Set.Subset.rfl
  | @again s s' t t' r run _ ih =>
    intro x mem
    obtain ⟨_, rfl, eq⟩ | ⟨_, a, rfl, eq⟩ := writeAllAt_runs.mp run
    · cases eq
    · rcases List.mem_append.mp mem with mem | mem
      · rw [List.mem_singleton.mp mem]
        exact Set.Subset.rfl
      · refine (ih x mem).trans ?_
        cases a with
        | ok n =>
          rw [WriteAll.next] at eq
          split at eq
          · cases eq
          · cases eq
            refine span_subset (Nat.le_add_right _ _) ?_
            show s.offset + n.1 + (s.buf.drop n.1).length ≤ s.offset + s.buf.length
            rw [List.length_drop]
            omega
        | error code =>
          rw [WriteAll.next] at eq
          split at eq
          · cases eq
            exact Set.Subset.rfl
          · cases eq

/-- The system calls of an access only touch its cells. -/
lemma carriesOut_cells {e : Access} {r : e.Answer} (carried : carriesOut e r t) :
    ∀ x ∈ t, x.1.cells ⊆ accessCells e := by
  cases e with
  | ctrlReadU32 addr =>
    obtain ⟨_, ⟨_, loop, _⟩, _⟩ := carried
    exact readExact_cells loop
  | ctrlWriteU32 addr v =>
    obtain ⟨_, ⟨_, loop, _⟩, _⟩ := carried
    exact writeAll_cells loop
  | dmaRead addr len =>
    obtain ⟨_, ⟨_, loop, _⟩, _⟩ := carried
    exact readExact_cells loop
  | dmaWrite addr buf =>
    obtain ⟨_, ⟨_, loop, _⟩, _⟩ := carried
    exact writeAll_cells loop

/-- A program that stays in a region does so when it is carried out by system calls. -/
lemma lowered_cells {α : Type} {p : Prog Access Access.Answer α} {a : α} (stays : StaysIn region p)
    (run : Lowered carriesOut p t a) : ∀ x ∈ t, x.1.cells ⊆ region := by
  induction run with
  | ret => exact fun x mem => absurd mem List.not_mem_nil
  | act carried _ ih =>
    obtain ⟨within, rest⟩ := Only.act stays trivial
    intro x mem
    rcases List.mem_append.mp mem with mem | mem
    · exact (carriesOut_cells carried x mem).trans within
    · exact ih rest x mem

end

/-! ## What a call sees and changes -/

section
variable {c c' d : Channels} {e : Syscall} {r : e.Answer} {region : Set Cell}

/-- A cell after a store: its new byte, or the one it had. -/
lemma get_store {file : Node} {addr : Nat} {bs : List UInt8} {x : Cell} :
    (c.store file addr bs).get x =
      if x.1 = file.space ∧ addr ≤ x.2 then bs.getD (x.2 - addr) (c.get x) else c.get x := by
  obtain ⟨space, a⟩ := x
  cases file <;> cases space <;> simp [Channels.store, Channels.get, Node.space, Memory.store]

lemma mem_get {file : Node} {a : Nat} : c.mem file a = c.get (file.space, a) := by
  cases file <;> rfl

/-- The same bytes in a range, the same list. -/
lemma bytes_congr {m m' : Memory} {addr n : Nat} (same : ∀ a, addr ≤ a → a < addr + n → m a = m' a) :
    m.bytes addr n = m'.bytes addr n := by
  induction n generalizing addr with
  | zero => rfl
  | succ n ih =>
    rw [Memory.bytes, Memory.bytes, same addr (Nat.le_refl _) (by omega),
      ih fun a low high => same a (by omega) (by omega)]

/-- A call changes no byte but those it may transfer. -/
lemma serves_elsewhere (serves : Channels.Serves c e r c') {x : Cell} (apart : x ∉ e.cells) :
    c'.get x = c.get x := by
  cases serves with
  | read bytes eq => rfl
  | @write file buf offset n =>
    rw [get_store]
    split
    next after =>
      have past : buf.length ≤ x.2 - offset := by
        by_contra within
        exact apart ⟨after.1, after.2, by omega⟩
      have none : (buf.take n.1)[x.2 - offset]? = none :=
        List.getElem?_eq_none (Nat.le_trans (List.length_take_le' _ _) past)
      rw [List.getD_eq_getElem?_getD, none, Option.getD_none]
    next => rfl
  | readFailed code => rfl
  | writeFailed code => rfl

/-- A call within a region does there the same to all memories that agree on it. -/
lemma serves_agree (serves : Channels.Serves c e r c') (within : e.cells ⊆ region)
    (agree : AgreeOn region c d) : ∃ d', Channels.Serves d e r d' ∧ AgreeOn region c' d' := by
  cases serves with
  | @read file len offset bytes eq =>
    refine ⟨d, .read bytes (eq.trans ?_), agree⟩
    have fits := bytes.2
    refine bytes_congr fun a low high => ?_
    rw [mem_get, mem_get]
    exact agree _ (within ⟨rfl, low, by simp only; omega⟩)
  | @write file buf offset n =>
    refine ⟨_, .write n, fun x mem => ?_⟩
    rw [get_store, get_store, agree x mem]
  | readFailed code => exact ⟨d, .readFailed code, agree⟩
  | writeFailed code => exact ⟨d, .writeFailed code, agree⟩

end

/-! ## Threads -/

section
variable {τ : Type} {region : τ → Set Cell} {T : List (τ × Event Syscall Syscall.Answer)}
  {c c' d : Channels}

/-- System calls on other cells leave a cell as it was. -/
lemma path_elsewhere {x : Cell} (path : Channels.device.Path c (T.map Prod.snd) c')
    (apart : ∀ y ∈ T, x ∉ y.2.1.cells) : c'.get x = c.get x := by
  induction T generalizing c with
  | nil => rw [World.path_nil.mp path]
  | cons y T ih =>
    obtain ⟨c₁, serves, rest⟩ := World.path_cons.mp path
    rw [ih rest fun z mem => apart z (List.mem_cons_of_mem _ mem)]
    exact serves_elsewhere serves (apart y List.mem_cons_self)

/-- The calls of one thread by themselves do in its region what they did among those of the others. -/
lemma path_own [DecidableEq τ] {i : τ} (disjoint : ∀ i j x, x ∈ region i → x ∈ region j → i = j)
    (within : ∀ y ∈ T, y.2.1.cells ⊆ region y.1) (path : Channels.device.Path c (T.map Prod.snd) c')
    (agree : AgreeOn (region i) c d) :
    ∃ d', Channels.device.Path d (own i T) d' ∧ AgreeOn (region i) c' d' := by
  induction T generalizing c d with
  | nil =>
    obtain rfl := World.path_nil.mp path
    exact ⟨d, .nil, agree⟩
  | cons y T ih =>
    obtain ⟨j, y⟩ := y
    obtain ⟨c₁, serves, rest⟩ := World.path_cons.mp path
    have mine : y.1.cells ⊆ region j := within _ List.mem_cons_self
    have others := fun z mem => within z (List.mem_cons_of_mem _ mem)
    by_cases same : j = i
    · subst same
      obtain ⟨d₁, serves', agree'⟩ := serves_agree serves mine agree
      obtain ⟨d', path', agree''⟩ := ih others rest agree'
      refine ⟨d', ?_, agree''⟩
      rw [show own j ((j, y) :: T) = y :: own j T from by simp [own]]
      exact .cons serves' path'
    · have still : AgreeOn (region i) c₁ d := by
        intro x mem
        rw [← agree x mem]
        exact serves_elsewhere serves fun touched => same (disjoint j i x (mine touched) mem)
      obtain ⟨d', path', agree'⟩ := ih others rest still
      refine ⟨d', ?_, agree'⟩
      rw [show own i ((j, y) :: T) = own i T from by simp [own, same]]
      exact path'

end

/-- Threads with a region each, and their system calls in any order. For a thread that is done, there
    is a run of its program by itself, over whole accesses, with the same result and the same bytes in
    its region; and no byte outside the regions is changed. -/
theorem clients_apart {τ α : Type} [DecidableEq τ] (region : τ → Set Cell)
    (disjoint : ∀ i j x, x ∈ region i → x ∈ region j → i = j)
    (ps : τ → Prog Access Access.Answer α) (stays : ∀ i, StaysIn (region i) (ps i))
    (T : List (τ × Event Syscall Syscall.Answer)) (c c' : Channels)
    (path : Channels.device.Path c (T.map Prod.snd) c')
    (underway : ∀ i, ∃ t a, Lowered carriesOut (ps i) (own i T ++ t) a) :
    (∀ i a, Lowered carriesOut (ps i) (own i T) a →
      ∃ t d, Run (ps i) t a ∧ Channels.card.Path c t d ∧ AgreeOn (region i) c' d) ∧
    ∀ x, (∀ i, x ∉ region i) → c'.get x = c.get x := by
  have within : ∀ y ∈ T, y.2.1.cells ⊆ region y.1 := by
    intro y mem
    obtain ⟨t, a, run⟩ := underway y.1
    exact lowered_cells (stays y.1) run y.2 (List.mem_append_left _ (mem_own.mpr mem))
  apply And.intro
  · intro i a run
    obtain ⟨d, alone, agree⟩ := path_own disjoint within path fun x _ => rfl
    obtain ⟨t, run', path'⟩ :=
      (World.lowered_iff (W := Channels.card) carriesOut_iff (ps i) c d a).mp ⟨_, run, alone⟩
    exact ⟨t, d, run', path', agree⟩
  · intro x outside
    exact path_elsewhere path fun y mem touched => outside y.1 (within y mem touched)

/-- A thread that writes two bytes, one at a time, and in between another one that writes the byte
    after them. -/
def splitWrite : List (Bool × Event Syscall Syscall.Answer) :=
  [(false, ⟨.writeAt .h2c [1, 2] 0, .ok 1⟩), (true, ⟨.writeAt .h2c [3] 2, .ok 1⟩),
    (false, ⟨.writeAt .h2c [2] 1, .ok 1⟩)]

/-- Empty memories, and the same after the three calls. -/
def blank : Channels := ⟨fun _ => 0, fun _ => 0⟩

def written : Channels := ⟨fun _ => 0, ((blank.dma.store 0 [1]).store 2 [3]).store 1 [2]⟩

section
variable {buf : List UInt8} {offset : Nat} {t : List (Event Syscall Syscall.Answer)}

/-- A DMA write is carried out by its loop of `pwrite`s. -/
lemma lowered_dmaWrite (loop : Loop (writeAllAt .h2c) ⟨buf, 0 + offset⟩ t (.ok ())) :
    Lowered carriesOut (basedDmaWrite ⟨0⟩ buf offset) t (.ok ()) := by
  have carried : carriesOut (.dmaWrite (0 + offset) buf) (.ok ()) t :=
    ⟨.ok (), ⟨.ok (), loop, rfl⟩, rfl⟩
  rw [← List.append_nil t]
  exact .act carried .ret

/-- A DMA write stays within its bytes. -/
lemma staysIn_dmaWrite :
    StaysIn (span .dma (0 + offset) buf.length) (basedDmaWrite ⟨0⟩ buf offset) :=
  Only.bind (only_access Set.Subset.rfl) fun _ => only_ret

end

/-- Both threads are done. -/
lemma lowered_splitWrite : ∀ i, Lowered carriesOut
    (basedDmaWrite ⟨0⟩ (bif i then [3] else [1, 2]) (bif i then 2 else 0)) (own i splitWrite)
    (.ok ()) := by
  intro i
  cases i with
  | false =>
    exact lowered_dmaWrite (.again (writeAllAt_runs.mpr (.inr ⟨by decide, .ok 1, rfl, rfl⟩))
      (.again (writeAllAt_runs.mpr (.inr ⟨by decide, .ok 1, rfl, rfl⟩))
        (.done (writeAllAt_runs.mpr (.inl ⟨rfl, rfl, rfl⟩)))))
  | true =>
    exact lowered_dmaWrite (.again (writeAllAt_runs.mpr (.inr ⟨by decide, .ok 1, rfl, rfl⟩))
      (.done (writeAllAt_runs.mpr (.inl ⟨rfl, rfl, rfl⟩))))

/-- Each of the two could have done by itself what it has done. -/
theorem clients_apart_two : Channels.device.Path blank (splitWrite.map Prod.snd) written ∧
    (∃ t d, Run (basedDmaWrite ⟨0⟩ [1, 2] 0) t (.ok ()) ∧ Channels.card.Path blank t d ∧
      AgreeOn (span .dma 0 2) written d) ∧
    (∃ t d, Run (basedDmaWrite ⟨0⟩ [3] 2) t (.ok ()) ∧ Channels.card.Path blank t d ∧
      AgreeOn (span .dma 2 1) written d) ∧
    written.get (.dma, 3) = blank.get (.dma, 3) := by
  have path : Channels.device.Path blank (splitWrite.map Prod.snd) written :=
    .cons (.write 1) (.cons (.write 1) (.cons (.write 1) .nil))
  have stays : ∀ i, StaysIn (span .dma (bif i then 2 else 0) (bif i then 1 else 2))
      (basedDmaWrite ⟨0⟩ (bif i then [3] else [1, 2]) (bif i then 2 else 0)) := by
    intro i
    cases i with
    | false => exact staysIn_dmaWrite
    | true => exact staysIn_dmaWrite
  have disjoint : ∀ (i j : Bool) (x : Cell), x ∈ span .dma (bif i then 2 else 0) (bif i then 1 else 2) →
      x ∈ span .dma (bif j then 2 else 0) (bif j then 1 else 2) → i = j := by
    intro i j x mine yours
    obtain ⟨_, low, high⟩ := mine
    obtain ⟨_, low', high'⟩ := yours
    cases i <;> cases j <;> simp only [cond_true, cond_false] at * <;> omega
  have runs := lowered_splitWrite
  obtain ⟨alone, outside⟩ := clients_apart _ disjoint _ stays splitWrite _ _ path
    fun i => ⟨[], _, (List.append_nil (own i splitWrite)).symm ▸ runs i⟩
  refine ⟨path, alone false _ (runs false), alone true _ (runs true), outside _ fun i mem => ?_⟩
  obtain ⟨_, low, high⟩ := mem
  cases i <;> simp only [cond_true, cond_false] at * <;> omega

end Warpshell.Xdma
