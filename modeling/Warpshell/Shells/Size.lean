import Warpshell.Shells.Trace

/-!
# The announced size

The Size register counts 32-bit words, and the DMA write that follows transfers bytes. Here the two
are compared: what a call announces (`sizes`) against what it transfers (`transferred`), for the
images that a Size value exists for (`HasSize`) and for the others.
-/

namespace Warpshell.U55n
open Interaction Hbicap

def sizeOf : CardEvent → Option UInt32
  | ⟨.ctrlWriteU32 addr v, .ok _⟩ => if addr = hbicapReg .size then some v else none
  | _ => none

def dmaBytes : CardEvent → List UInt8
  | ⟨.dmaWrite _ buf, .ok _⟩ => buf
  | _ => []

def sizes (t : List CardEvent) : List UInt32 := t.filterMap sizeOf

def transferred (t : List CardEvent) : List UInt8 := t.flatMap dmaBytes

/-- The Size register has 30 bits for the number of words: some value of it stands for `len` bytes. -/
def HasSize (len : Nat) : Prop := ∃ n : UInt32, n.toNat < 2 ^ 30 ∧ n.toNat * 4 = len

/-- A successful call announces what it transfers, and an image without a size is refused. -/
structure Announces (debug : Bool) (image : List UInt8) : Prop where
  ok : ∀ t, Run (programUserImage debug image) t (.ok ()) →
    ∃ n, sizes t = [n] ∧ n.toNat < 2 ^ 30 ∧ n.toNat * 4 = (transferred t).length
  refused : ¬ HasSize image.length → ∀ t r, Run (programUserImage debug image) t r → ∃ e, r = .err e

section
variable {debug : Bool} {image : List UInt8} {h t : List CardEvent}

lemma sizes_append : sizes (h ++ t) = sizes h ++ sizes t := List.filterMap_append

/-- The bytes transferred in two parts of a trace. -/
lemma transferred_append : transferred (h ++ t) = transferred h ++ transferred t :=
  List.flatMap_append

/-- The sizes announced after one more access. -/
lemma sizes_concat {x : CardEvent} : sizes (h ++ [x]) = sizes h ++ (sizeOf x).toList := by
  have single : sizes [x] = (sizeOf x).toList := by
    unfold sizes
    cases eq : sizeOf x with
    | none => rw [List.filterMap_cons_none eq]; rfl
    | some v => rw [List.filterMap_cons_some eq]; rfl
  rw [sizes_append, single]

/-- A write to another register announces nothing. -/
lemma sizes_other {addr : Nat} {v : UInt32} (other : addr ≠ hbicapReg .size) :
    sizes (h ++ [written addr v]) = sizes h := by
  have none : sizeOf (written addr v) = none := if_neg other
  rw [sizes_concat, none, Option.toList_none, List.append_nil]

/-- The Size write announces its value. -/
lemma sizes_size {v : UInt32} : sizes (h ++ [written (hbicapReg .size) v]) = sizes h ++ [v] := by
  have announced : sizeOf (written (hbicapReg .size) v) = some v := by
    rw [written, sizeOf, if_pos rfl]
  rw [sizes_concat, announced, Option.toList_some]

/-- The images with a size: whole words, and fewer than 2^30 of them. -/
lemma hasSize_iff {len : Nat} : HasSize len ↔ len % 4 = 0 ∧ len / 4 < 2 ^ 30 := by
  refine ⟨fun ⟨n, fits, eq⟩ => by omega, fun ⟨whole, fits⟩ => ?_⟩
  have small : (UInt32.ofNat (len / 4)).toNat = len / 4 :=
    UInt32.toNat_ofNat_of_lt' (Nat.lt_trans fits (by decide))
  exact ⟨UInt32.ofNat (len / 4), by omega, by omega⟩

/-- The wait announces nothing and transfers nothing. -/
lemma quiet_of_waits (waits : ∀ ev ∈ t, Waits ev.1) : sizes t = [] ∧ transferred t = [] := by
  refine ⟨List.filterMap_eq_nil_iff.mpr fun ev mem => ?_, List.flatMap_eq_nil_iff.mpr fun ev mem => ?_⟩
  · have w := waits ev mem
    obtain ⟨e, r⟩ := ev
    cases e with
    | ctrlReadU32 addr => rfl
    | ctrlWriteU32 addr v =>
      cases r with
      | error err => rfl
      | ok u =>
        obtain ⟨eq, _⟩ := w
        exact if_neg (eq ▸ by decide)
    | dmaRead addr len => rfl
    | dmaWrite addr buf => exact w.elim
  · have w := waits ev mem
    obtain ⟨e, r⟩ := ev
    cases e with
    | ctrlReadU32 addr => rfl
    | ctrlWriteU32 addr v => rfl
    | dmaRead addr len => rfl
    | dmaWrite addr buf => exact w.elim

/-- What a successful call announces, and what it transfers. -/
def Sent (image : List UInt8) (r : Outcome Error Unit) (t : List CardEvent) : Prop :=
  r = .ok () → sizes t = [announcedWords image.length] ∧ transferred t = image

/-- After the wait, a call that succeeds announces its image once and transfers it. -/
lemma wp_configure_sent (quiet : sizes h = [] ∧ transferred h = []) :
    (history _ _).wp (fun _ _ => True) (configure image) (Sent image) h := by
  rw [configure]
  apply step_write trivial (fun e => nofun)
  have s₁ : sizes (h ++ [blocked ctrlAxiFirewall]) = [] := (sizes_other (by decide)).trans quiet.1
  apply step_write trivial (fun e => nofun)
  have s₂ : sizes (h ++ [blocked ctrlAxiFirewall] ++ [blocked dmaAxiFirewall]) = [] :=
    (sizes_other (by decide)).trans s₁
  apply step_write trivial (fun e => nofun)
  have s₃ : sizes (h ++ [blocked ctrlAxiFirewall] ++ [blocked dmaAxiFirewall] ++
      [sizeWritten image]) = [announcedWords image.length] := by
    rw [sizeWritten, sizes_size, s₂, List.nil_append]
  apply step_dmaWrite trivial (fun e => nofun)
  apply step_poll (fun _ => trivial) (fun ms _ _ => nofun)
  intro ms v miss _ hit
  have quiet' := quiet_of_waits fun ev mem => waits_of_read (miss ev mem).read
  have s₄ : sizes (h ++ [blocked ctrlAxiFirewall] ++ [blocked dmaAxiFirewall] ++
      [sizeWritten image] ++ [imageWritten image] ++ ms ++
      [⟨.ctrlReadU32 (hbicapReg .status), .ok v⟩]) = [announcedWords image.length] := by
    rw [sizes_concat, sizes_append, sizes_concat, s₃, quiet'.1]
    rfl
  apply step_write trivial (fun e => nofun)
  apply step_write trivial (fun e => nofun)
  apply step_write trivial (fun e => nofun)
  rw [World.wp_mapErr, history_write]
  refine ⟨trivial, fun r ok => ?_⟩
  cases r with
  | error e => cases ok
  | ok u =>
    refine ⟨?_, ?_⟩
    · refine (sizes_other (by decide)).trans ((sizes_other (by decide)).trans ?_)
      exact (sizes_other (by decide)).trans ((sizes_other (by decide)).trans s₄)
    · simp only [transferred_append, quiet, quiet', List.nil_append]
      show image ++ [] ++ [] ++ [] ++ [] ++ [] ++ [] ++ [] = image
      simp only [List.append_nil]

/-- What a successful call announces and transfers. -/
lemma sent {t : List CardEvent} (run : Run (programUserImage debug image) t (.ok ())) :
    sizes t = [announcedWords image.length] ∧ transferred t = image := by
  have spec : (history _ _).wp (fun _ _ => True) (programUserImage debug image) (Sent image) [] := by
    rw [programUserImage_eq, World.wp_seq]
    refine wp_awaitIdle (fun _ _ _ => trivial) ?_ ?_ (fun h' e _ => nofun)
    · intro t seen
      exact wp_configure_sent (quiet_of_waits fun ev mem => waits_of_read (seen.reads ev mem))
    · intro t aborted
      exact wp_configure_sent (quiet_of_waits aborted.waits)
  exact (wp_run spec run).1 rfl

/-- On a card where every access succeeds and the port is idle, every image is accepted. -/
lemma accepts (debug : Bool) (image : List UInt8) :
    ∃ t, Run (programUserImage debug image) t (.ok ()) :=
  ⟨_, run_runWith (fun _ e => e.succeed 1) (programUserImage debug image) []⟩

/-- The announced size is the size sent, and images without a size are refused, exactly for the images
    whose length is a multiple of the word size that the Size register can count. -/
theorem announces_iff (debug : Bool) (image : List UInt8) :
    Announces debug image ↔ image.length % 4 = 0 ∧ image.length / 4 < 2 ^ 30 := by
  apply Iff.intro
  · intro announces
    obtain ⟨t, run⟩ := accepts debug image
    obtain ⟨n, _, fits, eq⟩ := announces.ok t run
    rw [(sent run).2] at eq
    exact hasSize_iff.mp ⟨n, fits, eq⟩
  · intro size
    refine ⟨fun t run => ?_, fun none => absurd (hasSize_iff.mpr size) none⟩
    obtain ⟨announced, all⟩ := sent run
    have exact : (announcedWords image.length).toNat = image.length / 4 :=
      UInt32.toNat_ofNat_of_lt' (Nat.lt_trans size.2 (by decide))
    refine ⟨announcedWords image.length, announced, by omega, ?_⟩
    rw [all, exact]
    omega

/-- One byte, announced as no word at all, and accepted. -/
theorem announces_one_byte :
    (∃ t, Run (programUserImage false [0]) t (.ok ()) ∧ sizes t = [0] ∧ transferred t = [0]) ∧
      ¬ HasSize ([0] : List UInt8).length := by
  obtain ⟨t, run⟩ := accepts false [0]
  obtain ⟨announced, all⟩ := sent run
  refine ⟨⟨t, run, announced, all⟩, fun size => ?_⟩
  exact absurd (hasSize_iff.mp size) (by decide)

end

end Warpshell.U55n
