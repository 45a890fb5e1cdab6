import Warpshell.Shells.Trace

/-!
# How far a reprogramming comes

`course` is the inversion lemma of `program_user_image`: a call does not get past the wait, or past
the block write of one of the firewalls, or else it goes on to write the Size register.
-/

namespace Warpshell.U55n
open Interaction Hbicap

/-- The write that blocks a firewall. -/
abbrev blockWrite (core : BaseParam) : Access :=
  .ctrlWriteU32 (firewallReg core .miSideSoftFaultControl) AxiFirewall.miBlockMask

/-- The write that announces an image. -/
abbrev sizeWrite (image : List UInt8) : Access :=
  .ctrlWriteU32 (hbicapReg .size) (announcedWords image.length)

def Blocks (e : Access) : Prop := e = blockWrite ctrlAxiFirewall ∨ e = blockWrite dmaAxiFirewall

instance : DecidablePred Blocks := fun _ => inferInstanceAs (Decidable (_ ∨ _))

/-- The wait for an idle port ended well. -/
inductive Idle (t : List CardEvent) : Prop where
  | seen : SeenIdle t → Idle t
  | aborted : Aborted t → Idle t

/-- The Size write was issued, behind blocked firewalls. -/
inductive Begun (image : List UInt8) : List CardEvent → Prop where
  | intro {t a rest} : Idle t → Never (fun ev => Blocks ev.1) rest → Begun image
      (t ++ [blocked ctrlAxiFirewall] ++ [blocked dmaAxiFirewall] ++ ⟨sizeWrite image, a⟩ :: rest)

/-- The result of a call, and how far it came. -/
inductive Course (image : List UInt8) : Outcome Error Unit → List CardEvent → Prop where
  | waited {e t} : (∀ ev ∈ t, Waits ev.1) → Course image (.err e) t
  | ctrl {e t err} : Idle t → Course image (.err e) (t ++ [⟨blockWrite ctrlAxiFirewall, .error err⟩])
  | dma {e t err} : Idle t → Course image (.err e)
      (t ++ [blocked ctrlAxiFirewall] ++ [⟨blockWrite dmaAxiFirewall, .error err⟩])
  | begun {r t} : Begun image t → Course image r t

section
variable {debug : Bool} {image : List UInt8} {h t : List CardEvent} {r : Outcome Error Unit}

/-- A wait that ended well is a wait. -/
lemma Idle.waits (i : Idle t) : ∀ ev ∈ t, Waits ev.1 := by
  cases i with
  | seen s => exact fun ev mem => waits_of_read (s.reads ev mem)
  | aborted a => exact a.waits

/-- The wait blocks no firewall. -/
lemma Waits.not_blocks {e : Access} (w : Waits e) : ¬ Blocks e := by
  intro b
  obtain eq | eq := b
  all_goals
    rw [eq] at w
    exact absurd w.1 (by decide)

lemma Idle.notMem_of_blocks {ev : CardEvent} (i : Idle t) (blocks : Blocks ev.1) : ev ∉ t :=
  fun mem => (i.waits ev mem).not_blocks blocks

/-- Only a call that goes on to the Size write has blocked the DMA firewall. -/
lemma Course.begun_of_blocked (c : Course image r t) (mem : blocked dmaAxiFirewall ∈ t) :
    Begun image t := by
  have ne : blockWrite dmaAxiFirewall ≠ blockWrite ctrlAxiFirewall := by decide
  have other : ∀ a, blocked dmaAxiFirewall ≠ ⟨blockWrite ctrlAxiFirewall, a⟩ :=
    fun a eq => ne (congrArg Sigma.fst eq)
  cases c with
  | waited waits => exact absurd (.inr rfl) (waits _ mem).not_blocks
  | @ctrl e s err idle =>
    obtain mem | mem := List.mem_append.mp mem
    · exact absurd mem (idle.notMem_of_blocks (.inr rfl))
    · exact absurd (List.mem_singleton.mp mem) (other _)
  | @dma e s err idle =>
    obtain mem | mem := List.mem_append.mp mem
    · obtain mem | mem := List.mem_append.mp mem
      · exact absurd mem (idle.notMem_of_blocks (.inr rfl))
      · exact absurd (List.mem_singleton.mp mem) (other _)
    · cases List.mem_singleton.mp mem
  | begun begun => exact begun

lemma Begun.append (b : Begun image h) (never : Never (fun ev => Blocks ev.1) t) :
    Begun image (h ++ t) := by
  cases b with
  | @intro t' a rest idle never' =>
    rw [List.append_assoc, List.cons_append]
    exact .intro idle (Never.append never' never)

lemma Begun.concat {e : Access} {a : e.Answer} (b : Begun image h) (other : ¬ Blocks e) :
    Begun image (h ++ [⟨e, a⟩]) :=
  b.append fun _ mem => List.mem_singleton.mp mem ▸ other

/-- After the wait, a call fails at a block write or gets to the Size write. -/
lemma wp_configure_course (idle : Idle h) :
    (history _ _).wp (fun _ _ => True) (configure image) (Course image) h := by
  rw [configure]
  apply step_write trivial (fun e => .ctrl idle)
  apply step_write trivial (fun e => .dma idle)
  have b₁ : ∀ a, Begun image (h ++ [blocked ctrlAxiFirewall] ++ [blocked dmaAxiFirewall] ++
      [⟨sizeWrite image, a⟩]) := fun a => .intro idle nofun
  apply step_write trivial (fun e => .begun (b₁ _))
  have dma : ∀ addr buf, ¬ Blocks (.dmaWrite addr buf) := fun _ _ => nofun
  apply step_dmaWrite trivial (fun e => .begun ((b₁ _).concat (dma _ _)))
  have b₂ : Begun image (_ ++ [imageWritten image]) := (b₁ (.ok ())).concat (dma _ _)
  have missed : ∀ {ms}, (∀ m ∈ ms, NotIdle m) → Begun image (_ ++ ms) :=
    fun miss => b₂.append fun ev mem => (waits_of_read (miss ev mem).read).not_blocks
  apply step_poll (fun _ => trivial) (fun ms miss _ => .begun (missed miss))
  intro ms v miss _ _
  have b₃ : Begun image (_ ++ [⟨.ctrlReadU32 (hbicapReg .status), .ok v⟩]) :=
    (missed miss).concat nofun
  -- The writes that unblock are no block writes, whatever is answered.
  apply step_write trivial (fun e => .begun (b₃.concat (by decide)))
  have b₄ : Begun image (_ ++ [faultCleared dmaAxiFirewall]) := b₃.concat (by decide)
  apply step_write trivial (fun e => .begun (b₄.concat (by decide)))
  have b₅ : Begun image (_ ++ [unblocked dmaAxiFirewall]) := b₄.concat (by decide)
  apply step_write trivial (fun e => .begun (b₅.concat (by decide)))
  have b₆ : Begun image (_ ++ [faultCleared ctrlAxiFirewall]) := b₅.concat (by decide)
  rw [World.wp_mapErr, history_write]
  exact ⟨trivial, fun r => .begun (b₆.concat (by decide))⟩

/-- Every run of `program_user_image` takes one of these courses. -/
theorem course (run : Run (programUserImage debug image) t r) : Course image r t := by
  have spec : (history _ _).wp (fun _ _ => True) (programUserImage debug image) (Course image) [] := by
    rw [programUserImage_eq, World.wp_seq]
    apply wp_awaitIdle (fun _ _ _ => trivial)
    · intro t seen
      exact wp_configure_course (.seen seen)
    · intro t aborted
      exact wp_configure_course (.aborted aborted)
    · intro h' e ⟨t, eq, waits⟩
      exact .waited (eq ▸ waits)
  exact (wp_run spec run).1

end

end Warpshell.U55n
