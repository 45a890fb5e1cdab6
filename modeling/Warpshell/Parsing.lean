import Mathlib.Tactic.Common

/-!
# Parsers that know their length

A parser takes tokens off the front of its input, or fails. `Reads eof n p` says that the parser `p`
works on the first `n` tokens only: when it succeeds, it took exactly these, whatever follows them;
and when it fails on an input that has them, the failure is not the end of the input `eof`, and again
does not depend on what follows. The lemmas are one for each way to build a parser. `Decodes` is the
same for a decoder that drops what it did not read.
-/

namespace Warpshell.Parsing

variable {τ ε α β : Type} {eof e : ε} {m n : Nat}

structure Reads (eof : ε) (n : Nat) (p : List τ → Except ε (α × List τ)) : Prop where
  ok : ∀ {input a rest}, p input = .ok (a, rest) →
    ∃ v, v.length = n ∧ input = v ++ rest ∧ ∀ s, p (v ++ s) = .ok (a, s)
  error : ∀ {input e}, n ≤ input.length → p input = .error e →
    e ≠ eof ∧ ∀ s, p (input.take n ++ s) = .error e

structure Decodes (eof : ε) (n : Nat) (f : List τ → Except ε α) : Prop where
  ok : ∀ {input a}, f input = .ok a → n ≤ input.length ∧ ∀ s, f (input.take n ++ s) = .ok a
  error : ∀ {input e}, n ≤ input.length → f input = .error e →
    e ≠ eof ∧ ∀ s, f (input.take n ++ s) = .error e

/-- A sequence succeeds in both of its halves. -/
lemma ok_of_bind {x : Except ε α} {k : α → Except ε β} {b : β} (made : (x >>= k) = .ok b) :
    ∃ a, x = .ok a ∧ k a = .ok b := by
  cases x with
  | ok a => exact ⟨a, rfl, made⟩
  | error e => cases made

/-- A sequence fails in its first half, or in what follows it. -/
lemma error_of_bind {x : Except ε α} {k : α → Except ε β} (failed : (x >>= k) = .error e) :
    x = .error e ∨ ∃ a, x = .ok a ∧ k a = .error e := by
  cases x with
  | ok a => exact .inr ⟨a, rfl, failed⟩
  | error e' =>
    cases failed
    exact .inl rfl

namespace Reads

/-- A parser that returns at once reads nothing. -/
lemma done {a : α} : Reads eof 0 (fun input : List τ => .ok (a, input)) := by
  refine ⟨fun read => ?_, fun _ read => ?_⟩
  · cases read
    exact ⟨[], rfl, rfl, fun s => rfl⟩
  · cases read

/-- A parser that fails at once, other than at the end of the input. -/
lemma fail (other : e ≠ eof) : Reads eof n (fun _ : List τ => (.error e : Except ε (α × List τ))) := by
  refine ⟨fun read => ?_, fun _ read => ?_⟩
  · cases read
  · cases read
    exact ⟨other, fun s => rfl⟩

/-- A parser, and then another that depends on what the first one returned. -/
lemma bind {p : List τ → Except ε (α × List τ)} {q : α → List τ → Except ε (β × List τ)}
    (hp : Reads eof m p) (hq : ∀ a, Reads eof n (q a)) :
    Reads eof (m + n) (fun input => p input >>= fun x => q x.1 x.2) := by
  refine ⟨fun {input b rest} read => ?_, fun {input e} long read => ?_⟩
  · obtain ⟨⟨a, mid⟩, first, second⟩ := ok_of_bind (x := p input) read
    obtain ⟨v, len, rfl, same⟩ := hp.ok first
    obtain ⟨w, len', rfl, same'⟩ := (hq a).ok second
    refine ⟨v ++ w, ?_, (List.append_assoc v w rest).symm, fun s => ?_⟩
    · rw [List.length_append, len, len']
    · show (p (v ++ w ++ s) >>= fun x => q x.1 x.2) = _
      rw [List.append_assoc, same]
      exact same' s
  · obtain first | ⟨⟨a, mid⟩, first, second⟩ := error_of_bind (x := p input) read
    · obtain ⟨other, same⟩ := hp.error (by omega) first
      refine ⟨other, fun s => ?_⟩
      show (p (input.take (m + n) ++ s) >>= fun x => q x.1 x.2) = _
      rw [List.take_add, List.append_assoc, same]
      rfl
    · -- The first parser took its `m` tokens, so the second one has its `n` left.
      obtain ⟨v, rfl, rfl, same⟩ := hp.ok first
      rw [List.length_append] at long
      have long' : n ≤ mid.length := by omega
      obtain ⟨other, same'⟩ := (hq a).error long' second
      refine ⟨other, fun s => ?_⟩
      show (p ((v ++ mid).take (v.length + n) ++ s) >>= fun x => q x.1 x.2) = _
      rw [List.take_length_add_append, List.append_assoc, same]
      exact same' s

/-- A conversion of what was read. -/
lemma convert {x : Except ε α} (f : α → β) (other : x ≠ .error eof) :
    Reads eof 0 (fun input : List τ => x >>= fun a => .ok (f a, input)) := by
  cases x with
  | ok a => exact done
  | error e => exact fail fun eq => other (congrArg Except.error eq)

/-- A parser whose rest is dropped. -/
lemma decodes {p : List τ → Except ε (α × List τ)} (hp : Reads eof n p) (f : α → β) :
    Decodes eof n (fun input => p input >>= fun x => .ok (f x.1)) := by
  refine ⟨fun {input b} read => ?_, fun {input e} long read => ?_⟩
  · obtain ⟨⟨a, rest⟩, first, made⟩ := ok_of_bind (x := p input) read
    cases made
    obtain ⟨v, rfl, rfl, same⟩ := hp.ok first
    refine ⟨by rw [List.length_append]; omega, fun s => ?_⟩
    show (p ((v ++ rest).take v.length ++ s) >>= fun x => _) = _
    rw [List.take_left, same]
    rfl
  · obtain first | ⟨_, _, made⟩ := error_of_bind (x := p input) read
    · obtain ⟨other, same⟩ := hp.error long first
      refine ⟨other, fun s => ?_⟩
      show (p (input.take n ++ s) >>= fun x => _) = _
      rw [same]
      rfl
    · cases made

/-- Of an input of just that length, nothing is left. -/
lemma rest_nil {p : List τ → Except ε (α × List τ)} (hp : Reads eof n p) {input rest : List τ} {a : α}
    (read : p input = .ok (a, rest)) (len : input.length = n) : rest = [] := by
  obtain ⟨v, len', rfl, _⟩ := hp.ok read
  rw [List.length_append] at len
  exact List.length_eq_zero_iff.mp (by omega)

end Reads

/-- What a decoder does depends on the first `n` tokens only. -/
lemma Decodes.take {f : List τ → Except ε α} (d : Decodes eof n f) {input : List τ}
    (long : n ≤ input.length) : f (input.take n) = f input := by
  cases read : f input with
  | ok a =>
    have same := (d.ok read).2 []
    rwa [List.append_nil] at same
  | error e =>
    have same := (d.error long read).2 []
    rwa [List.append_nil] at same

end Warpshell.Parsing
