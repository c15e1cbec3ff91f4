import Mathlib.Tactic.Common
import InterceptingProxy.Proofs.Intake.Sniffing

set_option autoImplicit false

/-! # A wrapper is peeked at once

The one peek that a wrapper allows depends on how many bytes are asked for and on what arrives
before the end or the first failure, and on nothing else (`Looked`): neither on how the stream is
cut into chunks nor on where the wrappers underneath hold the bytes. What it leaves in the buffer is
what it took from the connection inside.

After it the wrapper counts as peeked (`Peeked`), as does one that was given a prefix. It stays so
whatever is read or written through it, and refuses every other peek. The main statement is
`peek_is_exact`. -/

namespace InterceptingProxy.Connection

/-! ## The first peek -/

/-- What a peek at `n` bytes returns and leaves in the buffer where the bytes `d` arrive before the
    end or the given failure. -/
inductive Looked (n : Nat) (test : Bytes → Bool) (d : Bytes) :
    Option IoError → Except PeekError Bool → Bytes → Prop
  | full {failure : Option IoError} (h : n ≤ d.length) :
      Looked n test d failure (.ok (test (d.take n))) (d.take n)
  | ended (h : d.length < n) : Looked n test d none (.error (.shortRead n d.length)) d
  | failed {e : IoError} (h : d.length < n) : Looked n test d (some e) (.error (.io e)) d

theorem buffered_peek_forPeeking (n : Nat) (test : Bytes → Bool) (inner : Connection) :
    (inner.forPeeking.peek n test).2.buffered = inner.arriving.take n :=
  (fill_eq n n inner (Nat.le_refl n)).1

/-- What is in the buffer after a peek is what the connection inside has no longer. -/
theorem buffered_append_remaining (n : Nat) (test : Bytes → Bool) (inner : Connection) :
    (inner.forPeeking.peek n test).2.buffered ++
      (inner.forPeeking.peek n test).2.unwrap.remaining = inner.remaining :=
  fill_append_remaining n n inner

theorem looked_peek_forPeeking (n : Nat) (test : Bytes → Bool) (inner : Connection) :
    Looked n test inner.arriving inner.failure? (inner.forPeeking.peek n test).1
      (inner.forPeeking.peek n test).2.buffered := by
  rw [buffered_peek_forPeeking]
  by_cases hn : n ≤ inner.arriving.length
  · obtain ⟨held, hpeek, -⟩ := peek_of_le test hn
    rw [hpeek]
    exact .full hn
  · have hshort : inner.arriving.length < n := Nat.lt_of_not_le hn
    rw [List.take_of_length_le (Nat.le_of_lt hshort)]
    cases hfailure : inner.failure? with
    | none =>
        obtain ⟨held, hpeek, -⟩ := peek_of_ended test hshort hfailure
        rw [hpeek]
        exact .ended hshort
    | some e =>
        obtain ⟨held, hpeek⟩ := peek_of_failed test hshort hfailure
        rw [hpeek]
        exact .failed hshort

/-! ## Later peeks -/

/-- The connection once its owner has read, peeked and written. -/
def used (c : Connection) (steps : List (WriteStep ⊕ ReadStep)) : Connection :=
  (runSteps (eitherStep WriteStep.onConnection ReadStep.onConnection) steps c).2

/-- The outermost wrapper allows no peek any more. -/
def Peeked (c : Connection) : Prop := ∃ inner buffer, c = .peekable inner true buffer

theorem peeked_peek_forPeeking (n : Nat) (test : Bytes → Bool) (inner : Connection) :
    (inner.forPeeking.peek n test).2.Peeked := ⟨_, _, rfl⟩

theorem peeked_withPrefix (inner : Connection) (replayed : Bytes) :
    (inner.withPrefix replayed).Peeked := ⟨_, _, rfl⟩

namespace Peeked

variable {c : Connection}

theorem peek_eq (h : c.Peeked) (n : Nat) (test : Bytes → Bool) :
    c.peek n test = (.error .alreadyPeeked, c) := by
  obtain ⟨inner, buffer, rfl⟩ := h
  rfl

theorem read (h : c.Peeked) (n : Nat) : (c.read n).2.Peeked := by
  obtain ⟨inner, buffer, rfl⟩ := h
  rw [Connection.read]
  split
  · exact ⟨_, _, rfl⟩
  · exact ⟨_, _, rfl⟩

theorem withSink (h : c.Peeked) (s : Sink) : (c.withSink s).Peeked := by
  obtain ⟨inner, buffer, rfl⟩ := h
  exact ⟨_, _, rfl⟩

theorem step (h : c.Peeked) (step : WriteStep ⊕ ReadStep) :
    (eitherStep WriteStep.onConnection ReadStep.onConnection step c).2.Peeked := by
  cases step with
  | inl w =>
      rw [eitherStep, w.onConnection_eq]
      exact h.withSink _
  | inr r =>
      cases r with
      | peek n test =>
          rw [eitherStep, ReadStep.onConnection, h.peek_eq]
          exact h
      | read n => exact h.read n

theorem used (h : c.Peeked) (steps : List (WriteStep ⊕ ReadStep)) : (c.used steps).Peeked := by
  induction steps generalizing c with
  | nil => exact h
  | cons first rest ih => exact ih (h.step first)

end Peeked

/-! ## Any number of steps -/

/-- Steps without a peek. A read is given by the size of its buffer. -/
def withoutPeek (steps : List (WriteStep ⊕ Nat)) : List (WriteStep ⊕ ReadStep) :=
  steps.map (Sum.map id ReadStep.read)

/-- As long as nobody peeks, a wrapper that may be peeked at stays one. -/
theorem exists_used_forPeeking (inner : Connection) (steps : List (WriteStep ⊕ Nat)) :
    ∃ inner' : Connection, inner.forPeeking.used (withoutPeek steps) = inner'.forPeeking := by
  induction steps generalizing inner with
  | nil => exact ⟨inner, rfl⟩
  | cons first rest ih =>
      cases first with
      | inl w =>
          have hafter : (w.onConnection inner.forPeeking).2 =
              (inner.withSink (w.onSink inner.stream.sink).2).forPeeking :=
            congrArg Prod.snd (w.onConnection_eq inner.forPeeking)
          have hused : inner.forPeeking.used (withoutPeek (.inl w :: rest)) =
              (w.onConnection inner.forPeeking).2.used (withoutPeek rest) := rfl
          rw [hused, hafter]
          exact ih _
      | inr n => exact ih (inner.read n).2

/-- **A peek is exact, and there is only one.** At a wrapper that was read and written through, but
    not peeked at, it returns what `Looked` says, and the bytes that it leaves in the buffer are the
    ones that it took from the connection inside. Every later peek is refused and changes nothing,
    and so is every peek at a wrapper that was given a prefix. -/
theorem peek_is_exact (inner : Connection) :
    (∀ earlier n test,
      let wrapper := inner.forPeeking.used (withoutPeek earlier)
      let (result, after) := wrapper.peek n test
      Looked n test wrapper.unwrap.arriving wrapper.unwrap.failure? result after.buffered ∧
        after.buffered ++ after.unwrap.remaining = wrapper.unwrap.remaining ∧
        ∀ later m test', (after.used later).peek m test' =
          (.error .alreadyPeeked, after.used later)) ∧
    ∀ replayed later m test, ((inner.withPrefix replayed).used later).peek m test =
      (.error .alreadyPeeked, (inner.withPrefix replayed).used later) := by
  refine ⟨fun earlier n test => ?_, fun replayed later => ?_⟩
  · obtain ⟨inner', hwrapper⟩ := exists_used_forPeeking inner earlier
    rw [hwrapper]
    refine ⟨looked_peek_forPeeking n test inner', buffered_append_remaining n test inner', ?_⟩
    exact fun later => ((peeked_peek_forPeeking n test inner').used later).peek_eq
  · exact ((peeked_withPrefix inner replayed).used later).peek_eq

end InterceptingProxy.Connection
