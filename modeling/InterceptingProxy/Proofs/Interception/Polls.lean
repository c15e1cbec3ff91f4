import Mathlib.Logic.Function.Iterate
import InterceptingProxy.Proofs.Interception.Isolation

set_option autoImplicit false

/-! # Isolation, poll by poll

Who reads a stream polls it: each poll notes something down and brings an item, a panic or the end
(`MessageStream.next`), and the one who polls can go on after any of them. `Guarded` says what the
polls of an isolated stream bring, compared with the polls of the stream inside, and `Isolated` what
becomes of a whole call. The main statement is `isolation_is_exact`: isolation makes one failure of
the first panic and changes nothing else, and isolating again changes nothing at all. -/

namespace InterceptingProxy

/-- The failure that is seen in place of a panic. -/
inductive StandsFor : Panic → Status → Prop
  | literal (m : Text) : StandsFor (.literal m) (.internal ("proxy error: ".toList ++ m))
  | formatted (m : Text) : StandsFor (.formatted m) (.internal ("proxy error: ".toList ++ m))
  | other : StandsFor .other (.internal "proxy error: unknown panic".toList)

theorem standsFor_toStatus (p : Panic) : StandsFor p p.toStatus := by
  cases p with
  | literal m => exact .literal m
  | formatted m => exact .formatted m
  | other => exact .other

namespace MessageStream

/-- What one poll brings. -/
inductive Brought where
  | item (i : Item)
  | panic (p : Panic)
  | ended

/-- One poll: what it notes down, what it brings, and the stream that can be polled again. -/
def next : MessageStream → List Entry × Brought × MessageStream
  | [] => ([], .ended, [])
  | .item i :: rest => ([], .item i, rest)
  | .panic p :: rest => ([], .panic p, rest)
  | .note e :: rest =>
    let (notes, brought, rest) := next rest
    (e :: notes, brought, rest)

/-- What the poll after `n` others notes down and brings. -/
def polled : Nat → MessageStream → List Entry × Brought
  | 0, stream => (stream.next.1, stream.next.2.1)
  | n + 1, stream => polled n stream.next.2.2

/-- The poll after `n` others panics, and none before does. -/
def FirstPanic (stream : MessageStream) (n : Nat) (p : Panic) : Prop :=
  (stream.polled n).2 = .panic p ∧ ∀ k < n, ∀ q, (stream.polled k).2 ≠ .panic q

/-- `seen` is polled as `script` is, up to its first panic. In place of that comes one failure, and
    after it the end, whatever `script` would still bring. -/
structure Guarded (script seen : MessageStream) : Prop where
  before : ∀ n, (∀ k ≤ n, ∀ p, (script.polled k).2 ≠ .panic p) →
    seen.polled n = script.polled n
  panicked : ∀ n p, script.FirstPanic n p →
    (∃ s, StandsFor p s ∧ seen.polled n = ((script.polled n).1, .item (.error s))) ∧
      ∀ k, n < k → seen.polled k = ([], .ended)

theorem polled_nil (n : Nat) : polled n [] = ([], .ended) := by
  induction n with
  | zero => rfl
  | succ n ih => exact ih

/-- A guarded stream passes a poll on that does not panic. -/
theorem next_guard_of_ne_panic {stream : MessageStream} (h : ∀ p, stream.next.2.1 ≠ .panic p) :
    stream.guard.next = (stream.next.1, stream.next.2.1, stream.next.2.2.guard) := by
  induction stream with
  | nil => rfl
  | cons poll rest ih =>
      cases poll with
      | item i => rfl
      | panic p => exact absurd rfl (h p)
      | note e => simp only [guard, next, ih h]

/-- A guarded stream has ended after a poll that panics. -/
theorem next_guard_of_panic {stream : MessageStream} {p : Panic} (h : stream.next.2.1 = .panic p) :
    stream.guard.next = (stream.next.1, .item (.error p.toStatus), []) := by
  induction stream with
  | nil => cases h
  | cons poll rest ih =>
      cases poll with
      | item i => cases h
      | panic q =>
          cases h
          rfl
      | note e => simp only [guard, next, ih h]

theorem polled_guard_of_ne_panic {stream : MessageStream} {n : Nat}
    (h : ∀ k ≤ n, ∀ p, (stream.polled k).2 ≠ .panic p) :
    stream.guard.polled n = stream.polled n := by
  induction n generalizing stream with
  | zero =>
      simp only [polled]
      rw [next_guard_of_ne_panic (h 0 (Nat.le_refl 0))]
  | succ n ih =>
      simp only [polled]
      rw [next_guard_of_ne_panic (h 0 (Nat.zero_le _))]
      exact ih fun k hk => h (k + 1) (Nat.succ_le_succ hk)

theorem polled_guard_of_firstPanic {stream : MessageStream} {n : Nat} {p : Panic}
    (h : stream.FirstPanic n p) :
    stream.guard.polled n = ((stream.polled n).1, .item (.error p.toStatus)) ∧
      ∀ k, n < k → stream.guard.polled k = ([], .ended) := by
  induction n generalizing stream with
  | zero =>
      have hguard := next_guard_of_panic h.1
      refine ⟨?_, fun k hk => ?_⟩
      · simp only [polled, hguard]
      · obtain ⟨k, rfl⟩ := Nat.exists_eq_succ_of_ne_zero (Nat.ne_of_gt hk)
        simp only [polled, hguard]
        exact polled_nil k
  | succ n ih =>
      have hguard := next_guard_of_ne_panic (h.2 0 (Nat.succ_pos n))
      have hrest : FirstPanic stream.next.2.2 n p :=
        ⟨h.1, fun k hk => h.2 (k + 1) (Nat.succ_lt_succ hk)⟩
      obtain ⟨hpanic, hend⟩ := ih hrest
      refine ⟨?_, fun k hk => ?_⟩
      · simp only [polled, hguard]
        exact hpanic
      · obtain ⟨k, rfl⟩ := Nat.exists_eq_succ_of_ne_zero (Nat.ne_of_gt (Nat.zero_lt_of_lt hk))
        simp only [polled, hguard]
        exact hend k (Nat.lt_of_succ_lt_succ hk)

theorem guarded_guard (stream : MessageStream) : Guarded stream stream.guard where
  before _ h := polled_guard_of_ne_panic h
  panicked _ p h :=
    have ⟨hpanic, hend⟩ := polled_guard_of_firstPanic h
    ⟨⟨p.toStatus, standsFor_toStatus p, hpanic⟩, hend⟩

end MessageStream

/-! ## Calls -/

/-- What becomes of a call once it is isolated. -/
inductive Isolated : Outcome → CallResult → Prop
  | failed (s : Status) : Isolated (.returned (.error s)) (.error s)
  | panicked (p : Panic) (s : Status) (h : StandsFor p s) : Isolated (.panicked p) (.error s)
  | answered (headers : Headers) (script seen : MessageStream) (h : script.Guarded seen) :
      Isolated (.returned (.ok ⟨headers, script⟩)) (.ok ⟨headers, seen⟩)

theorem isolated_isolate (o : Outcome) : Isolated o o.isolate := by
  cases o with
  | panicked p => exact .panicked p p.toStatus (standsFor_toStatus p)
  | returned result =>
      cases result with
      | error s => exact .failed s
      | ok a => exact .answered a.headers a.stream a.stream.guard a.stream.guarded_guard

/-- An isolated call does not panic, so there is nothing left to isolate. -/
theorem isolate_isolate (o : Outcome) : (Outcome.returned o.isolate).isolate = o.isolate := by
  cases hresult : o.isolate with
  | error s => rfl
  | ok a =>
      have hshows := shows_isolate o
      rw [hresult] at hshows
      have hself := MessageStream.guard_eq_self hshows.quiet
      simp only [Outcome.isolate, hself]

/-- **Isolation turns the first panic into one failure and changes nothing else**, and it makes no
    difference how often it is done. -/
theorem isolation_is_exact (o : Outcome) :
    Isolated o o.isolate ∧
      ∀ n, (fun result => (Outcome.returned result).isolate)^[n] o.isolate = o.isolate :=
  ⟨isolated_isolate o, fun n => Function.iterate_fixed (isolate_isolate o) n⟩

end InterceptingProxy
