import Mathlib.Tactic.Common
import InterceptingProxy.Call.Interceptor

set_option autoImplicit false

/-! # What isolation shows of a panic

`Shows` says what the interceptors before see of what an interceptor has done: a failure or a good
answer as it is, a panic as one failure, and a stream that panics up to the panic, with one failure
in its place as the last item. That is what `Outcome.isolate` makes of it (`shows_isolate`), and
nothing of it panics any more. -/

namespace InterceptingProxy

namespace MessageStream

/-- A stream that can be polled to its end. -/
def Quiet (stream : MessageStream) : Prop := ∀ p, Poll.panic p ∉ stream

theorem Quiet.nil : Quiet [] := by
  intro p hp
  cases hp

theorem quiet_cons_iff {poll : Poll} {rest : MessageStream} :
    Quiet (poll :: rest) ↔ (∀ p, poll ≠ .panic p) ∧ Quiet rest := by
  constructor
  · intro h
    refine ⟨fun p hp => h p ?_, fun p hp => h p (List.mem_cons_of_mem poll hp)⟩
    rw [hp]
    exact List.mem_cons_self
  · rintro ⟨hpoll, hrest⟩ p hp
    rcases List.mem_cons.1 hp with hp | hp
    · exact hpoll p hp.symm
    · exact hrest p hp

theorem guard_cons_of_quiet {poll : Poll} (h : ∀ p, poll ≠ .panic p) (rest : MessageStream) :
    guard (poll :: rest) = poll :: guard rest := by
  cases poll with
  | item i => rfl
  | note e => rfl
  | panic p => exact absurd rfl (h p)

/-- A stream without panics is left alone. -/
theorem guard_eq_self {stream : MessageStream} (h : stream.Quiet) : stream.guard = stream := by
  induction stream with
  | nil => rfl
  | cons poll rest ih =>
      obtain ⟨hpoll, hrest⟩ := quiet_cons_iff.1 h
      rw [guard_cons_of_quiet hpoll, ih hrest]

/-- A stream ends with the failure that stands for its first panic. -/
theorem guard_append_panic {before : MessageStream} (h : before.Quiet) (p : Panic)
    (after : MessageStream) :
    guard (before ++ .panic p :: after) = before ++ [.item (.error p.toStatus)] := by
  induction before with
  | nil => rfl
  | cons poll rest ih =>
      obtain ⟨hpoll, hrest⟩ := quiet_cons_iff.1 h
      rw [List.cons_append, guard_cons_of_quiet hpoll, ih hrest, List.cons_append]

theorem quiet_or_exists_panic (stream : MessageStream) :
    stream.Quiet ∨ ∃ before p after,
      stream = before ++ .panic p :: after ∧ MessageStream.Quiet before := by
  induction stream with
  | nil => exact .inl Quiet.nil
  | cons poll rest ih =>
      have hpoll : (∃ p, poll = .panic p) ∨ ∀ p, poll ≠ .panic p := by
        by_cases hp : ∃ p, poll = .panic p
        · exact .inl hp
        · exact .inr (not_exists.1 hp)
      rcases hpoll with ⟨p, rfl⟩ | hpoll
      · exact .inr ⟨[], p, rest, rfl, Quiet.nil⟩
      · rcases ih with hrest | ⟨before, p, after, rfl, hbefore⟩
        · exact .inl (quiet_cons_iff.2 ⟨hpoll, hrest⟩)
        · exact .inr ⟨poll :: before, p, after, rfl, quiet_cons_iff.2 ⟨hpoll, hbefore⟩⟩

end MessageStream

/-- What is seen of what an interceptor has done. -/
inductive Shows : Outcome → CallResult → Prop
  | failed (s : Status) : Shows (.returned (.error s)) (.error s)
  | answered (a : Answer) (h : a.stream.Quiet) : Shows (.returned (.ok a)) (.ok a)
  | panicked (p : Panic) :
      Shows (.panicked p) (.error (.internal ("proxy error: ".toList ++ p.message)))
  | streamPanicked (headers : Headers) (before : MessageStream) (p : Panic)
      (after : MessageStream) (h : before.Quiet) :
      Shows (.returned (.ok ⟨headers, before ++ .panic p :: after⟩))
        (.ok ⟨headers,
          before ++ [.item (.error (.internal ("proxy error: ".toList ++ p.message)))]⟩)

theorem shows_isolate (o : Outcome) : Shows o o.isolate := by
  cases o with
  | panicked p => exact .panicked p
  | returned result =>
      cases result with
      | error s => exact .failed s
      | ok a =>
          obtain ⟨headers, stream⟩ := a
          rcases stream.quiet_or_exists_panic with hquiet | ⟨before, p, after, rfl, hquiet⟩
          · have hself := MessageStream.guard_eq_self hquiet
            simp only [Outcome.isolate, hself]
            exact .answered ⟨headers, stream⟩ hquiet
          · have hguard := MessageStream.guard_append_panic hquiet p after
            simp only [Outcome.isolate, hguard]
            exact .streamPanicked headers before p after hquiet

/-- What is seen does not panic. -/
theorem Shows.quiet {o : Outcome} {a : Answer} (h : Shows o (.ok a)) : a.stream.Quiet := by
  cases h with
  | answered _ hquiet => exact hquiet
  | streamPanicked headers before p after hquiet =>
      intro q hq
      rcases List.mem_append.1 hq with hq | hq
      · exact hquiet q hq
      · cases List.mem_singleton.1 hq

end InterceptingProxy
