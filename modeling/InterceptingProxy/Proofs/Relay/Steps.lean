import Mathlib.Tactic.Common
import InterceptingProxy.Call.Relay

set_option autoImplicit false

/-! # The steps of a relayed call

`CallRelay.Moves` says once what a step of one of the parties can do, guards included, with one
constructor per case of `CallRelay.step?` (`Moves.of_step?`). Every invariant of relayed calls is a
case analysis on it.

A run is a list of steps in any order, `CallRelay.follow?`. Whatever holds after every step of every
run holds of a relayed call, because `CallRelay.run` takes one of these orders
(`CallRelay.exists_follow?_run`). -/

namespace InterceptingProxy

namespace Backward

/-- Whether the backward task still runs. -/
def working : Backward → Bool
  | .idle | .holding _ | .concluding _ => true
  | .absent | .returned | .aborted => false

end Backward

namespace CallRelay

/-! ## Steps -/

/-- What each step does to a call. -/
inductive Moves (r : CallRelay) : RelayStep → CallRelay → Prop
  | pollEnd (hf : r.forwarder = .idle) (hi : r.inbound = []) :
      Moves r .poll { r with forwarder := .returned, exhausted := true }
  | pollMessage (m : Bytes) (rest : List Item) (hf : r.forwarder = .idle)
      (hi : r.inbound = .ok m :: rest) :
      Moves r .poll { r with forwarder := .holding m, inbound := rest, polled := r.polled + 1 }
  | pollFailure (s : Status) (rest : List Item) (hf : r.forwarder = .idle)
      (hi : r.inbound = .error s :: rest) :
      Moves r .poll { r with forwarder := .reporting s, inbound := rest, polled := r.polled + 1 }
  | push (m : Bytes) (hf : r.forwarder = .holding m) (hroom : r.outbound.length < capacity) :
      Moves r .push { r with forwarder := .idle, outbound := r.outbound ++ [m] }
  | refuse (m : Bytes) (hf : r.forwarder = .holding m) (hx : r.exchange ≠ .running) :
      Moves r .refuse { r with forwarder := .returned }
  | report (s : Status) (hf : r.forwarder = .reporting s) :
      Moves r .report { r with forwarder := .returned, failure := some s }
  | transmit (m : Bytes) (rest : List Bytes) (hx : r.exchange = .running)
      (ho : r.outbound = m :: rest) :
      Moves r .transmit { r with outbound := rest, received := r.received ++ [m] }
  | halfClose (hx : r.exchange = .running) (ho : r.outbound = []) (hs : r.sending = false)
      (hh : r.halfClosed = false) :
      Moves r .halfClose { r with halfClosed := true }
  | answerFailed (s : Status) (ha : r.answer = none) (hx : r.exchange = .running)
      (hr : r.reply r.received = .failed s) :
      Moves r .answer (r.fail .over s)
  | answered (headers : Headers) (messages : List Bytes) (ending : Ending) (ha : r.answer = none)
      (hx : r.exchange = .running) (hr : r.reply r.received = .answered headers messages ending) :
      Moves r .answer { r with
        answer := some (.ok headers), coming := messages, ending, backward := .idle,
        arbiter := .waiting }
  | giveUp (s : Status) (ha : r.answer = none) (hx : r.exchange = .running)
      (hf : r.failure = some s) :
      Moves r .giveUp (r.fail .cancelled (callerFailure s))
  | receive (m : Bytes) (rest : List Bytes) (hb : r.backward = .idle) (hc : r.coming = m :: rest) :
      Moves r .receive { r with backward := .holding m, coming := rest }
  | receiveEnd (trailers : Headers) (hb : r.backward = .idle) (hc : r.coming = [])
      (he : r.ending = .finished trailers) :
      Moves r .receive { r with backward := .concluding (.finished trailers) }
  | receiveFailure (s : Status) (hb : r.backward = .idle) (hc : r.coming = [])
      (he : r.ending = .failed s) :
      Moves r .receive { r with backward := .concluding (.failed s) }
  | deliverGone (m : Bytes) (hb : r.backward = .holding m) (hg : r.callerGone = true) :
      Moves r .deliver { r with backward := .concluding .callerGone }
  | deliver (m : Bytes) (hb : r.backward = .holding m) (hg : r.callerGone = false)
      (hroom : r.responses.length < capacity) :
      Moves r .deliver { r with backward := .idle, responses := r.responses ++ [.ok m] }
  | conclude (c : Conclusion) (exchange : Exchange) (hb : r.backward = .concluding c)
      (hx : exchange ≠ .running) :
      Moves r .conclude { r with backward := .returned, conclusion := some c, exchange }
  | heedFailure (s : Status) (ha : r.arbiter = .waiting) (hf : r.failure = some s) :
      Moves r .heedFailure { r with arbiter := .announcing (callerFailure s), failure := none }
  | heedStatus (c : Conclusion) (s : Status) (ha : r.arbiter = .waiting)
      (hc : r.conclusion = some c) (hs : lastStatus? c = some s) :
      Moves r .heedConclusion { r with arbiter := .announcing s, conclusion := none }
  | heedEnd (c : Conclusion) (ha : r.arbiter = .waiting) (hc : r.conclusion = some c)
      (hs : lastStatus? c = none) :
      Moves r .heedConclusion { r with arbiter := .returned, conclusion := none }
  | heedCaller (ha : r.arbiter = .waiting) (hg : r.callerGone = true) :
      Moves r .heedCaller { r with arbiter := .returned }
  | announceGone (s : Status) (ha : r.arbiter = .announcing s) (hg : r.callerGone = true) :
      Moves r .announce { r with arbiter := .returned }
  | announce (s : Status) (ha : r.arbiter = .announcing s) (hg : r.callerGone = false)
      (hroom : r.responses.length < capacity) :
      Moves r .announce { r with arbiter := .returned, responses := r.responses ++ [.error s] }
  | abortForwarder (ha : r.arbiter = .returned) (hs : r.sending = true) :
      Moves r .abortForwarder { r with forwarder := .aborted }
  | abortBackward (exchange : Exchange) (ha : r.arbiter = .returned)
      (hb : r.backward.working = true) (hx : exchange ≠ .running) :
      Moves r .abortBackward { r with backward := .aborted, exchange }
  | read (i : Item) (rest : List Item) (hg : r.callerGone = false) (hr : r.responses = i :: rest) :
      Moves r .read { r with responses := rest, read := r.read ++ [i] }
  | leaveAnswered (a : Except Status Headers) (ha : r.answer = some a) (hg : r.callerGone = false) :
      Moves r .leave { r with callerGone := true }
  | leaveUnanswered (ha : r.answer = none) (hg : r.callerGone = false) :
      Moves r .leave { r with callerGone := true, forwarder := .aborted, exchange := .cancelled }

theorem Moves.of_step? {r r' : CallRelay} {e : RelayStep} (h : r.step? e = some r') :
    Moves r e r' := by
  cases e with
  | poll =>
      simp only [step?] at h
      split at h
      · next hf hi => cases h; exact .pollEnd hf hi
      · next m rest hf hi => cases h; exact .pollMessage m rest hf hi
      · next s rest hf hi => cases h; exact .pollFailure s rest hf hi
      · cases h
  | push =>
      simp only [step?] at h
      split at h
      · next m hf =>
          obtain ⟨hroom, ⟨⟩⟩ := Option.ite_none_right_eq_some.1 h
          exact .push m hf hroom
      · cases h
  | refuse =>
      simp only [step?] at h
      split at h
      · next m hf =>
          obtain ⟨hx, ⟨⟩⟩ := Option.ite_none_right_eq_some.1 h
          exact .refuse m hf hx
      · cases h
  | report =>
      simp only [step?] at h
      split at h
      · next s hf => cases h; exact .report s hf
      · cases h
  | transmit =>
      simp only [step?] at h
      split at h
      · next m rest hx ho => cases h; exact .transmit m rest hx ho
      · cases h
  | halfClose =>
      simp only [step?] at h
      obtain ⟨⟨hx, ho, hs, hh⟩, ⟨⟩⟩ := Option.ite_none_right_eq_some.1 h
      exact .halfClose hx (List.isEmpty_iff.1 ho) (by simpa using hs) (by simpa using hh)
  | answer =>
      simp only [step?] at h
      split at h
      · next ha hx =>
          split at h
          · cases h
          · next s hr => cases h; exact .answerFailed s ha hx hr
          · next headers messages ending hr =>
              cases h; exact .answered headers messages ending ha hx hr
      · cases h
  | giveUp =>
      simp only [step?] at h
      split at h
      · next s ha hx hf => cases h; exact .giveUp s ha hx hf
      · cases h
  | receive =>
      simp only [step?] at h
      split at h
      · next m rest hb hc => cases h; exact .receive m rest hb hc
      · next trailers hb hc he => cases h; exact .receiveEnd trailers hb hc he
      · next s hb hc he => cases h; exact .receiveFailure s hb hc he
      · cases h
  | deliver =>
      simp only [step?] at h
      split at h
      · next m hb =>
          split at h
          · next hg => cases h; exact .deliverGone m hb hg
          · next hg =>
              obtain ⟨hroom, ⟨⟩⟩ := Option.ite_none_right_eq_some.1 h
              exact .deliver m hb (Bool.eq_false_iff.2 hg) hroom
      · cases h
  | conclude =>
      simp only [step?] at h
      split at h
      · next c hb =>
          cases h
          exact .conclude c _ hb (by cases c <;> exact Exchange.noConfusion)
      · cases h
  | heedFailure =>
      simp only [step?] at h
      split at h
      · next s ha hf => cases h; exact .heedFailure s ha hf
      · cases h
  | heedConclusion =>
      simp only [step?] at h
      split at h
      · next c ha hc =>
          split at h
          · next s hs => cases h; exact .heedStatus c s ha hc hs
          · next hs => cases h; exact .heedEnd c ha hc hs
      · cases h
  | heedCaller =>
      simp only [step?] at h
      split at h
      · next ha =>
          obtain ⟨hg, ⟨⟩⟩ := Option.ite_none_right_eq_some.1 h
          exact .heedCaller ha hg
      · cases h
  | announce =>
      simp only [step?] at h
      split at h
      · next s ha =>
          split at h
          · next hg => cases h; exact .announceGone s ha hg
          · next hg =>
              obtain ⟨hroom, ⟨⟩⟩ := Option.ite_none_right_eq_some.1 h
              exact .announce s ha (Bool.eq_false_iff.2 hg) hroom
      · cases h
  | abortForwarder =>
      simp only [step?] at h
      split at h
      · next ha =>
          obtain ⟨hs, ⟨⟩⟩ := Option.ite_none_right_eq_some.1 h
          exact .abortForwarder ha hs
      · cases h
  | abortBackward =>
      have hover :
          (if r.exchange = .running then .cancelled else r.exchange) ≠ Exchange.running := by
        split
        · exact Exchange.noConfusion
        · next hx => exact hx
      simp only [step?] at h
      split at h
      · next ha hb => cases h; exact .abortBackward _ ha (by rw [hb]; rfl) hover
      · next ha hb => cases h; exact .abortBackward _ ha (by rw [hb]; rfl) hover
      · next ha hb => cases h; exact .abortBackward _ ha (by rw [hb]; rfl) hover
      · cases h
  | read =>
      simp only [step?] at h
      split at h
      · next i rest hg hr => cases h; exact .read i rest hg hr
      · cases h
  | leave =>
      simp only [step?] at h
      split at h
      · cases h
      · next hg =>
          split at h
          · next a ha => cases h; exact .leaveAnswered a ha (Bool.eq_false_iff.2 hg)
          · next ha => cases h; exact .leaveUnanswered ha (Bool.eq_false_iff.2 hg)

/-! ## Runs -/

/-- A call before its first step. -/
def opening (items : List Item) (reply : List Bytes → Reply) : CallRelay :=
  { inbound := items, reply }

/-- Takes the given steps in their order; `none` if one of them cannot be taken. -/
def follow? (r : CallRelay) : List RelayStep → Option CallRelay
  | [] => some r
  | e :: rest => (r.step? e).bind (·.follow? rest)

theorem follow?_append (r : CallRelay) (first second : List RelayStep) :
    r.follow? (first ++ second) = (r.follow? first).bind (·.follow? second) := by
  induction first generalizing r with
  | nil => rfl
  | cons e rest ih =>
      simp only [List.cons_append, follow?, Option.bind_assoc]
      exact congrArg _ (funext ih)

/-- What holds at the start and is kept by every step holds after every run. The property may
    speak of the steps taken so far. -/
theorem follow?_induction {P : List RelayStep → CallRelay → Prop} {r r' : CallRelay}
    {steps : List RelayStep} (start : P [] r)
    (step : ∀ done r e r', P done r → Moves r e r' → P (done ++ [e]) r')
    (h : r.follow? steps = some r') : P steps r' := by
  -- the induction is on the steps to come, behind those that were taken
  suffices hrest : ∀ rest done r, P done r → r.follow? rest = some r' → P (done ++ rest) r' from
    hrest steps [] r start h
  intro rest
  induction rest with
  | nil =>
      intro done r hr h
      cases h
      simpa using hr
  | cons e rest ih =>
      intro done r hr h
      obtain ⟨next, hstep, hrest⟩ := Option.bind_eq_some_iff.1 h
      have hnext : P ((done ++ [e]) ++ rest) r' :=
        ih (done ++ [e]) next (step done r e next hr (.of_step? hstep)) hrest
      simpa using hnext

theorem exists_step?_of_next? {p : Plan} {r r' : CallRelay} (h : r.next? p = some r') :
    ∃ e, r.step? e = some r' := by
  obtain ⟨e, _, he⟩ := List.exists_of_findSome?_eq_some h
  exact ⟨e, (Option.ite_none_right_eq_some.1 he).2⟩

/-- **A relayed call takes its steps in one of the orders that runs allow.** -/
theorem exists_follow?_run (p : Plan) (r : CallRelay) :
    ∃ steps, r.follow? steps = some (r.run p) := by
  unfold run
  generalize r.fuel p = n
  induction n generalizing r with
  | zero => exact ⟨[], rfl⟩
  | succ n ih =>
      unfold runFor
      split
      · next next hnext =>
          obtain ⟨e, he⟩ := exists_step?_of_next? hnext
          obtain ⟨steps, hsteps⟩ := ih next
          exact ⟨e :: steps, by simp only [follow?, he, Option.bind_some, hsteps]⟩
      · exact ⟨[], rfl⟩

end CallRelay

end InterceptingProxy
