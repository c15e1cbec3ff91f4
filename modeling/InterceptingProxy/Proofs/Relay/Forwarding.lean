import InterceptingProxy.Proofs.Relay.Steps

set_option autoImplicit false

/-! # From the caller to the destination

The forwarder passes on the messages before the first failure of the caller's stream, `leading`, and
stops there. `Forwarding` is the invariant of that direction: what the destination has received,
what waits in the outbound channel, what the forwarder holds and what the stream has left make up
these messages, until the forwarder is gone.

The forwarder ends the request by going, whatever made it go. So a destination that has seen the end
of the request has seen a complete one exactly if the forwarder neither reported a failure nor was
aborted (`CallRelay.complete_request_iff`), and for every failing stream there is an order of the
steps in which the destination takes what came before the failure for a complete request. -/

namespace InterceptingProxy

/-! ## The messages before the first failure -/

/-- The messages before the first failure. -/
def leading : List Item → List Bytes
  | .ok m :: rest => m :: leading rest
  | _ => []

/-- The first failure. -/
def firstFailure? : List Item → Option Status
  | [] => none
  | .ok _ :: rest => firstFailure? rest
  | .error s :: _ => some s

@[simp] theorem leading_nil : leading [] = [] := rfl

@[simp] theorem leading_ok (m : Bytes) (rest : List Item) :
    leading (.ok m :: rest) = m :: leading rest := rfl

@[simp] theorem leading_error (s : Status) (rest : List Item) :
    leading (.error s :: rest) = [] := rfl

@[simp] theorem firstFailure?_nil : firstFailure? [] = none := rfl

@[simp] theorem firstFailure?_ok (m : Bytes) (rest : List Item) :
    firstFailure? (.ok m :: rest) = firstFailure? rest := rfl

@[simp] theorem firstFailure?_error (s : Status) (rest : List Item) :
    firstFailure? (.error s :: rest) = some s := rfl

theorem firstFailure?_append (first second : List Item) :
    firstFailure? (first ++ second) = (firstFailure? first).or (firstFailure? second) := by
  induction first with
  | nil => rfl
  | cons i rest ih =>
      cases i with
      | ok m => exact ih
      | error s => rfl

theorem leading_append_of_clean {first : List Item} (h : firstFailure? first = none)
    (second : List Item) : leading (first ++ second) = leading first ++ leading second := by
  induction first with
  | nil => rfl
  | cons i rest ih =>
      cases i with
      | ok m => exact congrArg (m :: ·) (ih h)
      | error s => cases h

theorem leading_append_of_failed {first : List Item} {s : Status}
    (h : firstFailure? first = some s) (second : List Item) :
    leading (first ++ second) = leading first := by
  induction first with
  | nil => cases h
  | cons i rest ih =>
      cases i with
      | ok m => exact congrArg (m :: ·) (ih h)
      | error s => rfl

/-- A stream without failure is its messages. -/
theorem eq_map_leading_of_clean {items : List Item} (h : firstFailure? items = none) :
    items = (leading items).map .ok := by
  induction items with
  | nil => rfl
  | cons i rest ih =>
      cases i with
      | ok m => exact congrArg (.ok m :: ·) (ih h)
      | error s => cases h

namespace CallRelay

/-! ## The invariant -/

/-- What has left the forwarder for the destination. -/
def passed (r : CallRelay) : List Bytes := r.received ++ r.outbound

/-- How the messages that were passed on and the rest of the stream make up the caller's. -/
def Forwards (items : List Item) (passed : List Bytes) (inbound : List Item) : Forwarder → Prop
  | .idle =>
    passed ++ leading inbound = leading items ∧ firstFailure? inbound = firstFailure? items
  | .holding m =>
    passed ++ m :: leading inbound = leading items ∧ firstFailure? inbound = firstFailure? items
  | .reporting s => passed = leading items ∧ firstFailure? items = some s
  | .returned | .aborted => passed <+: leading items

theorem Forwards.isPrefix {items : List Item} {passed : List Bytes} {inbound : List Item}
    {f : Forwarder} (h : Forwards items passed inbound f) : passed <+: leading items := by
  cases f with
  | idle => exact ⟨_, h.1⟩
  | holding m => exact ⟨_, h.1⟩
  | reporting s => exact ⟨[], by simpa using h.1⟩
  | returned => exact h
  | aborted => exact h

/-- What every step keeps of the way from the caller to the destination. -/
structure Forwarding (items : List Item) (r : CallRelay) : Prop where
  forwarder : Forwards items r.passed r.inbound r.forwarder
  failure : ∀ s, r.failure = some s → firstFailure? items = some s
  exhausted : r.exhausted = true →
    r.sending = false ∧ r.passed = leading items ∧ firstFailure? items = none

theorem Forwarding.opening (items : List Item) (reply : List Bytes → Reply) :
    Forwarding items (opening items reply) where
  forwarder := ⟨rfl, rfl⟩
  failure _ h := by cases h
  exhausted h := by cases h

/-- A forwarder that still sends has not found the end of the stream. -/
theorem Forwarding.not_exhausted {items : List Item} {r : CallRelay} (h : Forwarding items r)
    (hs : r.sending = true) : r.exhausted = false := by
  refine Bool.eq_false_iff.2 fun he => ?_
  rw [(h.exhausted he).1] at hs
  cases hs

/-- The invariant speaks of the caller's side only. -/
theorem Forwarding.frame {items : List Item} {r r' : CallRelay} (h : Forwarding items r)
    (hinbound : r'.inbound = r.inbound) (hforwarder : r'.forwarder = r.forwarder)
    (hpassed : r'.passed = r.passed) (hfailure : ∀ s, r'.failure = some s → r.failure = some s)
    (hexhausted : r'.exhausted = r.exhausted) : Forwarding items r' where
  forwarder := by rw [hpassed, hinbound, hforwarder]; exact h.forwarder
  failure s hs := h.failure s (hfailure s hs)
  exhausted he := by
    have hsending : r'.sending = r.sending := by rw [sending, hforwarder, sending]
    rw [hsending, hpassed]
    exact h.exhausted (hexhausted ▸ he)

/-- A forwarder that is stopped has passed on a part. -/
theorem Forwarding.stop {items : List Item} {r r' : CallRelay} (h : Forwarding items r)
    (hforwarder : r'.forwarder = .aborted ∨ r'.forwarder = .returned)
    (hpassed : r'.passed = r.passed) (hfailure : r'.failure = r.failure)
    (hexhausted : r'.exhausted = r.exhausted) : Forwarding items r' where
  forwarder := by
    rw [hpassed]
    rcases hforwarder with hf | hf <;> rw [hf] <;> exact h.forwarder.isPrefix
  failure s hs := h.failure s (hfailure ▸ hs)
  exhausted he := by
    have hsending : r'.sending = false := by
      rcases hforwarder with hf | hf <;> rw [sending, hf]
    rw [hpassed]
    exact ⟨hsending, (h.exhausted (hexhausted ▸ he)).2⟩

theorem Forwarding.step {items : List Item} {r r' : CallRelay} {e : RelayStep}
    (h : Forwarding items r) (hm : Moves r e r') : Forwarding items r' := by
  -- a step of the forwarder leads from one clause of `Forwards` to the next
  have hstate := h.forwarder
  cases hm with
  | pollEnd hf hi =>
      rw [hf, hi] at hstate
      obtain ⟨hpassed, hclean⟩ := hstate
      rw [leading_nil, List.append_nil] at hpassed
      exact
        { forwarder := ⟨[], by rw [List.append_nil]; exact hpassed⟩
          failure := h.failure
          exhausted := fun _ => ⟨rfl, hpassed, hclean.symm⟩ }
  | pollMessage m rest hf hi =>
      have he : r.exhausted = false := h.not_exhausted (by rw [sending, hf])
      rw [hf, hi] at hstate
      exact
        { forwarder := hstate
          failure := h.failure
          exhausted := fun ht => by rw [he] at ht; cases ht }
  | pollFailure s rest hf hi =>
      have he : r.exhausted = false := h.not_exhausted (by rw [sending, hf])
      rw [hf, hi] at hstate
      obtain ⟨hpassed, hfailure⟩ := hstate
      rw [leading_error, List.append_nil] at hpassed
      exact
        { forwarder := ⟨hpassed, hfailure.symm⟩
          failure := h.failure
          exhausted := fun ht => by rw [he] at ht; cases ht }
  | push m hf hroom =>
      have he : r.exhausted = false := h.not_exhausted (by rw [sending, hf])
      rw [hf] at hstate
      obtain ⟨hpassed, hfailure⟩ := hstate
      refine ⟨⟨?_, hfailure⟩, h.failure, fun ht => by rw [he] at ht; cases ht⟩
      -- the message in hand joins those that were passed on
      rw [← hpassed]
      simp [passed]
  | refuse m hf hx => exact h.stop (.inr rfl) rfl rfl rfl
  | report s hf =>
      have he : r.exhausted = false := h.not_exhausted (by rw [sending, hf])
      rw [hf] at hstate
      obtain ⟨hpassed, hfailure⟩ := hstate
      exact
        { forwarder := ⟨[], by rw [List.append_nil]; exact hpassed⟩
          failure := fun s' hs => by cases hs; exact hfailure
          exhausted := fun ht => by rw [he] at ht; cases ht }
  | transmit m rest hx ho =>
      have hpassed : (r.received ++ [m]) ++ rest = r.passed := by simp [passed, ho]
      exact h.frame rfl rfl hpassed (fun _ hs => hs) rfl
  | answerFailed s ha hx hr => exact h.stop (.inl rfl) rfl rfl rfl
  | giveUp s ha hx hf => exact h.stop (.inl rfl) rfl rfl rfl
  | heedFailure s ha hf => exact h.frame rfl rfl rfl (fun _ hs => by cases hs) rfl
  | abortForwarder ha hs => exact h.stop (.inl rfl) rfl rfl rfl
  | leaveUnanswered ha hg => exact h.stop (.inl rfl) rfl rfl rfl
  | halfClose | answered | receive | receiveEnd | receiveFailure | deliverGone | deliver | conclude
  | heedStatus | heedEnd | heedCaller | announceGone | announce | abortBackward | read
  | leaveAnswered => exact h.frame rfl rfl rfl (fun _ hs => hs) rfl

theorem Forwarding.of_follow? {items : List Item} {reply : List Bytes → Reply}
    {steps : List RelayStep} {r : CallRelay}
    (h : (CallRelay.opening items reply).follow? steps = some r) : Forwarding items r :=
  follow?_induction (P := fun _ => Forwarding items) (Forwarding.opening items reply)
    (fun _ _ _ _ hr hm => hr.step hm) h

/-! ## The end of the request -/

/-- The forwarder reported a failure or was aborted. -/
def Cut (steps : List RelayStep) : Prop := .report ∈ steps ∨ .abortForwarder ∈ steps

instance (steps : List RelayStep) : Decidable (Cut steps) :=
  inferInstanceAs (Decidable (_ ∨ _))

theorem cut_concat (done : List RelayStep) (e : RelayStep) :
    Cut (done ++ [e]) ↔ Cut done ∨ e = .report ∨ e = .abortForwarder := by
  simp only [Cut, List.mem_append, List.mem_singleton, eq_comm (a := e)]
  tauto

/-- A step of somebody else, or of a forwarder that goes on, cuts nothing. -/
theorem cut_concat_of_ne {done : List RelayStep} {e : RelayStep} (hreport : e ≠ .report)
    (habort : e ≠ .abortForwarder) : Cut (done ++ [e]) ↔ Cut done := by
  simp only [cut_concat, hreport, habort, or_false]

/-- How the end of the request came about. -/
structure Closing (steps : List RelayStep) (r : CallRelay) : Prop where
  sending : r.sending = true → ¬ Cut steps
  exhausted : r.exhausted = true → ¬ Cut steps
  gone : r.sending = false → r.exchange = .running → r.exhausted = true ∨ Cut steps
  halfClosed : r.halfClosed = true →
    r.outbound = [] ∧ r.sending = false ∧ (r.exhausted = true ∨ Cut steps)

theorem Closing.opening (items : List Item) (reply : List Bytes → Reply) :
    Closing [] (CallRelay.opening items reply) where
  sending _ h := by rcases h with h | h <;> cases h
  exhausted h := by cases h
  gone h := by cases h
  halfClosed h := by cases h

/-- As long as the forwarder sends, the destination has not seen the end. -/
theorem Closing.not_halfClosed {steps : List RelayStep} {r : CallRelay} (h : Closing steps r)
    (hs : r.sending = true) : r.halfClosed = false := by
  refine Bool.eq_false_iff.2 fun hc => ?_
  rw [(h.halfClosed hc).2.1] at hs
  cases hs

/-- Most steps change nothing about it. -/
theorem Closing.frame {done : List RelayStep} {e : RelayStep} {r r' : CallRelay}
    (h : Closing done r) (hreport : e ≠ .report) (habort : e ≠ .abortForwarder)
    (hsending : r'.sending = r.sending) (hexhausted : r'.exhausted = r.exhausted)
    (hhalfClosed : r'.halfClosed = r.halfClosed)
    (houtbound : r.halfClosed = true → r'.outbound = r.outbound)
    (hexchange : r'.exchange = .running → r.exchange = .running) : Closing (done ++ [e]) r' := by
  have hcut : Cut (done ++ [e]) ↔ Cut done := cut_concat_of_ne hreport habort
  refine ⟨?_, ?_, ?_, ?_⟩
  · rw [hcut, hsending]
    exact h.sending
  · rw [hcut, hexhausted]
    exact h.exhausted
  · rw [hcut, hsending, hexhausted]
    exact fun hs hx => h.gone hs (hexchange hx)
  · rw [hcut, hsending, hexhausted, hhalfClosed]
    intro hc
    rw [houtbound hc]
    exact h.halfClosed hc

/-- A forwarder that stops when the exchange is not running any more ends no request. -/
theorem Closing.stop {done : List RelayStep} {e : RelayStep} {r r' : CallRelay}
    (h : Closing done r) (hreport : e ≠ .report) (habort : e ≠ .abortForwarder)
    (hsending : r'.sending = false) (hexhausted : r'.exhausted = r.exhausted)
    (hhalfClosed : r'.halfClosed = r.halfClosed) (houtbound : r'.outbound = r.outbound)
    (hexchange : r'.exchange ≠ .running) : Closing (done ++ [e]) r' := by
  have hcut : Cut (done ++ [e]) ↔ Cut done := cut_concat_of_ne hreport habort
  refine ⟨?_, ?_, fun _ hx => absurd hx hexchange, ?_⟩
  · rw [hsending]
    exact fun hs => Bool.noConfusion hs
  · rw [hcut, hexhausted]
    exact h.exhausted
  · rw [hcut, hexhausted, hhalfClosed, houtbound]
    intro hc
    obtain ⟨hempty, _, hwhy⟩ := h.halfClosed hc
    exact ⟨hempty, hsending, hwhy⟩

/-- A forwarder that reports or is aborted cuts the request. -/
theorem Closing.cut {items : List Item} {done : List RelayStep} {e : RelayStep} {r r' : CallRelay}
    (h : Closing done r) (hf : Forwarding items r) (hs : r.sending = true)
    (he : e = .report ∨ e = .abortForwarder) (hsending : r'.sending = false)
    (hexhausted : r'.exhausted = r.exhausted) (hhalfClosed : r'.halfClosed = r.halfClosed) :
    Closing (done ++ [e]) r' := by
  have hcut : Cut (done ++ [e]) := (cut_concat done e).2 (.inr he)
  have hopen : r'.halfClosed = false := hhalfClosed.trans (h.not_halfClosed hs)
  have hmore : r'.exhausted = false := hexhausted.trans (hf.not_exhausted hs)
  exact
    { sending := fun ht => by rw [hsending] at ht; cases ht
      exhausted := fun ht => by rw [hmore] at ht; cases ht
      gone := fun _ _ => .inr hcut
      halfClosed := fun ht => by rw [hopen] at ht; cases ht }

theorem Closing.step {items : List Item} {done : List RelayStep} {e : RelayStep}
    {r r' : CallRelay} (h : Closing done r) (hf : Forwarding items r) (hm : Moves r e r') :
    Closing (done ++ [e]) r' := by
  cases hm with
  | pollEnd hidle hi =>
      have hs : r.sending = true := by rw [CallRelay.sending, hidle]
      have hopen : r.halfClosed = false := h.not_halfClosed hs
      have huncut : ¬ Cut (done ++ [.poll]) := by
        rw [cut_concat_of_ne (by decide) (by decide)]
        exact h.sending hs
      exact
        { sending := fun ht => by cases ht
          exhausted := fun _ => huncut
          gone := fun _ _ => .inl rfl
          halfClosed := fun ht => by rw [hopen] at ht; cases ht }
  | pollMessage m rest hidle hi =>
      have hs : r.sending = true := by rw [CallRelay.sending, hidle]
      exact h.frame (by decide) (by decide) hs.symm rfl rfl (fun _ => rfl) id
  | pollFailure s rest hidle hi =>
      have hs : r.sending = true := by rw [CallRelay.sending, hidle]
      exact h.frame (by decide) (by decide) hs.symm rfl rfl (fun _ => rfl) id
  | push m hholding hroom =>
      have hs : r.sending = true := by rw [CallRelay.sending, hholding]
      have hopen : r.halfClosed = false := h.not_halfClosed hs
      exact h.frame (by decide) (by decide) hs.symm rfl rfl
        (fun hc => by rw [hopen] at hc; cases hc) id
  | transmit m rest hx ho =>
      -- behind the end there is nothing left to transmit
      refine h.frame (by decide) (by decide) rfl rfl rfl (fun hc => ?_) id
      rw [(h.halfClosed hc).1] at ho
      cases ho
  | halfClose hx ho hs hh =>
      have hcut : Cut (done ++ [.halfClose]) ↔ Cut done := cut_concat_of_ne (by decide) (by decide)
      have hwhy := h.gone hs hx
      exact
        { sending := fun ht => by rw [show r.sending = true from ht] at hs; cases hs
          exhausted := fun ht => by rw [hcut]; exact h.exhausted ht
          gone := fun _ _ => by rw [hcut]; exact hwhy
          halfClosed := fun _ => ⟨ho, hs, by rw [hcut]; exact hwhy⟩ }
  | report s hreporting =>
      exact h.cut hf (by rw [CallRelay.sending, hreporting]) (.inl rfl) rfl rfl rfl
  | abortForwarder ha hs => exact h.cut hf hs (.inr rfl) rfl rfl rfl
  | refuse m hholding hx => exact h.stop (by decide) (by decide) rfl rfl rfl rfl hx
  | answerFailed s ha hx hr =>
      exact h.stop (by decide) (by decide) rfl rfl rfl rfl Exchange.noConfusion
  | giveUp s ha hx hfailure =>
      exact h.stop (by decide) (by decide) rfl rfl rfl rfl Exchange.noConfusion
  | leaveUnanswered ha hg =>
      exact h.stop (by decide) (by decide) rfl rfl rfl rfl Exchange.noConfusion
  | conclude c exchange hb hx =>
      exact h.frame (by decide) (by decide) rfl rfl rfl (fun _ => rfl) (fun ht => absurd ht hx)
  | abortBackward exchange ha hb hx =>
      exact h.frame (by decide) (by decide) rfl rfl rfl (fun _ => rfl) (fun ht => absurd ht hx)
  | answered | receive | receiveEnd | receiveFailure | deliverGone | deliver | heedFailure
  | heedStatus | heedEnd | heedCaller | announceGone | announce | read | leaveAnswered =>
      exact h.frame (by decide) (by decide) rfl rfl rfl (fun _ => rfl) id

theorem Closing.of_follow? {items : List Item} {reply : List Bytes → Reply}
    {steps : List RelayStep} {r : CallRelay}
    (h : (CallRelay.opening items reply).follow? steps = some r) : Closing steps r := by
  have hboth : Forwarding items r ∧ Closing steps r :=
    follow?_induction (P := fun done r => Forwarding items r ∧ Closing done r)
      ⟨Forwarding.opening items reply, Closing.opening items reply⟩
      (fun _ _ _ _ hr hm => ⟨hr.1.step hm, hr.2.step hr.1 hm⟩) h
  exact hboth.2

/-- A destination that has seen the end has received all that was passed on. -/
theorem exhausted_iff_of_halfClosed {items : List Item} {reply : List Bytes → Reply}
    {steps : List RelayStep} {r : CallRelay}
    (h : (CallRelay.opening items reply).follow? steps = some r) (hc : r.halfClosed = true) :
    (r.exhausted = true ∧ items = r.received.map .ok) ↔ ¬ Cut steps := by
  have hf : Forwarding items r := .of_follow? h
  have hclosing : Closing steps r := .of_follow? h
  obtain ⟨hempty, _, hwhy⟩ := hclosing.halfClosed hc
  refine ⟨fun hcomplete => hclosing.exhausted hcomplete.1, fun huncut => ?_⟩
  have hexhausted : r.exhausted = true := hwhy.resolve_right huncut
  obtain ⟨_, hpassed, hclean⟩ := hf.exhausted hexhausted
  rw [passed, hempty, List.append_nil] at hpassed
  exact ⟨hexhausted, by rw [hpassed]; exact eq_map_leading_of_clean hclean⟩

/-! ## Requests that only look complete -/

/-- A call whose forwarder is about to take the next item, with everything before it received. -/
structure Ready (r : CallRelay) : Prop where
  forwarder : r.forwarder = .idle
  outbound : r.outbound = []
  exchange : r.exchange = .running
  halfClosed : r.halfClosed = false
  exhausted : r.exhausted = false

theorem Ready.opening (items : List Item) (reply : List Bytes → Reply) :
    Ready (CallRelay.opening items reply) := ⟨rfl, rfl, rfl, rfl, rfl⟩

/-- A message goes all the way to the destination. -/
theorem Ready.pass {r : CallRelay} (h : Ready r) {m : Bytes} {rest : List Item}
    (hi : r.inbound = .ok m :: rest) :
    r.follow? [.poll, .push, .transmit] =
      some { r with
        forwarder := .idle, inbound := rest, polled := r.polled + 1, outbound := [],
        received := r.received ++ [m] } := by
  simp [follow?, step?, h.forwarder, h.outbound, h.exchange, hi, capacity]

/-- The failure of the caller's stream ends the request before anybody has heeded it. -/
theorem Ready.breakOff {r : CallRelay} (h : Ready r) {s : Status} {rest : List Item}
    (hi : r.inbound = .error s :: rest) :
    r.follow? [.poll, .report, .halfClose] =
      some { r with
        forwarder := .returned, inbound := rest, polled := r.polled + 1, failure := some s,
        halfClosed := true } := by
  simp [follow?, step?, sending, h.forwarder, h.outbound, h.exchange, h.halfClosed, hi]

/-- Whatever comes before the failure of a stream may be taken for a complete request. -/
theorem Ready.exists_premature_end {r : CallRelay} (h : Ready r) {e : Status}
    (he : firstFailure? r.inbound = some e) :
    ∃ steps next, r.follow? steps = some next ∧ next.halfClosed = true ∧
      next.exchange = .running ∧ next.exhausted = false ∧
      next.received = r.received ++ leading r.inbound := by
  generalize hitems : r.inbound = items at he
  induction items generalizing r with
  | nil => cases he
  | cons i rest ih =>
      cases i with
      | error s =>
          refine ⟨_, _, h.breakOff hitems, rfl, h.exchange, h.exhausted, ?_⟩
          simp only [leading_error, List.append_nil]
      | ok m =>
          have hpass := h.pass hitems
          obtain ⟨steps, next, hsteps, hclosed, hrunning, hmore, hreceived⟩ :=
            ih (r := { r with
                  forwarder := .idle, inbound := rest, polled := r.polled + 1, outbound := [],
                  received := r.received ++ [m] })
              ⟨rfl, rfl, h.exchange, h.halfClosed, h.exhausted⟩ rfl he
          refine ⟨[.poll, .push, .transmit] ++ steps, next, ?_, hclosed, hrunning, hmore, ?_⟩
          · rw [follow?_append, hpass]
            exact hsteps
          · rw [hreceived, leading_ok, List.append_assoc]
            rfl

/-- A caller that leaves when it has its answer may end the request as well: the arbiter's return
    stops the forwarder before it stops the backward task, which holds the exchange. -/
theorem Ready.departure {r : CallRelay} (h : Ready r) {headers : Headers} {messages : List Bytes}
    {ending : Ending} (ha : r.answer = none) (hg : r.callerGone = false)
    (hr : r.reply r.received = .answered headers messages ending) :
    r.follow? [.answer, .leave, .heedCaller, .abortForwarder, .halfClose] =
      some { r with
        answer := some (.ok headers), coming := messages, ending, backward := .idle,
        arbiter := .returned, callerGone := true, forwarder := .aborted, halfClosed := true } := by
  simp [follow?, step?, sending, h.forwarder, h.outbound, h.exchange, h.halfClosed, ha, hg, hr]

/-- **When a request that looks complete is complete.** A destination that has seen the end of the
    request has all messages of a stream that ended well if and only if the forwarder neither
    reported a failure nor was aborted. Every stream that fails has a run that presents what came
    before the failure as a complete request, and a caller that leaves as soon as it is answered
    one that presents an empty request as complete; both while the exchange goes on. -/
theorem complete_request_iff (items : List Item) (reply : List Bytes → Reply) :
    (∀ steps r, (CallRelay.opening items reply).follow? steps = some r → r.halfClosed = true →
      ((r.exhausted = true ∧ items = r.received.map .ok) ↔ ¬ Cut steps)) ∧
    (∀ e, firstFailure? items = some e →
      ∃ steps r, (CallRelay.opening items reply).follow? steps = some r ∧ r.halfClosed = true ∧
        r.exchange = .running ∧ r.exhausted = false ∧ r.received = leading items) ∧
    (∀ headers messages ending, reply [] = .answered headers messages ending →
      ∃ steps r, (CallRelay.opening items reply).follow? steps = some r ∧ r.halfClosed = true ∧
        r.exchange = .running ∧ r.exhausted = false ∧ r.callerGone = true ∧ r.received = []) := by
  have hready : Ready (CallRelay.opening items reply) := .opening items reply
  refine ⟨fun steps r h hc => exhausted_iff_of_halfClosed h hc, fun e he => ?_, ?_⟩
  · exact hready.exists_premature_end he
  · intro headers messages ending hr
    exact ⟨_, _, hready.departure rfl rfl hr, rfl, rfl, rfl, rfl, rfl⟩

/-- A stream of one message, once complete and once broken off behind it. -/
theorem complete_request_iff_one_message :
    (∃ r, (CallRelay.opening [.ok [1]] fun _ => .silent).follow?
        [.poll, .push, .poll, .transmit, .halfClose] = some r ∧
      r.halfClosed = true ∧ r.exhausted = true ∧ ([.ok [1]] : List Item) = r.received.map .ok) ∧
    (∃ steps r, (CallRelay.opening [.ok [1], .error (.internal [])] fun _ => .silent).follow? steps
        = some r ∧
      r.halfClosed = true ∧ r.exchange = .running ∧ r.exhausted = false ∧ r.received = [[1]]) ∧
    (∃ steps r, (CallRelay.opening [.ok [1]] fun _ => .answered {} [] .never).follow? steps
        = some r ∧
      r.halfClosed = true ∧ r.exchange = .running ∧ r.exhausted = false ∧ r.callerGone = true ∧
      r.received = []) := by
  refine ⟨⟨_, rfl, rfl, ?_⟩, ?_, ?_⟩
  · exact ((complete_request_iff [.ok [1]] fun _ => .silent).1
      [.poll, .push, .poll, .transmit, .halfClose] _ rfl rfl).2 (by decide)
  · exact (complete_request_iff [.ok [1], .error (.internal [])] fun _ => .silent).2.1 _ rfl
  · exact (complete_request_iff [.ok [1]] fun _ => .answered {} [] .never).2.2 _ _ _ rfl

/-- The destination sees the end of a request whose caller broke off behind the first message. -/
theorem broken_stream_seen_complete :
    ∃ r, (CallRelay.opening [.ok [1], .error (.internal [])] fun _ => .silent).follow?
        [.poll, .push, .transmit, .poll, .report, .halfClose] = some r ∧
      r.halfClosed = true ∧ r.exchange = .running ∧ r.received = [[1]] ∧
      ¬ (r.exhausted = true ∧
        ([.ok [1], .error (.internal [])] : List Item) = r.received.map .ok) :=
  ⟨_, rfl, rfl, rfl, rfl, fun h => Bool.noConfusion h.1⟩

end CallRelay

end InterceptingProxy
