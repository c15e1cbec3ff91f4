import InterceptingProxy.Proofs.Relay.Forwarding

set_option autoImplicit false

/-! # From the destination to the caller

Messages come to the caller from the backward task, and at most one status from the arbiter, through
the same channel. `CallRelay.out` is everything that was put into this channel. Up to its first
failure it holds the first messages of the destination, and what the backward task holds and the
destination is still going to send are the others (`Backward.Delivers`).

How the destination ended reaches the arbiter on another way than the messages. That nothing is
lost rests on the order of the backward task: it reports the end after it has put the last message
into the channel, and then it is gone. `Delivery` carries this fact to the arbiter's last item, and
`CallRelay.relay_is_faithful` reads off what a caller sees. -/

namespace InterceptingProxy

/-! ## The end of a destination -/

/-- The destination has ended and all its messages were delivered; `last` is what is left to say. -/
def Completed (messages : List Bytes) (ending : Ending) (delivered : List Bytes)
    (last : Option Status) : Prop :=
  delivered = messages ∧
    ((∃ trailers, ending = .finished trailers ∧ last = trailers.trailerStatus?) ∨
      ∃ s, ending = .failed s ∧ last = some s)

/-- What a conclusion says about the destination, `gone` being whether the caller has left. -/
def Conclusion.Tells (messages : List Bytes) (ending : Ending) (gone : Bool)
    (delivered : List Bytes) : Conclusion → Prop
  | .finished trailers => delivered = messages ∧ ending = .finished trailers
  | .failed s => delivered = messages ∧ ending = .failed s
  | .callerGone => gone = true

/-- How delivered messages, the one in hand and the coming ones make up the destination's. -/
def Backward.Delivers (messages : List Bytes) (ending : Ending) (gone : Bool)
    (delivered coming : List Bytes) : Backward → Prop
  | .absent => False
  | .idle => delivered ++ coming = messages
  | .holding m => delivered ++ m :: coming = messages
  | .concluding c => c.Tells messages ending gone delivered
  | .returned | .aborted => True

/-- The status reports the failure of the caller's own stream. -/
def ReportsCaller (items : List Item) (s : Status) : Prop :=
  ∃ e, firstFailure? items = some e ∧ s = CallRelay.callerFailure e

theorem Conclusion.Tells.completed {messages delivered : List Bytes} {ending : Ending} {gone : Bool}
    {c : Conclusion} (h : c.Tells messages ending gone delivered) :
    gone = true ∨ Completed messages ending delivered (CallRelay.lastStatus? c) := by
  cases c with
  | finished trailers => exact .inr ⟨h.1, .inl ⟨trailers, h.2, rfl⟩⟩
  | failed s => exact .inr ⟨h.1, .inr ⟨s, h.2, rfl⟩⟩
  | callerGone => exact .inl h

/-- A conclusion with a last status is one of the destination. -/
theorem Conclusion.Tells.completed_some {messages delivered : List Bytes} {ending : Ending}
    {gone : Bool} {c : Conclusion} {s : Status} (h : c.Tells messages ending gone delivered)
    (hs : CallRelay.lastStatus? c = some s) : Completed messages ending delivered (some s) := by
  cases c with
  | finished trailers => exact ⟨h.1, .inl ⟨trailers, h.2, hs.symm⟩⟩
  | failed s' => exact ⟨h.1, .inr ⟨s', h.2, hs.symm⟩⟩
  | callerGone => cases hs

/-- A caller that leaves takes nothing back. -/
theorem Conclusion.Tells.leave {messages delivered : List Bytes} {ending : Ending} {gone : Bool}
    {c : Conclusion} (h : c.Tells messages ending gone delivered) :
    c.Tells messages ending true delivered := by
  cases c with
  | finished trailers => exact h
  | failed s => exact h
  | callerGone => rfl

theorem Backward.Delivers.leave {messages delivered coming : List Bytes} {ending : Ending}
    {gone : Bool} {b : Backward} (h : b.Delivers messages ending gone delivered coming) :
    b.Delivers messages ending true delivered coming := by
  cases b with
  | concluding c => exact Conclusion.Tells.leave h
  | absent | idle | holding | returned | aborted => exact h

namespace CallRelay

/-- Everything that was put into the response channel. -/
def out (r : CallRelay) : List Item := r.read ++ r.responses

/-- What the arbiter goes by. -/
def Justifies (items : List Item) (messages : List Bytes) (ending : Ending) (r : CallRelay) :
    Arbiter → Prop
  | .absent => False
  | .waiting => True
  | .announcing s =>
    ReportsCaller items s ∨
      r.backward = .returned ∧ Completed messages ending (leading r.out) (some s)
  | .returned => firstFailure? r.out = none →
    r.callerGone = true ∨
      r.backward = .returned ∧ Completed messages ending (leading r.out) none

/-- What every step keeps of the way from the destination to the caller. -/
structure Delivery (items : List Item) (messages : List Bytes) (ending : Ending) (r : CallRelay) :
    Prop where
  ends : r.ending = ending
  isPrefix : leading r.out <+: messages
  backward : firstFailure? r.out = none →
    r.backward.Delivers messages ending r.callerGone (leading r.out) r.coming
  conclusion : ∀ c, r.conclusion = some c → r.backward = .returned ∧
    (firstFailure? r.out = none → c.Tells messages ending r.callerGone (leading r.out))
  arbiter : r.Justifies items messages ending r.arbiter
  failed : ∀ s, firstFailure? r.out = some s → r.arbiter = .returned ∧
    (ReportsCaller items s ∨ Completed messages ending (leading r.out) (some s))

variable {items : List Item} {messages : List Bytes} {ending : Ending} {r r' : CallRelay}

/-- A reason stays one as long as the backward task does not come back and a caller that has left
    does not either. -/
theorem Justifies.mono {a : Arbiter} (h : r.Justifies items messages ending a)
    (hclean : firstFailure? r'.out = none → firstFailure? r.out = none)
    (hreturned : r.backward = .returned →
      r'.backward = .returned ∧ leading r'.out = leading r.out)
    (hgone : r.callerGone = true → r'.callerGone = true) :
    r'.Justifies items messages ending a := by
  cases a with
  | absent => exact h
  | waiting => trivial
  | announcing s =>
      refine Or.imp_right (fun hdone => ?_) h
      obtain ⟨hback, hleading⟩ := hreturned hdone.1
      exact ⟨hback, by rw [hleading]; exact hdone.2⟩
  | returned =>
      intro hc
      refine Or.imp hgone (fun hdone => ?_) (h (hclean hc))
      obtain ⟨hback, hleading⟩ := hreturned hdone.1
      exact ⟨hback, by rw [hleading]; exact hdone.2⟩

/-- Until the arbiter is done there is no failure in the channel. -/
theorem Delivery.clean (h : Delivery items messages ending r) (ha : r.arbiter ≠ .returned) :
    firstFailure? r.out = none := by
  cases hs : firstFailure? r.out with
  | none => rfl
  | some s => exact absurd (h.failed s hs).1 ha

/-- The invariant speaks of the destination's side only. -/
theorem Delivery.frame (h : Delivery items messages ending r) (hends : r'.ending = r.ending)
    (hout : r'.out = r.out) (hbackward : r'.backward = r.backward) (hcoming : r'.coming = r.coming)
    (hconclusion : r'.conclusion = r.conclusion) (harbiter : r'.arbiter = r.arbiter)
    (hgone : r'.callerGone = r.callerGone) : Delivery items messages ending r' where
  ends := hends.trans h.ends
  isPrefix := by rw [hout]; exact h.isPrefix
  backward := by rw [hout, hbackward, hcoming, hgone]; exact h.backward
  conclusion := by rw [hout, hbackward, hconclusion, hgone]; exact h.conclusion
  arbiter := by
    rw [harbiter]
    refine h.arbiter.mono (fun hc => hout ▸ hc) (fun hb => ?_) fun hg => hgone.trans hg
    exact ⟨hbackward.trans hb, by rw [hout]⟩
  failed := by rw [hout, harbiter]; exact h.failed

/-- A step of the backward task that puts nothing into the channel. -/
theorem Delivery.advance (h : Delivery items messages ending r) (hends : r'.ending = r.ending)
    (hout : r'.out = r.out) (hconclusion : r'.conclusion = r.conclusion)
    (harbiter : r'.arbiter = r.arbiter) (hgone : r'.callerGone = r.callerGone)
    (hworks : r.backward ≠ .returned)
    (hbackward : firstFailure? r.out = none →
      r'.backward.Delivers messages ending r.callerGone (leading r.out) r'.coming) :
    Delivery items messages ending r' where
  ends := hends.trans h.ends
  isPrefix := by rw [hout]; exact h.isPrefix
  backward := by rw [hout, hgone]; exact hbackward
  conclusion c hc := absurd (h.conclusion c (hconclusion ▸ hc)).1 hworks
  arbiter := by
    rw [harbiter]
    exact h.arbiter.mono (fun hc => hout ▸ hc) (fun hb => absurd hb hworks) fun hg =>
      hgone.trans hg
  failed := by rw [hout, harbiter]; exact h.failed

/-- A message goes into the channel behind those before it. -/
theorem Delivery.deliver (h : Delivery items messages ending r) {m : Bytes}
    (hb : r.backward = .holding m) (hends : r'.ending = r.ending)
    (hout : r'.out = r.out ++ [.ok m]) (hbackward : r'.backward = .idle)
    (hcoming : r'.coming = r.coming) (hconclusion : r'.conclusion = r.conclusion)
    (harbiter : r'.arbiter = r.arbiter) (hgone : r'.callerGone = r.callerGone) :
    Delivery items messages ending r' := by
  have hworks : r.backward ≠ .returned := by rw [hb]; exact Backward.noConfusion
  have hfirst : firstFailure? r'.out = firstFailure? r.out := by
    rw [hout, firstFailure?_append]
    exact Option.or_none
  have hleading : firstFailure? r.out = none → leading r'.out = leading r.out ++ [m] := by
    intro hc
    rw [hout]
    exact leading_append_of_clean hc [.ok m]
  have hholds : firstFailure? r.out = none → leading r'.out ++ r.coming = messages := by
    intro hc
    have hd := h.backward hc
    rw [hb] at hd
    rw [hleading hc, List.append_assoc]
    exact hd
  refine ⟨hends.trans h.ends, ?_, ?_, fun c hc => ?_, ?_, fun s hs => ?_⟩
  -- behind a failure the message does not count
  · cases hc : firstFailure? r.out with
    | none => exact ⟨_, hholds hc⟩
    | some s => rw [hout, leading_append_of_failed hc]; exact h.isPrefix
  · rw [hfirst, hbackward, hcoming]
    exact hholds
  · exact absurd (h.conclusion c (hconclusion ▸ hc)).1 hworks
  · rw [harbiter]
    exact h.arbiter.mono (fun hc => hfirst ▸ hc) (fun hreturned => absurd hreturned hworks)
      fun hg => hgone.trans hg
  · rw [hfirst] at hs
    rw [hout, leading_append_of_failed hs, harbiter]
    exact h.failed s hs

/-- The end is reported when everything before it is in the channel. -/
theorem Delivery.conclude (h : Delivery items messages ending r) {c : Conclusion}
    (exchange : Exchange) (hb : r.backward = .concluding c) :
    Delivery items messages ending
      { r with backward := .returned, conclusion := some c, exchange } := by
  have hworks : r.backward ≠ .returned := by rw [hb]; exact Backward.noConfusion
  have htells : firstFailure? r.out = none →
      c.Tells messages ending r.callerGone (leading r.out) := by
    intro hc
    have hd := h.backward hc
    rw [hb] at hd
    exact hd
  refine ⟨h.ends, h.isPrefix, fun _ => trivial, fun c' hc' => ?_, ?_, h.failed⟩
  · cases hc'
    exact ⟨rfl, htells⟩
  · exact h.arbiter.mono (fun hc => hc) (fun hreturned => absurd hreturned hworks) fun hg => hg

/-- The arbiter goes on for a reason. -/
theorem Delivery.arbitrate (h : Delivery items messages ending r) (hends : r'.ending = r.ending)
    (hout : r'.out = r.out) (hbackward : r'.backward = r.backward) (hcoming : r'.coming = r.coming)
    (hgone : r'.callerGone = r.callerGone)
    (hconclusion : ∀ c, r'.conclusion = some c → r.conclusion = some c)
    (hopen : r.arbiter ≠ .returned) (harbiter : r.Justifies items messages ending r'.arbiter) :
    Delivery items messages ending r' where
  ends := hends.trans h.ends
  isPrefix := by rw [hout]; exact h.isPrefix
  backward := by rw [hout, hbackward, hcoming, hgone]; exact h.backward
  conclusion c hc := by
    rw [hout, hbackward, hgone]
    exact h.conclusion c (hconclusion c hc)
  arbiter := by
    refine harbiter.mono (fun hc => hout ▸ hc) (fun hb => ?_) fun hg => hgone.trans hg
    exact ⟨hbackward.trans hb, by rw [hout]⟩
  failed s hs := by
    rw [hout, h.clean hopen] at hs
    cases hs

/-- The arbiter's item goes into the channel as the first failure there. -/
theorem Delivery.announce (h : Delivery items messages ending r) {s : Status}
    (ha : r.arbiter = .announcing s) (hends : r'.ending = r.ending)
    (hout : r'.out = r.out ++ [.error s]) (hbackward : r'.backward = r.backward)
    (hconclusion : r'.conclusion = r.conclusion) (harbiter : r'.arbiter = .returned) :
    Delivery items messages ending r' := by
  have hclean : firstFailure? r.out = none := h.clean (by rw [ha]; exact Arbiter.noConfusion)
  have hfirst : firstFailure? r'.out = some s := by
    rw [hout, firstFailure?_append, hclean]
    rfl
  have hleading : leading r'.out = leading r.out := by
    rw [hout, leading_append_of_clean hclean]
    exact List.append_nil _
  have hfailed : firstFailure? r'.out ≠ none := by
    rw [hfirst]
    exact Option.some_ne_none s
  have harb := h.arbiter
  rw [ha] at harb
  refine ⟨hends.trans h.ends, ?_, fun hc => absurd hc hfailed, fun c hc => ?_, ?_, fun s' hs => ?_⟩
  · rw [hleading]
    exact h.isPrefix
  · rw [hbackward]
    exact ⟨(h.conclusion c (hconclusion ▸ hc)).1, fun hc => absurd hc hfailed⟩
  · rw [harbiter]
    exact fun hc => absurd hc hfailed
  · rw [hfirst] at hs
    cases hs
    rw [hleading]
    exact ⟨harbiter, harb.imp_right fun hdone => hdone.2⟩

theorem Delivery.leave (h : Delivery items messages ending r) :
    Delivery items messages ending { r with callerGone := true } := by
  refine ⟨h.ends, h.isPrefix, fun hc => (h.backward hc).leave, fun c hc => ?_, ?_, h.failed⟩
  · obtain ⟨hreturned, htells⟩ := h.conclusion c hc
    exact ⟨hreturned, fun hclean => (htells hclean).leave⟩
  · exact h.arbiter.mono (fun hc => hc) (fun hreturned => ⟨hreturned, rfl⟩) fun _ => rfl

theorem Delivery.step {e : RelayStep} {a : Except Status Headers}
    (h : Delivery items messages ending r) (hf : Forwarding items r) (ha : r.answer = some a)
    (hm : Moves r e r') : Delivery items messages ending r' := by
  cases hm with
  | answered headers messages' ending' hnone =>
      rw [ha] at hnone
      cases hnone
  | leaveUnanswered hnone =>
      rw [ha] at hnone
      cases hnone
  | receive m rest hb hc =>
      refine h.advance rfl rfl rfl rfl rfl (by rw [hb]; exact Backward.noConfusion) fun hclean => ?_
      have hd := h.backward hclean
      rw [hb, hc] at hd
      exact hd
  | receiveEnd trailers hb hc he =>
      -- nothing is coming any more, so what was delivered is everything
      refine h.advance rfl rfl rfl rfl rfl (by rw [hb]; exact Backward.noConfusion) fun hclean => ?_
      have hd := h.backward hclean
      rw [hb, hc] at hd
      exact ⟨(List.append_nil _).symm.trans hd, h.ends.symm.trans he⟩
  | receiveFailure s hb hc he =>
      refine h.advance rfl rfl rfl rfl rfl (by rw [hb]; exact Backward.noConfusion) fun hclean => ?_
      have hd := h.backward hclean
      rw [hb, hc] at hd
      exact ⟨(List.append_nil _).symm.trans hd, h.ends.symm.trans he⟩
  | deliverGone m hb hg =>
      -- the message is lost, but its reader has left
      exact h.advance rfl rfl rfl rfl rfl (by rw [hb]; exact Backward.noConfusion) fun _ => hg
  | deliver m hb hg hroom =>
      exact h.deliver hb rfl (List.append_assoc ..).symm rfl rfl rfl rfl rfl
  | conclude c exchange hb hx => exact h.conclude exchange hb
  | heedFailure s hw hfailure =>
      exact h.arbitrate rfl rfl rfl rfl rfl (fun _ hc => hc) (by rw [hw]; exact Arbiter.noConfusion)
        (.inl ⟨s, hf.failure s hfailure, rfl⟩)
  | heedStatus c s hw hc hs =>
      -- the conclusion came after the last message
      obtain ⟨hreturned, htells⟩ := h.conclusion c hc
      have hopen : r.arbiter ≠ .returned := by rw [hw]; exact Arbiter.noConfusion
      exact h.arbitrate rfl rfl rfl rfl rfl (fun _ hc => by cases hc) hopen
        (.inr ⟨hreturned, (htells (h.clean hopen)).completed_some hs⟩)
  | heedEnd c hw hc hs =>
      obtain ⟨hreturned, htells⟩ := h.conclusion c hc
      have hopen : r.arbiter ≠ .returned := by rw [hw]; exact Arbiter.noConfusion
      refine h.arbitrate rfl rfl rfl rfl rfl (fun _ hc => by cases hc) hopen fun hclean => ?_
      have hdone := (htells hclean).completed
      rw [hs] at hdone
      exact hdone.imp_right fun hcompleted => ⟨hreturned, hcompleted⟩
  | heedCaller hw hg =>
      exact h.arbitrate rfl rfl rfl rfl rfl (fun _ hc => hc) (by rw [hw]; exact Arbiter.noConfusion)
        fun _ => .inl hg
  | announceGone s hw hg =>
      exact h.arbitrate rfl rfl rfl rfl rfl (fun _ hc => hc) (by rw [hw]; exact Arbiter.noConfusion)
        fun _ => .inl hg
  | announce s hw hg hroom =>
      exact h.announce hw rfl (List.append_assoc ..).symm rfl rfl rfl
  | abortBackward exchange hw hb hx =>
      refine h.advance rfl rfl rfl rfl rfl (fun hr => ?_) fun _ => trivial
      rw [hr] at hb
      cases hb
  | read i rest hg hr =>
      refine h.frame rfl ?_ rfl rfl rfl rfl rfl
      simp only [out, hr, List.append_assoc, List.cons_append, List.nil_append]
  | leaveAnswered => exact h.leave
  -- the rest happens on the way from the caller to the destination
  | pollEnd | pollMessage | pollFailure | push | refuse | report | transmit | halfClose
  | answerFailed | giveUp | abortForwarder => exact h.frame rfl rfl rfl rfl rfl rfl rfl

/-! ## The whole call -/

/-- Nothing goes to a caller before the destination has answered. -/
structure Quiet (r : CallRelay) : Prop where
  backward : r.backward = .absent
  arbiter : r.arbiter = .absent
  conclusion : r.conclusion = none
  out : r.out = []

theorem Quiet.step {e : RelayStep} (h : Quiet r) (hm : Moves r e r')
    (hn : ∀ headers, r'.answer ≠ some (.ok headers)) : Quiet r' := by
  cases hm with
  | answered headers => exact absurd rfl (hn headers)
  | receive m rest hb | receiveEnd trailers hb | receiveFailure s hb | deliverGone m hb
  | deliver m hb | conclude c x hb =>
      rw [h.backward] at hb
      cases hb
  | heedFailure s ha | heedStatus c s ha | heedEnd c ha | heedCaller ha | announceGone s ha
  | announce s ha | abortForwarder ha | abortBackward x ha =>
      rw [h.arbiter] at ha
      cases ha
  | read i rest hg hr =>
      have hempty := (List.append_eq_nil_iff.1 h.out).2
      rw [hr] at hempty
      cases hempty
  | pollEnd | pollMessage | pollFailure | push | refuse | report | transmit | halfClose
  | answerFailed | giveUp | leaveAnswered | leaveUnanswered =>
      exact ⟨h.backward, h.arbiter, h.conclusion, h.out⟩

/-- With the answer the messages start to flow. -/
theorem Quiet.answered (h : Quiet r) (items : List Item) (headers : Headers)
    (messages : List Bytes) (ending : Ending) :
    Delivery items messages ending
      { r with
        answer := some (.ok headers), coming := messages, ending, backward := .idle,
        arbiter := .waiting } where
  ends := rfl
  isPrefix := ⟨messages, congrArg (leading · ++ messages) h.out⟩
  backward _ := congrArg (leading · ++ messages) h.out
  conclusion c hc := by
    rw [h.conclusion] at hc
    cases hc
  arbiter := trivial
  failed s hs := by
    have hnone : firstFailure? r.out = none := by rw [h.out, firstFailure?_nil]
    rw [show firstFailure? r.out = some s from hs] at hnone
    cases hnone

/-! ## Answers -/

/-- A call is answered once. -/
theorem Moves.answer_of_some {e : RelayStep} {a : Except Status Headers} (hm : Moves r e r')
    (ha : r.answer = some a) : r'.answer = some a := by
  cases hm with
  | answerFailed s hnone | answered headers messages ending hnone | giveUp s hnone
  | leaveUnanswered hnone =>
      rw [ha] at hnone
      cases hnone
  | _ => exact ha

theorem Moves.answered_of_none {e : RelayStep} {headers : Headers} (hm : Moves r e r')
    (hn : r.answer = none) (ha : r'.answer = some (.ok headers)) :
    ∃ messages ending, r.reply r.received = .answered headers messages ending ∧
      r' = { r with
        answer := some (.ok headers), coming := messages, ending, backward := .idle,
        arbiter := .waiting } := by
  cases hm with
  | answered headers' messages ending _ _ hr =>
      cases ha
      exact ⟨messages, ending, hr, rfl⟩
  | answerFailed | giveUp => cases ha
  | _ =>
      rw [show r.answer = some (.ok headers) from ha] at hn
      cases hn

theorem Moves.refused_of_none {e : RelayStep} {s : Status} (hm : Moves r e r')
    (hn : r.answer = none) (ha : r'.answer = some (.error s)) :
    r.reply r.received = .failed s ∨ ∃ cause, r.failure = some cause ∧ s = callerFailure cause := by
  cases hm with
  | answerFailed s' _ _ hr =>
      cases ha
      exact .inl hr
  | giveUp cause _ _ hf =>
      cases ha
      exact .inr ⟨cause, hf, rfl⟩
  | answered => cases ha
  | _ =>
      rw [show r.answer = some (.error s) from ha] at hn
      cases hn

theorem Moves.reply_eq {e : RelayStep} (hm : Moves r e r') : r'.reply = r.reply := by
  cases hm <;> rfl

/-- What a destination has received stays received. -/
theorem Moves.received_isPrefix {e : RelayStep} (hm : Moves r e r') :
    r.received <+: r'.received := by
  cases hm with
  | transmit m => exact List.prefix_append ..
  | _ => exact List.prefix_rfl

/-! ## The whole call -/

/-- What every step of a call keeps. -/
structure Faithful (items : List Item) (reply : List Bytes → Reply) (r : CallRelay) : Prop where
  forwarding : Forwarding items r
  script : r.reply = reply
  quiet : (∀ headers, r.answer ≠ some (.ok headers)) → Quiet r
  refused : ∀ s, r.answer = some (.error s) →
    (∃ got, got <+: r.received ∧ reply got = .failed s) ∨ ReportsCaller items s
  answered : ∀ headers, r.answer = some (.ok headers) → ∃ got messages ending,
    got <+: r.received ∧ reply got = .answered headers messages ending ∧
      Delivery items messages ending r

variable {reply : List Bytes → Reply}

theorem Faithful.opening (items : List Item) (reply : List Bytes → Reply) :
    Faithful items reply (CallRelay.opening items reply) where
  forwarding := Forwarding.opening items reply
  script := rfl
  quiet _ := ⟨rfl, rfl, rfl, rfl⟩
  refused s h := by cases h
  answered headers h := by cases h

theorem Faithful.step {e : RelayStep} (h : Faithful items reply r) (hm : Moves r e r') :
    Faithful items reply r' where
  forwarding := h.forwarding.step hm
  script := hm.reply_eq.trans h.script
  quiet hn := (h.quiet fun headers ha => hn headers (hm.answer_of_some ha)).step hm hn
  refused s ha := by
    cases hb : r.answer with
    | none =>
        rcases hm.refused_of_none hb ha with hr | ⟨cause, hf, rfl⟩
        · rw [h.script] at hr
          exact .inl ⟨r.received, hm.received_isPrefix, hr⟩
        · exact .inr ⟨cause, h.forwarding.failure cause hf, rfl⟩
    | some a =>
        obtain rfl : Except.error s = a := Option.some.inj (ha.symm.trans (hm.answer_of_some hb))
        refine (h.refused s hb).imp_left fun hgot => ?_
        obtain ⟨got, hprefix, hr⟩ := hgot
        exact ⟨got, hprefix.trans hm.received_isPrefix, hr⟩
  answered headers ha := by
    cases hb : r.answer with
    | none =>
        obtain ⟨messages, ending, hr, rfl⟩ := hm.answered_of_none hb ha
        have hquiet : Quiet r := h.quiet fun headers ha => by rw [hb] at ha; cases ha
        rw [h.script] at hr
        exact ⟨r.received, messages, ending, List.prefix_rfl, hr,
          hquiet.answered items headers messages ending⟩
    | some a =>
        obtain rfl : Except.ok headers = a := Option.some.inj (ha.symm.trans (hm.answer_of_some hb))
        obtain ⟨got, messages, ending, hprefix, hr, hd⟩ := h.answered headers hb
        exact ⟨got, messages, ending, hprefix.trans hm.received_isPrefix, hr,
          hd.step h.forwarding hb hm⟩

theorem Faithful.of_follow? {steps : List RelayStep}
    (h : (CallRelay.opening items reply).follow? steps = some r) : Faithful items reply r :=
  follow?_induction (P := fun _ => Faithful items reply) (Faithful.opening items reply)
    (fun _ _ _ _ hr hm => hr.step hm) h

end CallRelay

end InterceptingProxy
