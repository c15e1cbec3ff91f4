import InterceptingProxy.Proofs.Header.Removal
import InterceptingProxy.Proofs.Relay.Delivery

set_option autoImplicit false

/-! # What both ends of a call see

The destination receives the first messages of the caller, and the caller reads the first messages
of the destination; when the caller sees the end, or the destination's own last word, it has read
all of them. Only the failure of the caller's own stream cuts the messages short.

The last word of a destination that failed is its status as it is. One that finished well says
nothing more, unless it sent trailers beyond those of the status: then the caller gets a status of
code OK with these trailers and with no message, whatever the status of the destination said
(`CallRelay.ok_message_is_dropped`). -/

namespace InterceptingProxy

theorem leading_isPrefix_append (first second : List Item) :
    leading first <+: leading (first ++ second) := by
  cases hf : firstFailure? first with
  | none => rw [leading_append_of_clean hf]; exact List.prefix_append ..
  | some s => exact ⟨[], (List.append_nil _).trans (leading_append_of_failed hf second).symm⟩

namespace CallRelay

variable {items : List Item} {messages : List Bytes} {ending : Ending} {r : CallRelay}

/-- A failure that was read is the first one in the channel. -/
theorem out_of_read_failed {s : Status} (h : firstFailure? r.read = some s) :
    firstFailure? r.out = some s ∧ leading r.out = leading r.read := by
  refine ⟨?_, leading_append_of_failed h r.responses⟩
  rw [out, firstFailure?_append, h]
  rfl

/-- At the end everything was read, and nobody is left to send. -/
theorem out_eq_read_of_ended (h : r.ended = true) : r.out = r.read := by
  have hempty : r.responses = [] := List.isEmpty_iff.1 (Bool.and_eq_true_iff.1 h).1
  rw [out, hempty, List.append_nil]

theorem Delivery.returned_of_ended (h : Delivery items messages ending r) (he : r.ended = true) :
    r.arbiter = .returned := by
  have hresponding : r.responding = false := by simpa using (Bool.and_eq_true_iff.1 he).2
  have harb := h.arbiter
  -- an arbiter that has not returned keeps the channel open
  cases ha : r.arbiter with
  | absent => rw [ha] at harb; exact harb.elim
  | waiting => simp [responding, ha] at hresponding
  | announcing s => simp [responding, ha] at hresponding
  | returned => rfl

/-- The end of the stream without a failure is the end of the destination's messages. -/
theorem Delivery.completed_of_ended (h : Delivery items messages ending r) (he : r.ended = true)
    (hg : r.callerGone = false) (hc : firstFailure? r.read = none) :
    leading r.read = messages ∧ ∃ trailers, ending = .finished trailers ∧
      ∀ field ∈ trailers.fields, field.1 ∈ Status.fieldNames := by
  have hout : r.out = r.read := out_eq_read_of_ended he
  have harb := h.arbiter
  rw [h.returned_of_ended he] at harb
  rcases harb (by rw [hout]; exact hc) with hgone | ⟨_, hall, hend⟩
  · rw [hg] at hgone
    cases hgone
  · rw [hout] at hall
    rcases hend with ⟨trailers, hfinished, hnone⟩ | ⟨s, _, hsome⟩
    · exact ⟨hall, trailers, hfinished, trailers.trailerStatus?_eq_none_iff.1 hnone.symm⟩
    · cases hsome

/-- The last word of a destination, as its caller gets it. -/
def LastWord (ending : Ending) (s : Status) : Prop :=
  ending = .failed s ∨ ∃ trailers, ending = .finished trailers ∧
    (∃ field ∈ trailers.fields, field.1 ∉ Status.fieldNames) ∧
    s.code = .ok ∧ s.message = [] ∧ s.details = [] ∧
    ∀ name, s.metadata.values name =
      if name ∈ Status.fieldNames then [] else trailers.values name

theorem lastWord_of_completed {delivered : List Bytes} {s : Status}
    (h : Completed messages ending delivered (some s)) : LastWord ending s := by
  rcases h.2 with ⟨trailers, hfinished, hsome⟩ | ⟨s', hfailed, hsome⟩
  · obtain ⟨hcustom, rfl⟩ := (trailers.trailerStatus?_eq_some_iff s).1 hsome.symm
    exact .inr ⟨trailers, hfinished, hcustom, rfl, rfl, rfl,
      trailers.values_removeAll Status.fieldNames⟩
  · cases hsome
    exact .inl hfailed

theorem Delivery.read_failed (h : Delivery items messages ending r) {s : Status}
    (hs : firstFailure? r.read = some s) :
    (leading r.read = messages ∧ LastWord ending s) ∨ ReportsCaller items s := by
  obtain ⟨hout, hleading⟩ := out_of_read_failed hs
  rcases (h.failed s hout).2 with hcaller | hdone
  · exact .inr hcaller
  · rw [hleading] at hdone
    exact .inl ⟨hdone.1, lastWord_of_completed hdone⟩

/-- **Nothing is lost, doubled, changed or put in another order, in either direction.** Whatever
    the caller sends, however the destination answers to what it has received, and in whatever order
    the parties take their steps:

    * the destination has received the first of the caller's messages;
    * a call that fails without an answer fails with the destination's status or for the caller's
      own failure;
    * what the caller reads before a failure are the first of the destination's messages;
    * a caller that stays and sees the end without a failure has read all of them, and the
      destination has finished well with nothing more to say;
    * a failure that the caller reads is the destination's last word and comes after all its
      messages, or it reports the failure of the caller's own stream. -/
theorem relay_is_faithful {reply : List Bytes → Reply} {steps : List RelayStep}
    (h : (CallRelay.opening items reply).follow? steps = some r) :
    r.received <+: leading items ∧
    (∀ s, r.answer = some (.error s) →
      (∃ got, got <+: r.received ∧ reply got = .failed s) ∨ ReportsCaller items s) ∧
    ∀ headers, r.answer = some (.ok headers) → ∃ got messages ending,
      got <+: r.received ∧ reply got = .answered headers messages ending ∧
      leading r.read <+: messages ∧
      (r.ended = true → r.callerGone = false → firstFailure? r.read = none →
        leading r.read = messages ∧ ∃ trailers, ending = .finished trailers ∧
          ∀ field ∈ trailers.fields, field.1 ∈ Status.fieldNames) ∧
      ∀ s, firstFailure? r.read = some s →
        (leading r.read = messages ∧ LastWord ending s) ∨ ReportsCaller items s := by
  have hf : Faithful items reply r := .of_follow? h
  refine ⟨?_, hf.refused, fun headers ha => ?_⟩
  · exact (List.prefix_append ..).trans hf.forwarding.forwarder.isPrefix
  · obtain ⟨got, messages, ending, hprefix, hr, hd⟩ := hf.answered headers ha
    refine ⟨got, messages, ending, hprefix, hr, ?_, fun he hg hc => ?_, fun s hs => ?_⟩
    · exact (leading_isPrefix_append r.read r.responses).trans hd.isPrefix
    · exact hd.completed_of_ended he hg hc
    · exact hd.read_failed hs

/-- A call with a message in each direction whose destination finishes with custom trailers. -/
theorem exists_run_to_trailers {trailers : Headers} {s : Status}
    (hs : trailers.trailerStatus? = some s) (ping pong : Bytes) :
    ∃ r, (CallRelay.opening [.ok ping] fun _ => .answered {} [pong] (.finished trailers)).follow?
        [.poll, .push, .transmit, .answer, .receive, .deliver, .receive, .conclude,
          .heedConclusion, .announce, .read, .read] = some r ∧
      r.answer = some (.ok {}) ∧ r.read = [.ok pong, .error s] := by
  simp [CallRelay.opening, follow?, step?, lastStatus?, capacity, hs]

/-- Trailers of a destination that finished well, with a word and a checksum. -/
def wordyTrailers : Headers :=
  ⟨[("grpc-status".toList, ascii "0"), ("grpc-message".toList, ascii "hi"),
    ("x-checksum".toList, ascii "abc")]⟩

/-- What is left of them for the caller. -/
def checksumStatus : Status :=
  { code := .ok, metadata := ⟨[("x-checksum".toList, ascii "abc")]⟩ }

theorem trailerStatus?_wordyTrailers : wordyTrailers.trailerStatus? = some checksumStatus := by
  decide +kernel

theorem relay_is_faithful_to_trailers :
    ∃ r, (CallRelay.opening [.ok [1]] fun _ => .answered {} [[2]] (.finished wordyTrailers)).follow?
        [.poll, .push, .transmit, .answer, .receive, .deliver, .receive, .conclude,
          .heedConclusion, .announce, .read, .read] = some r ∧
      r.read = [.ok [2], .error checksumStatus] ∧ r.received <+: leading [.ok [1]] ∧
      ∃ messages ending, leading r.read <+: messages ∧
        ((leading r.read = messages ∧ LastWord ending checksumStatus) ∨
          ReportsCaller [.ok [1]] checksumStatus) := by
  obtain ⟨r, hrun, ha, hread⟩ := exists_run_to_trailers trailerStatus?_wordyTrailers [1] [2]
  obtain ⟨hreceived, _, hanswered⟩ := relay_is_faithful hrun
  obtain ⟨_, messages, ending, _, _, hprefix, _, hlast⟩ := hanswered {} ha
  exact ⟨r, hrun, hread, hreceived, messages, ending, hprefix, hlast _ (by rw [hread]; rfl)⟩

/-- The caller reads the destination's last word without the message that it came with. -/
theorem ok_message_is_dropped :
    ∃ own s r, Status.ofHeaders? wordyTrailers = some own ∧ own.message = "hi".toList ∧
      (CallRelay.opening [.ok [1]] fun _ => .answered {} [[2]] (.finished wordyTrailers)).follow?
        [.poll, .push, .transmit, .answer, .receive, .deliver, .receive, .conclude,
          .heedConclusion, .announce, .read, .read] = some r ∧
      firstFailure? r.read = some s ∧ s.message ≠ own.message := by
  have hown : Status.ofHeaders? wordyTrailers =
      some { checksumStatus with message := "hi".toList } := by
    decide +kernel
  obtain ⟨r, hrun, _, hread⟩ := exists_run_to_trailers trailerStatus?_wordyTrailers [1] [2]
  exact ⟨_, checksumStatus, r, hown, rfl, hrun, by rw [hread]; rfl, by decide +kernel⟩

end CallRelay

end InterceptingProxy
