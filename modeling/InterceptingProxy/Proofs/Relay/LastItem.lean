import InterceptingProxy.Proofs.Relay.Delivery

set_option autoImplicit false

/-! # Behind a failure in the response channel

The arbiter puts at most one failure into the response channel, and then it returns. The return
aborts the backward task, but in a step of its own: a message that the backward task has in hand, or
takes while it still runs, comes behind the failure. `CallRelay.Slips` is the state in which that
can still happen, and the last word of a destination is never put in such a state, because it was
reported by a backward task that has returned. -/

namespace InterceptingProxy

/-- Whether the backward task has a message in hand or is going to take one. -/
def Backward.isLoaded (coming : List Bytes) : Backward → Bool
  | .holding _ => true
  | .idle => !coming.isEmpty
  | .absent | .concluding _ | .returned | .aborted => false

namespace CallRelay

variable {items : List Item} {reply : List Bytes → Reply} {r r' : CallRelay}

/-- A message can still be put into the channel for a caller that is there. -/
def Slips (r : CallRelay) : Prop :=
  r.callerGone = false ∧ r.backward.isLoaded r.coming = true

/-! ## Only messages follow -/

/-- What comes into the channel behind the arbiter is a message. -/
theorem Moves.out_of_returned {e : RelayStep} (hm : Moves r e r') (h : r.arbiter = .returned) :
    r'.out = r.out ∨ r.Slips ∧ ∃ m, r'.out = r.out ++ [.ok m] := by
  cases hm with
  | deliver m hb hg hroom =>
      exact .inr ⟨⟨hg, by rw [hb]; rfl⟩, m, (List.append_assoc ..).symm⟩
  | announce s ha =>
      rw [h] at ha
      cases ha
  | read i rest hg hr =>
      refine .inl ?_
      simp only [out, hr, List.append_assoc, List.cons_append, List.nil_append]
  | _ => exact .inl rfl

/-- Neither the arbiter nor a message that can slip in comes back. -/
theorem Moves.slips_of_returned {e : RelayStep} (hm : Moves r e r') (hn : r.answer ≠ none)
    (h : r.arbiter = .returned) : r'.arbiter = .returned ∧ (r'.Slips → r.Slips) := by
  cases hm with
  | answered headers messages ending ha => exact absurd ha hn
  | heedFailure s ha | heedStatus c s ha | heedEnd c ha | heedCaller ha | announceGone s ha =>
      rw [h] at ha
      cases ha
  | announce s ha =>
      rw [h] at ha
      cases ha
  | receive m rest hb hc =>
      refine ⟨h, fun hs => ⟨hs.1, ?_⟩⟩
      rw [hb, hc]
      rfl
  | deliver m hb hg hroom =>
      refine ⟨h, fun _ => ⟨hg, ?_⟩⟩
      rw [hb]
      rfl
  | receiveEnd | receiveFailure | deliverGone | conclude | abortBackward =>
      exact ⟨h, fun hs => by cases hs.2⟩
  | leaveAnswered | leaveUnanswered => exact ⟨h, fun hs => by cases hs.1⟩
  | _ => exact ⟨h, id⟩

/-- Behind the arbiter the channel takes messages only, and none if none can slip in. -/
theorem out_of_follow? {steps : List RelayStep} (hn : r.answer ≠ none)
    (ha : r.arbiter = .returned) (h : r.follow? steps = some r') :
    ∃ late : List Bytes, r'.out = r.out ++ late.map .ok ∧ (¬ r.Slips → late = []) := by
  induction steps generalizing r with
  | nil =>
      cases h
      exact ⟨[], (List.append_nil _).symm, fun _ => rfl⟩
  | cons e rest ih =>
      obtain ⟨next, hstep, hrest⟩ := Option.bind_eq_some_iff.1 h
      have hm : Moves r e next := .of_step? hstep
      obtain ⟨hreturned, hslips⟩ := hm.slips_of_returned hn ha
      have hanswer : next.answer ≠ none := by
        obtain ⟨a, hsome⟩ := Option.ne_none_iff_exists'.1 hn
        rw [hm.answer_of_some hsome]
        exact Option.some_ne_none a
      obtain ⟨late, hlate, hnone⟩ := ih hanswer hreturned hrest
      rcases hm.out_of_returned ha with hout | ⟨hs, m, hout⟩
      · exact ⟨late, by rw [hlate, hout], fun hs => hnone fun hnext => hs (hslips hnext)⟩
      · refine ⟨m :: late, ?_, fun hs' => absurd hs hs'⟩
        rw [hlate, hout]
        simp only [List.map_cons, List.append_assoc, List.cons_append, List.nil_append]

/-! ## A message can follow -/

/-- A caller that reads everything makes room. -/
theorem follow?_reads {waiting : List Item} (hg : r.callerGone = false)
    (hr : r.responses = waiting) :
    r.follow? (List.replicate waiting.length .read) =
      some { r with responses := [], read := r.read ++ waiting } := by
  induction waiting generalizing r with
  | nil =>
      have hsame : { r with responses := [], read := r.read ++ [] } = r := by
        rw [List.append_nil, ← hr]
      rw [hsame]
      rfl
  | cons i rest ih =>
      have hread : r.step? .read = some { r with responses := rest, read := r.read ++ [i] } := by
        simp only [step?, hg, hr]
      have hrest := ih (r := { r with responses := rest, read := r.read ++ [i] }) hg rfl
      simp only [List.length_cons, List.replicate_succ, follow?, hread, Option.bind_some, hrest,
        List.append_assoc, List.cons_append, List.nil_append]

/-- A message in hand is put into the channel once there is room. -/
theorem exists_late_of_holding {m : Bytes} (hg : r.callerGone = false)
    (hb : r.backward = .holding m) :
    ∃ steps r', r.follow? steps = some r' ∧ r'.out = r.out ++ [.ok m] := by
  refine ⟨List.replicate r.responses.length .read ++ [.deliver],
    { r with backward := .idle, responses := [.ok m], read := r.out }, ?_, rfl⟩
  rw [follow?_append, follow?_reads hg rfl]
  simp [follow?, step?, hb, hg, capacity, out]

theorem Slips.exists_late (h : r.Slips) :
    ∃ steps r' m, r.follow? steps = some r' ∧ r'.out = r.out ++ [.ok m] := by
  obtain ⟨hg, hloaded⟩ := h
  cases hb : r.backward with
  | holding m =>
      obtain ⟨steps, r', hrun, hout⟩ := exists_late_of_holding hg hb
      exact ⟨steps, r', m, hrun, hout⟩
  | idle =>
      cases hc : r.coming with
      | nil =>
          rw [hb, hc] at hloaded
          cases hloaded
      | cons m rest =>
          have hreceive : r.step? .receive =
              some { r with backward := .holding m, coming := rest } := by
            simp only [step?, hb, hc]
          obtain ⟨steps, r', hrun, hout⟩ := exists_late_of_holding
            (r := { r with backward := .holding m, coming := rest }) hg rfl
          exact ⟨.receive :: steps, r', m, by rw [follow?, hreceive]; exact hrun, hout⟩
  | absent | concluding | returned | aborted =>
      rw [hb] at hloaded
      cases hloaded

/-! ## Which failures can be followed -/

/-- A failure that does not report the caller's comes from a backward task that has returned. -/
def Settled (items : List Item) (r : CallRelay) : Prop :=
  ∀ s, firstFailure? r.out = some s → ReportsCaller items s ∨ r.backward = .returned

theorem Settled.frame (h : Settled items r) (hout : r'.out = r.out)
    (hb : r.backward = .returned → r'.backward = .returned) : Settled items r' := by
  intro s hs
  rw [hout] at hs
  exact (h s hs).imp_right hb

/-- The arbiter announces the caller's failure, or what a returned backward task has reported. -/
theorem Faithful.announcing (hf : Faithful items reply r) {s : Status}
    (ha : r.arbiter = .announcing s) :
    firstFailure? r.out = none ∧ (ReportsCaller items s ∨ r.backward = .returned) := by
  by_cases hok : ∃ headers, r.answer = some (.ok headers)
  · obtain ⟨headers, hanswer⟩ := hok
    obtain ⟨got, messages, ending, -, -, hd⟩ := hf.answered headers hanswer
    have hwhy := hd.arbiter
    rw [ha] at hwhy
    exact ⟨hd.clean (by rw [ha]; exact Arbiter.noConfusion), hwhy.imp_right fun hdone => hdone.1⟩
  · have hquiet := hf.quiet (not_exists.1 hok)
    rw [hquiet.arbiter] at ha
    cases ha

theorem Settled.step {e : RelayStep} (h : Settled items r) (hf : Faithful items reply r)
    (hm : Moves r e r') : Settled items r' := by
  cases hm with
  | answered headers messages ending ha =>
      have hquiet := hf.quiet fun headers hok => by
        rw [ha] at hok
        cases hok
      refine h.frame rfl fun hb => ?_
      rw [hquiet.backward] at hb
      cases hb
  | receive m rest hb | receiveEnd trailers hb | receiveFailure s hb | deliverGone m hb =>
      exact h.frame rfl fun hreturned => by
        rw [hb] at hreturned
        cases hreturned
  | deliver m hb hg hroom =>
      intro s hs
      have hout : firstFailure? r.out = some s := by
        rw [out, ← List.append_assoc, firstFailure?_append] at hs
        simpa [out] using hs
      rcases h s hout with hcaller | hreturned
      · exact .inl hcaller
      · rw [hb] at hreturned
        cases hreturned
  | conclude c exchange hb hx => exact fun s _ => .inr rfl
  | announce s ha hg hroom =>
      obtain ⟨hclean, hwhy⟩ := hf.announcing ha
      intro s' hs'
      rw [out, ← List.append_assoc, firstFailure?_append] at hs'
      have hsame : s = s' := by
        rw [out] at hclean
        simpa [hclean] using hs'
      exact hsame ▸ hwhy
  | abortBackward exchange ha hb hx =>
      refine h.frame rfl fun hreturned => ?_
      rw [hreturned] at hb
      cases hb
  | read i rest hg hr =>
      refine h.frame ?_ id
      simp only [out, hr, List.append_assoc, List.cons_append, List.nil_append]
  | _ => exact h.frame rfl id

theorem Settled.of_follow? {steps : List RelayStep}
    (h : (CallRelay.opening items reply).follow? steps = some r) : Settled items r := by
  have hboth : Faithful items reply r ∧ Settled items r :=
    follow?_induction (P := fun _ r => Faithful items reply r ∧ Settled items r)
      ⟨Faithful.opening items reply, fun s hs => by cases hs⟩
      (fun _ _ _ _ hr hm => ⟨hr.1.step hm, hr.2.step hr.1 hm⟩) h
  exact hboth.2

/-- A failure in the channel was put there by an arbiter that has returned. -/
theorem Faithful.returned_of_failed (hf : Faithful items reply r) {s : Status}
    (hs : firstFailure? r.out = some s) : r.answer ≠ none ∧ r.arbiter = .returned := by
  by_cases hok : ∃ headers, r.answer = some (.ok headers)
  · obtain ⟨headers, hanswer⟩ := hok
    obtain ⟨got, messages, ending, -, -, hd⟩ := hf.answered headers hanswer
    exact ⟨by rw [hanswer]; exact Option.some_ne_none _, (hd.failed s hs).1⟩
  · have hquiet := hf.quiet (not_exists.1 hok)
    rw [hquiet.out] at hs
    cases hs

/-- **What follows a failure in the response channel.** Whatever run has put a failure there, only
    messages come behind it, never another failure. One can come if and only if the caller is there
    and the backward task, not yet aborted, has a message in hand or is going to take one; and then
    the failure is that of the caller's own stream. -/
theorem what_follows_a_failure {steps : List RelayStep} {s : Status}
    (h : (CallRelay.opening items reply).follow? steps = some r)
    (hs : firstFailure? r.out = some s) :
    (∀ rest r', r.follow? rest = some r' →
      ∃ late : List Bytes, r'.out = r.out ++ late.map .ok) ∧
    ((∃ rest r', r.follow? rest = some r' ∧ r'.out ≠ r.out) ↔ r.Slips) ∧
    (r.Slips → ReportsCaller items s) := by
  have hf : Faithful items reply r := .of_follow? h
  obtain ⟨hanswer, hreturned⟩ := hf.returned_of_failed hs
  refine ⟨?_, ⟨?_, ?_⟩, ?_⟩
  · intro rest r' hrest
    obtain ⟨late, hlate, -⟩ := out_of_follow? hanswer hreturned hrest
    exact ⟨late, hlate⟩
  · rintro ⟨rest, r', hrest, hne⟩
    obtain ⟨late, hlate, hnone⟩ := out_of_follow? hanswer hreturned hrest
    by_contra hslips
    rw [hnone hslips] at hlate
    exact hne (hlate.trans (List.append_nil _))
  · intro hslips
    obtain ⟨rest, r', m, hrest, hout⟩ := hslips.exists_late
    refine ⟨rest, r', hrest, ?_⟩
    rw [hout]
    simp
  · intro hslips
    rcases Settled.of_follow? h s hs with hcaller | hback
    · exact hcaller
    · have hloaded := hslips.2
      rw [hback] at hloaded
      cases hloaded

/-- The message that the backward task has in hand when the failure is put into the channel. -/
theorem message_behind_failure :
    ∃ r, (CallRelay.opening [.error (.internal [])] fun _ => .answered {} [[1]] .never).follow?
        [.poll, .answer, .receive, .report, .heedFailure, .announce, .deliver] = some r ∧
      r.out = [.error (callerFailure (.internal [])), .ok [1]] :=
  ⟨_, rfl, rfl⟩

end CallRelay

end InterceptingProxy
