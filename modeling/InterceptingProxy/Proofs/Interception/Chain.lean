import Mathlib.Tactic.Common
import InterceptingProxy.Proofs.Interception.Isolation

set_option autoImplicit false

/-! # The law of the chain

A `Member` is an interceptor that runs the rest of the chain once or not at all. To say what happens
on the way of a call, the members and the handler are watched: they are run by the same `runChain`,
and what happens is noted beside the state, which changes nothing else (`chain_watchedFrom`).
`Nested` has the form of such a note, one case for what a member can do, and the law of the chain is
read off it by induction. -/

namespace InterceptingProxy

variable {σ τ α : Type}

/-- What an interceptor does with a call. -/
inductive Conduct (σ : Type) where
  /-- It answers, fails or panics by itself. -/
  | alone (outcome : Outcome)
  /-- It runs the rest with a call of its choice, and then makes something of the result. -/
  | onward (call : Call) (after : CallResult → StateM σ Outcome)

/-- An interceptor that runs the rest of the chain at most once. -/
abbrev Member (σ : Type) := Call → StateM σ (Conduct σ)

namespace Member

def toInterceptor (m : Member σ) : Interceptor σ := fun call rest => do
  match ← m call with
  | .alone outcome => return outcome
  | .onward call after => after (← rest call)

/-- Passes call and result on. -/
def pass : Member σ := fun call => return .onward call fun result => return .returned result

theorem toInterceptor_pass : (pass : Member σ).toInterceptor = Interceptor.pass := rfl

end Member

/-- A chain of members that ends at a handler. -/
def chain (handler : Rest σ) (ms : List (Member σ)) : Rest σ :=
  runChain handler (ms.map Member.toInterceptor)

theorem bind_run {β : Type} {x : StateM σ α} {s s₁ : σ} {a : α} (hx : x s = (a, s₁))
    (f : α → StateM σ β) : (x >>= f) s = f a s₁ := by
  simp only [bind, StateT.bind, hx]

section Equations

variable {m : Member σ} {call call' : Call} {s s₁ s₂ s₃ : σ} {o : Outcome} {r : CallResult}
  {after : CallResult → StateM σ Outcome}

theorem chain_cons (handler : Rest σ) (ms : List (Member σ))
    (hm : m.toInterceptor call (chain handler ms) s = (o, s₁)) :
    chain handler (m :: ms) call s = (o.isolate, s₁) := by
  simp only [chain, List.map_cons, runChain] at hm ⊢
  rw [bind_run hm]
  rfl

theorem chain_cons_alone (hm : m call s = (.alone o, s₁)) (handler : Rest σ)
    (ms : List (Member σ)) : chain handler (m :: ms) call s = (o.isolate, s₁) := by
  apply chain_cons
  unfold Member.toInterceptor
  rw [bind_run hm]
  rfl

theorem chain_cons_onward {handler : Rest σ} {ms : List (Member σ)}
    (hm : m call s = (.onward call' after, s₁)) (hrest : chain handler ms call' s₁ = (r, s₂))
    (hafter : after r s₂ = (o, s₃)) : chain handler (m :: ms) call s = (o.isolate, s₃) := by
  apply chain_cons
  unfold Member.toInterceptor
  rw [bind_run hm]
  simp only
  rw [bind_run hrest, hafter]

end Equations

/-! ## Watching a chain -/

/-- What happens on the way of a call. -/
inductive Visit where
  /-- The member of the given position gets a call. -/
  | entered (position : Nat) (call : Call)
  /-- What the rest of the chain has returned to the member of the given position. -/
  | ran (position : Nat) (call : Call) (result : CallResult)
  /-- The member of the given position is through. -/
  | left (position : Nat) (outcome : Outcome)
  /-- The handler gets a call and answers it. -/
  | handled (call : Call) (result : CallResult)

namespace Visit

def entered? : Visit → Option Nat
  | .entered position _ => some position
  | _ => none

def left? : Visit → Option Nat
  | .left position _ => some position
  | _ => none

def handled? : Visit → Option Call
  | .handled call _ => some call
  | _ => none

end Visit

/-- Runs beside a state that stays as it is. -/
def beside (x : StateM σ α) : StateM (σ × τ) α := fun s =>
  ((x s.1).1, ((x s.1).2, s.2))

theorem beside_run {x : StateM σ α} {s s₁ : σ} {a : α} (hx : x s = (a, s₁)) (t : τ) :
    beside x (s, t) = (a, (s₁, t)) := by
  simp only [beside, hx]

def see (v : Visit) : StateM (σ × List Visit) Unit := modify fun s => (s.1, s.2 ++ [v])

theorem see_run (v : Visit) (s : σ) (log : List Visit) :
    see v (s, log) = ((), (s, log ++ [v])) := rfl

namespace Member

def watched (position : Nat) (m : Member σ) : Member (σ × List Visit) := fun call => do
  see (.entered position call)
  match ← beside (m call) with
  | .alone outcome =>
    see (.left position outcome)
    return .alone outcome
  | .onward call after =>
    return .onward call fun result => do
      see (.ran position call result)
      let outcome ← beside (after result)
      see (.left position outcome)
      return outcome

theorem watched_alone {m : Member σ} {call : Call} {s s₁ : σ} {o : Outcome}
    (hm : m call s = (.alone o, s₁)) (n : Nat) (log : List Visit) :
    m.watched n call (s, log) =
      (.alone o, (s₁, log ++ [.entered n call] ++ [.left n o])) := by
  unfold watched
  rw [bind_run (see_run _ s log), bind_run (beside_run hm _)]
  rfl

/-- What a watched member does when the rest has returned. -/
def afterwards (n : Nat) (call : Call) (after : CallResult → StateM σ Outcome) (r : CallResult) :
    StateM (σ × List Visit) Outcome := do
  see (.ran n call r)
  let outcome ← beside (after r)
  see (.left n outcome)
  return outcome

theorem watched_onward {m : Member σ} {call call' : Call} {s s₁ : σ}
    {after : CallResult → StateM σ Outcome} (hm : m call s = (.onward call' after, s₁)) (n : Nat)
    (log : List Visit) :
    m.watched n call (s, log) =
      (.onward call' (afterwards n call' after), (s₁, log ++ [.entered n call])) := by
  unfold watched
  rw [bind_run (see_run _ s log), bind_run (beside_run hm _)]
  rfl

theorem afterwards_run {after : CallResult → StateM σ Outcome} {r : CallResult} {s s₁ : σ}
    {o : Outcome} (hafter : after r s = (o, s₁)) (n : Nat) (call : Call) (log : List Visit) :
    afterwards n call after r (s, log) = (o, (s₁, log ++ [.ran n call r] ++ [.left n o])) := by
  unfold afterwards
  rw [bind_run (see_run _ s log), bind_run (beside_run hafter _)]
  rfl

end Member

def watchedHandler (handler : Rest σ) : Rest (σ × List Visit) := fun call => do
  let result ← beside (handler call)
  see (.handled call result)
  return result

/-- Watches members whose positions start at the given one. -/
def watchedFrom : Nat → List (Member σ) → List (Member (σ × List Visit))
  | _, [] => []
  | n, m :: ms => m.watched n :: watchedFrom (n + 1) ms

/-- The visits of the members from position `n` on, the last one being before position `last`. -/
inductive Nested (last : Nat) : Nat → Call → List Visit → CallResult → Prop
  | handled (call : Call) (result : CallResult) :
      Nested last last call [.handled call result] result
  | alone (n : Nat) (call : Call) (o : Outcome) (hn : n < last) :
      Nested last n call [.entered n call, .left n o] o.isolate
  | onward (n : Nat) (call call' : Call) (visits : List Visit) (r : CallResult) (o : Outcome)
      (hn : n < last) (hrest : Nested last (n + 1) call' visits r) :
      Nested last n call (.entered n call :: visits ++ [.ran n call' r, .left n o]) o.isolate

/-- Watching changes neither result nor state, and what is seen is nested. -/
theorem chain_watchedFrom (handler : Rest σ) (ms : List (Member σ)) (n : Nat) (call : Call) (s : σ)
    (log : List Visit) :
    ∃ visits,
      chain (watchedHandler handler) (watchedFrom n ms) call (s, log) =
        ((chain handler ms call s).1, ((chain handler ms call s).2, log ++ visits)) ∧
      Nested (n + ms.length) n call visits (chain handler ms call s).1 := by
  induction ms generalizing n call s log with
  | nil => exact ⟨[.handled call (handler call s).1], rfl, .handled call (handler call s).1⟩
  | cons m ms ih =>
      have hn : n < n + (m :: ms).length := by
        simp only [List.length_cons]
        omega
      rcases hm : m call s with ⟨conduct, s₁⟩
      cases conduct with
      | alone o =>
          have hrun := chain_cons_alone (Member.watched_alone hm n log) (watchedHandler handler)
            (watchedFrom (n + 1) ms)
          rw [chain_cons_alone hm]
          refine ⟨[.entered n call, .left n o], ?_, .alone n call o hn⟩
          simpa [watchedFrom] using hrun
      | onward call' after =>
          rcases hrest : chain handler ms call' s₁ with ⟨r, s₂⟩
          rcases hafter : after r s₂ with ⟨o, s₃⟩
          obtain ⟨visits, hwatched, hnested⟩ := ih (n + 1) call' s₁ (log ++ [.entered n call])
          rw [hrest] at hwatched hnested
          rw [chain_cons_onward hm hrest hafter]
          refine ⟨.entered n call :: visits ++ [.ran n call' r, .left n o], ?_, ?_⟩
          · have hleft := Member.afterwards_run hafter n call' (log ++ [.entered n call] ++ visits)
            have hrun := chain_cons_onward (Member.watched_onward hm n log) hwatched hleft
            simpa [watchedFrom] using hrun
          · have hlast : n + (m :: ms).length = n + 1 + ms.length := by
              simp only [List.length_cons]
              omega
            rw [hlast] at hn ⊢
            exact .onward n call call' visits r o hn hnested

/-- The handler is not reached behind a member that panics, and the member before sees a failure. -/
example (handler : Rest σ) (call : Call) (s : σ) :
    let boom : Panic := .literal "boom".toList
    let failed : CallResult := .error (.internal "proxy error: boom".toList)
    chain (watchedHandler handler)
        (watchedFrom 0 [Member.pass, fun _ => return .alone (.panicked boom)]) call (s, []) =
      (failed, (s, [.entered 0 call, .entered 1 call, .left 1 (.panicked boom),
        .ran 0 call failed, .left 0 (.returned failed)])) := rfl

/-! ## What is read off the visits -/

/-- Where the result of the chain from position `n` on comes from. -/
def Produced (visits : List Visit) (last n : Nat) (call : Call) (result : CallResult) : Prop :=
  (n < last ∧ .entered n call ∈ visits ∧ ∃ o, .left n o ∈ visits ∧ Shows o result) ∨
  (n = last ∧ .handled call result ∈ visits)

theorem Produced.mono {visits visits' : List Visit} {last n : Nat} {call : Call}
    {result : CallResult} (h : Produced visits last n call result) (hsub : visits ⊆ visits') :
    Produced visits' last n call result := by
  rcases h with ⟨hn, hentered, o, hleft, hshows⟩ | ⟨hn, hhandled⟩
  · exact .inl ⟨hn, hsub hentered, o, hsub hleft, hshows⟩
  · exact .inr ⟨hn, hsub hhandled⟩

namespace Nested

variable {last n : Nat} {call : Call} {visits : List Visit} {result : CallResult}

/-- The members are entered in order from `n` on, and left in the opposite order. -/
theorem inOrder (h : Nested last n call visits result) :
    ∃ k, n + k ≤ last ∧ visits.filterMap Visit.entered? = List.range' n k ∧
      visits.filterMap Visit.left? = (List.range' n k).reverse := by
  induction h with
  | handled call result => exact ⟨0, by omega, rfl, rfl⟩
  | alone n call o hn => exact ⟨1, by omega, rfl, rfl⟩
  | onward n call call' visits r o hn hrest ih =>
      obtain ⟨k, hk, hentered, hleft⟩ := ih
      refine ⟨k + 1, by omega, ?_, ?_⟩
      · simp [List.filterMap_cons, Visit.entered?, hentered, List.range'_succ]
      · simp [List.filterMap_cons, Visit.left?, hleft, List.range'_succ]

theorem handled_once (h : Nested last n call visits result) :
    (visits.filterMap Visit.handled?).length ≤ 1 := by
  induction h with
  | handled call result => exact Nat.le_refl 1
  | alone n call o hn => exact Nat.zero_le 1
  | onward n call call' visits r o hn hrest ih =>
      simpa [List.filterMap_cons, Visit.handled?] using ih

/-- The handler is reached if and only if every member has run the rest. -/
theorem handled_iff (h : Nested last n call visits result) :
    (∃ c r, .handled c r ∈ visits) ↔
      ∀ i, n ≤ i → i < last → ∃ c r, .ran i c r ∈ visits := by
  induction h with
  | handled call result =>
      constructor
      · intro _ i hi hlast
        omega
      · intro _
        exact ⟨call, result, List.mem_singleton.2 rfl⟩
  | alone n call o hn =>
      constructor
      · rintro ⟨c, r, hmem⟩
        simp at hmem
      · intro hran
        obtain ⟨c, r, hmem⟩ := hran n (Nat.le_refl n) hn
        simp at hmem
  | onward n call call' visits r o hn hrest ih =>
      constructor
      · rintro ⟨c, r', hmem⟩ i hi hlast
        have hinner : ∃ c r, .handled c r ∈ visits := ⟨c, r', by simpa using hmem⟩
        by_cases hin : i = n
        · subst hin
          exact ⟨call', r, by simp⟩
        · obtain ⟨c', r'', hran⟩ := ih.1 hinner i (by omega) hlast
          exact ⟨c', r'', by simp [hran]⟩
      · intro hran
        have hinner : ∀ i, n + 1 ≤ i → i < last → ∃ c r, .ran i c r ∈ visits := by
          intro i hi hlast
          obtain ⟨c, r', hmem⟩ := hran i (by omega) hlast
          have hne : i ≠ n := by omega
          exact ⟨c, r', by simpa [hne] using hmem⟩
        obtain ⟨c, r', hmem⟩ := ih.2 hinner
        exact ⟨c, r', by simp [hmem]⟩

theorem produced (h : Nested last n call visits result) : Produced visits last n call result := by
  cases h with
  | handled call result => exact .inr ⟨rfl, List.mem_singleton.2 rfl⟩
  | alone n call o hn => exact .inl ⟨hn, by simp, o, by simp, shows_isolate o⟩
  | onward n call call' visits r o hn hrest => exact .inl ⟨hn, by simp, o, by simp, shows_isolate o⟩

/-- What the rest of the chain has returned to a member is what the rest has produced. -/
theorem ran (h : Nested last n call visits result) {i : Nat} {c : Call} {r : CallResult}
    (hran : .ran i c r ∈ visits) : Produced visits last (i + 1) c r := by
  induction h with
  | handled call result => simp at hran
  | alone n call o hn => simp at hran
  | onward n call call' visits r' o hn hrest ih =>
      have hsub : visits ⊆ .entered n call :: visits ++ [.ran n call' r', .left n o] := by
        intro v hv
        simp [hv]
      rcases List.mem_append.1 hran with hran | hran
      · have hinner : .ran i c r ∈ visits := by simpa using hran
        exact (ih hinner).mono hsub
      · have heq : i = n ∧ c = call' ∧ r = r' := by simpa using hran
        obtain ⟨rfl, rfl, rfl⟩ := heq
        exact hrest.produced.mono hsub

end Nested

/-- What is known of the visits of a chain of the given length, of what it was called with and of
what it returned. -/
structure Lawful (length : Nat) (call : Call) (visits : List Visit) (result : CallResult) :
    Prop where
  /-- The members that get a call are the first ones, each gets one, and in their order. -/
  inOrder : ∃ k ≤ length, visits.filterMap Visit.entered? = List.range k ∧
    visits.filterMap Visit.left? = (List.range k).reverse
  handledOnce : (visits.filterMap Visit.handled?).length ≤ 1
  handled_iff : (∃ c r, .handled c r ∈ visits) ↔ ∀ i < length, ∃ c r, .ran i c r ∈ visits
  produced : Produced visits length 0 call result
  ran : ∀ i c r, .ran i c r ∈ visits → Produced visits length (i + 1) c r

theorem Nested.lawful {length : Nat} {call : Call} {visits : List Visit} {result : CallResult}
    (h : Nested length 0 call visits result) : Lawful length call visits result where
  inOrder := by
    obtain ⟨k, hk, hentered, hleft⟩ := h.inOrder
    exact ⟨k, by omega, by rw [hentered, List.range_eq_range'],
      by rw [hleft, List.range_eq_range']⟩
  handledOnce := h.handled_once
  handled_iff := by
    rw [h.handled_iff]
    exact ⟨fun hran i hi => hran i (Nat.zero_le i) hi, fun hran i _ hi => hran i hi⟩
  produced := h.produced
  ran := fun _ _ _ hran => h.ran hran

/-! ## Panics and transparency -/

/-- A handler whose streams can all be polled to their ends. -/
def Rest.Quiet (rest : Rest σ) : Prop :=
  ∀ call s a, (rest call s).1 = .ok a → a.stream.Quiet

theorem MessageStream.quiet_ofItems (items : List Item) : (ofItems items).Quiet := by
  intro p hp
  obtain ⟨i, _, hi⟩ := List.mem_map.1 hp
  cases hi

theorem relay_quiet {h : Handler} {plan : CallRelay.Plan} {channel : Channel} {path : PathAndQuery}
    {metadata : Headers} {inbound : MessageStream} {s : Surroundings} {a : Answer}
    (ha : (h.relay plan channel path metadata inbound s).1 = .ok a) : a.stream.Quiet := by
  unfold Handler.relay at ha
  split at ha
  · cases ha
  · split at ha
    · cases ha
    · dsimp only at ha
      split at ha
      · cases ha
        exact MessageStream.quiet_ofItems _
      · cases ha
      · cases ha

theorem handle_quiet (h : Handler) (plan : CallRelay.Plan) : Rest.Quiet (h.handle plan) := by
  intro call s a ha
  unfold Handler.handle Handler.handleBy at ha
  split at ha
  · cases ha
  · split at ha
    · cases ha
    · exact relay_quiet ha

theorem beside_quiet {rest : Rest σ} (h : rest.Quiet) :
    Rest.Quiet (fun call => beside (rest call) : Rest (σ × τ)) :=
  fun call s a ha => h call s.1 a ha

theorem chain_quiet {handler : Rest σ} (h : handler.Quiet) (ms : List (Member σ)) :
    (chain handler ms).Quiet := by
  cases ms with
  | nil => exact h
  | cons m ms =>
      intro call s a ha
      obtain ⟨visits, -, hnested⟩ := chain_watchedFrom handler (m :: ms) 0 call s []
      rw [ha] at hnested
      rcases hnested.produced with ⟨-, -, o, -, hshows⟩ | ⟨hlast, -⟩
      · exact hshows.quiet
      · simp at hlast

/-- Members that only pass call and result on change nothing. -/
theorem chain_pass {handler : Rest σ} (h : handler.Quiet) {ms : List (Member σ)}
    (hpass : ∀ m ∈ ms, m = Member.pass) : chain handler ms = handler := by
  induction ms with
  | nil => rfl
  | cons m ms ih =>
      have hm : m = Member.pass := hpass m List.mem_cons_self
      have hms := ih fun m' hm' => hpass m' (List.mem_cons_of_mem m hm')
      subst hm
      funext call s
      rcases hrest : handler call s with ⟨r, s₁⟩
      have hself : Outcome.isolate (.returned r) = r := by
        cases r with
        | error status => rfl
        | ok a =>
            have hquiet : a.stream.Quiet := h call s a (by rw [hrest])
            simp only [Outcome.isolate, MessageStream.guard_eq_self hquiet]
      rw [← hms] at hrest
      rw [chain_cons_onward (m := Member.pass) rfl hrest rfl, hself]

theorem runChain_pass (h : Handler) (plan : CallRelay.Plan) (n : Nat) :
    runChain (h.handle plan) (List.replicate n Interceptor.pass) = h.handle plan := by
  have hchain : chain (h.handle plan) (List.replicate n Member.pass) = h.handle plan :=
    chain_pass (handle_quiet h plan) fun m hm => (List.mem_replicate.1 hm).2
  rw [chain, List.map_replicate, Member.toInterceptor_pass] at hchain
  exact hchain

/-- The law of the chain, for interceptors with a state of their own beside the surroundings: what
happens on the way of a call is lawful, nothing that is seen of it panics, and members that only
pass call and result on are not noticed. -/
theorem chain_law {own : Type} (h : Handler) (plan : CallRelay.Plan)
    (ms : List (Member (Surroundings × own))) (call : Call) (s : Surroundings × own) :
    let handler : Rest (Surroundings × own) := fun call => beside (h.handle plan call)
    ∃ result after visits,
      chain handler ms call s = (result, after) ∧
      chain (watchedHandler handler) (watchedFrom 0 ms) call (s, []) = (result, (after, visits)) ∧
      Lawful ms.length call visits result ∧
      (∀ a, result = .ok a → a.stream.Quiet) ∧
      ((∀ m ∈ ms, m = Member.pass) → (result, after.1) = h.handle plan call s.1) := by
  intro handler
  have hquiet : handler.Quiet := beside_quiet (handle_quiet h plan)
  obtain ⟨visits, hwatched, hnested⟩ := chain_watchedFrom handler ms 0 call s []
  rw [Nat.zero_add] at hnested
  refine ⟨(chain handler ms call s).1, (chain handler ms call s).2, visits, rfl, hwatched,
    hnested.lawful, chain_quiet hquiet ms call s, ?_⟩
  intro hpass
  rw [chain_pass hquiet hpass]
  rfl

theorem chain_law_two_passes :
    let h : Handler := { proxyId := "p".toList }
    let s : Surroundings := { destinations :=
      { dialResult := fun _ => .ok (), reaction := fun _ => { reply := fun _ => .silent } } }
    let call : Call := { info := { method := "/a.B/C".toList } }
    let failed : CallResult := .error (.unimplemented "no proxy destination configured".toList)
    ∃ visits,
      Lawful 2 call visits failed ∧ (failed, s) = h.handle {} call s := by
  intro h s call failed
  obtain ⟨result, after, visits, hrun, -, hlawful, -, htransparent⟩ :=
    chain_law h {} [Member.pass, Member.pass] call (s, ())
  have hpass : ∀ m ∈ ([Member.pass, Member.pass] : List (Member (Surroundings × Unit))),
      m = Member.pass := by
    simp
  have hresult : (failed, (s, ())) = (result, after) := hrun
  obtain ⟨rfl, rfl⟩ := Prod.mk.inj hresult
  exact ⟨visits, hlawful, htransparent hpass⟩

end InterceptingProxy
