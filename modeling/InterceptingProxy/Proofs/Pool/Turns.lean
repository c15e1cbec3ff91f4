import InterceptingProxy.Proofs.Pool.Calls

set_option autoImplicit false

/-! # Callers that take turns

`Pool.getAll` lets a group of callers take turns until all are done. That is one of the orders that
`PoolCalls.run?` allows, so whatever holds after every run holds of it
(`PoolCalls.exists_run?_getAll`). -/

namespace InterceptingProxy

namespace PoolCalls

variable {σ : Type} (connect : Channel → σ → Except PoolError Unit × σ)

/-- A turn is a step of the caller, or nothing. -/
theorem turn_eq_or_move? (p : Pool) (c : PoolCaller) (world : σ) :
    (p.turn connect c world).1 = (c, p) ∨
      ∃ m, p.move? c m = some (p.turn connect c world).1 := by
  have hmoved : ∀ m, (p.move? c m).getD (c, p) = (c, p) ∨
      ∃ m', p.move? c m' = some ((p.move? c m).getD (c, p)) := by
    intro m
    cases hm : p.move? c m with
    | none => exact .inl rfl
    | some next => exact .inr ⟨m, hm⟩
  unfold Pool.turn
  split
  · exact hmoved .lookUp
  · split
    · exact hmoved (.dial _)
    · exact hmoved .take
  · exact hmoved .conclude
  · exact hmoved .forget
  · exact .inl rfl

/-- The turns of some of the callers, those before them having had theirs. -/
theorem exists_run?_round (p : Pool) (world : σ) (callers before : List PoolCaller)
    (made : List Channel) :
    ∃ events made',
      ({ pool := p, callers := before ++ callers, made } : PoolCalls).run? events =
        some
          { pool := (p.round connect world callers).2.1
            callers := before ++ (p.round connect world callers).1
            made := made' } := by
  induction callers generalizing p world before made with
  | nil => exact ⟨[], made, rfl⟩
  | cons c rest ih =>
      have hmove := turn_eq_or_move? connect p c world
      rw [Pool.round]
      generalize p.turn connect c world = turned at hmove
      obtain ⟨⟨c', p'⟩, world'⟩ := turned
      -- the first caller's turn, after which it stands with those before it
      have hfirst : ∃ events made',
          ({ pool := p, callers := before ++ c :: rest, made } : PoolCalls).run? events =
            some { pool := p', callers := (before ++ [c']) ++ rest, made := made' } := by
        rcases hmove with heq | ⟨m, hm⟩
        · cases heq
          exact ⟨[], made, by simp [run?]⟩
        · exact ⟨[.move before.length m], made ++ c.brings m, by simp [run?, step?, hm]⟩
      obtain ⟨first, made', hrun⟩ := hfirst
      obtain ⟨later, made'', hlater⟩ := ih p' world' (before ++ [c']) made'
      refine ⟨first ++ later, made'', ?_⟩
      rw [run?_append, hrun, Option.bind_some, hlater, List.append_assoc]
      rfl

theorem exists_run?_rounds (n : Nat) (p : Pool) (world : σ) (callers : List PoolCaller)
    (made : List Channel) :
    ∃ events made',
      ({ pool := p, callers, made } : PoolCalls).run? events =
        some
          { pool := (Pool.rounds connect n p world callers).2.1
            callers := (Pool.rounds connect n p world callers).1
            made := made' } := by
  induction n generalizing p world callers made with
  | zero => exact ⟨[], made, rfl⟩
  | succ n ih =>
      obtain ⟨first, made', hrun⟩ := exists_run?_round connect p world callers [] made
      rw [List.nil_append, List.nil_append] at hrun
      rw [Pool.rounds]
      generalize p.round connect world callers = after at hrun
      obtain ⟨callers', p', world'⟩ := after
      obtain ⟨later, made'', hlater⟩ := ih p' world' callers' made'
      refine ⟨first ++ later, made'', ?_⟩
      rw [run?_append, hrun, Option.bind_some]
      exact hlater

/-- Callers that want the channels of these keys arrive one after the other. -/
theorem run?_arrivals (s : PoolCalls) (keys : List PoolKey) :
    s.run? (keys.map .arrive) =
      some { s with callers := s.callers ++ keys.map fun key => { key } } := by
  induction keys generalizing s with
  | nil => simp [run?]
  | cons key rest ih =>
      simp only [List.map_cons, run?, step?, Option.bind_some, ih, List.append_assoc]
      rfl

/-- **Callers that take turns take their steps in an order that runs allow**: some run ends with
    the pool and the results of `Pool.getAll`. -/
theorem exists_run?_getAll (p : Pool) (world : σ) (keys : List PoolKey) :
    ∃ events s,
      ({ pool := p } : PoolCalls).run? events = some s ∧
      s.pool = (Pool.getAll connect p world keys).2.1 ∧
      s.callers.filterMap Pool.result? = (Pool.getAll connect p world keys).1 := by
  obtain ⟨events, made, hrun⟩ := exists_run?_rounds connect
    (Pool.movesPerCaller * (keys.length + 1)) p world (keys.map fun key => { key }) []
  have hall := run?_append { pool := p } (keys.map .arrive) events
  rw [run?_arrivals, Option.bind_some, List.nil_append, hrun] at hall
  exact ⟨_, _, hall, rfl, rfl⟩

end PoolCalls

end InterceptingProxy
