import Mathlib.Tactic.Common
import InterceptingProxy.Call.Pool

set_option autoImplicit false

/-! # Callers of one pool

`PoolCalls` is a pool with any number of callers that want channels at the same time. Callers arrive
whenever they like and take their steps in any order; how an attempt to connect ends is part of the
step that begins it. `PoolCalls.Moves` says once what an event can do, with one constructor per case
of `Pool.move?` (`Moves.of_step?`), and `PoolCalls.run?` takes a list of events. -/

namespace InterceptingProxy

namespace Stage

/-- The cell that a caller holds. -/
def cell? : Stage → Option Nat
  | .waiting id | .dialing id _ | .forgetting id _ => some id
  | .arriving | .done _ => none

/-- The cell that a caller expects a channel in. -/
def wanted? : Stage → Option Nat
  | .waiting id | .dialing id _ => some id
  | .arriving | .forgetting _ _ | .done _ => none

end Stage

/-- A pool and its callers, with the channels that attempts have made so far. -/
structure PoolCalls where
  pool : Pool := {}
  callers : List PoolCaller := []
  made : List Channel := []

/-- What may happen next. -/
inductive PoolEvent where
  | arrive (key : PoolKey)
  | move (caller : Nat) (m : PoolMove)

/-! ## Looking things up in a pool -/

namespace Pool

theorem find?_append_self {p : Pool} {key : PoolKey} (h : p.find? key = none) (id : Nat) :
    (p.entries ++ [(key, id)]).lookup key = some id := by
  rw [List.lookup_append, show p.entries.lookup key = none from h]
  simp

/-- A new entry hides no entry that was there. -/
theorem find?_append_of_some {p : Pool} {key : PoolKey} {id : Nat} (h : p.find? key = some id)
    (e : PoolKey × Nat) : (p.entries ++ [e]).lookup key = some id := by
  rw [List.lookup_append, show p.entries.lookup key = some id from h]
  rfl

theorem find?_of_append {p : Pool} {key other : PoolKey} {id new : Nat}
    (h : (p.entries ++ [(other, new)]).lookup key = some id) :
    p.find? key = some id ∨ key = other ∧ id = new := by
  rw [List.lookup_append] at h
  cases hold : p.entries.lookup key with
  | some old =>
      rw [hold] at h
      exact .inl (hold.trans h)
  | none =>
      rw [hold, Option.none_or, List.lookup_cons] at h
      split at h
      · next heq => exact .inr ⟨eq_of_beq heq, (Option.some.inj h).symm⟩
      · cases h

/-- An entry that is taken out is not found. -/
theorem lookup_filter_self (entries : List (PoolKey × Nat)) (key : PoolKey) :
    (entries.filter fun e => e.1 ≠ key).lookup key = none := by
  rw [List.lookup_eq_none_iff]
  intro e he
  have hne : e.1 ≠ key := by simpa using (List.mem_filter.1 he).2
  simpa using hne.symm

/-- Taking out an entry touches no other key. -/
theorem lookup_filter_of_ne (entries : List (PoolKey × Nat)) {key other : PoolKey}
    (h : key ≠ other) : (entries.filter fun e => e.1 ≠ other).lookup key = entries.lookup key := by
  induction entries with
  | nil => rfl
  | cons e rest ih =>
      by_cases he : e.1 = other
      · rw [List.filter_cons_of_neg (by simpa using he), ih, List.lookup_cons]
        have hne : (key == e.1) = false := by simpa [he] using h
        rw [hne]
      · rw [List.filter_cons_of_pos (by simpa using he), List.lookup_cons, List.lookup_cons, ih]

/-- What is found behind a taken out entry was found before. -/
theorem find?_of_filter {p : Pool} {key other : PoolKey} {id : Nat}
    (h : (p.entries.filter fun e => e.1 ≠ other).lookup key = some id) : p.find? key = some id := by
  by_cases hk : key = other
  · rw [hk, lookup_filter_self] at h
    cases h
  · rw [lookup_filter_of_ne _ hk] at h
    exact h

theorem mem_entries_of_find? {p : Pool} {key : PoolKey} {id : Nat} (h : p.find? key = some id) :
    (key, id) ∈ p.entries := by
  obtain ⟨before, after, heq, -⟩ := List.lookup_eq_some_iff.1 h
  rw [heq]
  simp

theorem lt_of_filled {p : Pool} {id : Nat} {channel : Channel} (h : p.cell id = .filled channel) :
    id < p.cells.length := by
  by_contra hge
  rw [cell, List.getElem?_eq_none (Nat.le_of_not_lt hge)] at h
  cases h

theorem length_set {p p' : Pool} {id : Nat} {c : Cell} (h : p'.cells = p.cells.set id c) :
    p'.cells.length = p.cells.length := by
  rw [h]
  exact List.length_set

theorem cell_set_self {p p' : Pool} {id : Nat} {c : Cell} (h : p'.cells = p.cells.set id c)
    (hid : id < p.cells.length) : p'.cell id = c := by
  simp [cell, h, hid]

theorem cell_set_of_ne {p p' : Pool} {id other : Nat} {c : Cell}
    (h : p'.cells = p.cells.set id c) (hne : other ≠ id) : p'.cell other = p.cell other := by
  simp [cell, h, List.getElem?_set_ne hne.symm]

/-- Putting something else than a channel into a cell without one fills and empties none. -/
theorem cell_set_unfilled {p p' : Pool} {id : Nat} {c : Cell} (h : p'.cells = p.cells.set id c)
    (hid : id < p.cells.length) (hold : (p.cell id).isFilled = false) (hnew : c.isFilled = false)
    (other : Nat) (channel : Channel) :
    p'.cell other = .filled channel ↔ p.cell other = .filled channel := by
  by_cases hother : other = id
  · rw [hother, cell_set_self h hid]
    constructor
    · rintro rfl
      cases hnew
    · intro hf
      rw [hf] at hold
      cases hold
  · rw [cell_set_of_ne h hother]

/-- A new cell is vacant, as are the cells that do not exist yet. -/
theorem cell_append_vacant (cells : List Cell) (id : Nat) :
    (cells ++ [Cell.vacant])[id]?.getD .vacant = cells[id]?.getD .vacant := by
  rcases Nat.lt_or_ge id cells.length with hlt | hge
  · rw [List.getElem?_append_left hlt]
  · rw [List.getElem?_append_right hge, List.getElem?_eq_none hge]
    cases id - cells.length <;> rfl

end Pool

/-! ## Events -/

namespace PoolCaller

/-- The channel that an attempt has made when it ends. -/
def brings (c : PoolCaller) : PoolMove → List Channel
  | .conclude =>
    match c.stage with
    | .dialing _ (.ok channel) => [channel]
    | _ => []
  | _ => []

end PoolCaller

namespace PoolCalls

/-- One event; `none` if it cannot happen now. -/
def step? (s : PoolCalls) : PoolEvent → Option PoolCalls
  | .arrive key => some { s with callers := s.callers ++ [{ key }] }
  | .move i m =>
    match s.callers[i]? with
    | none => none
    | some c =>
      (s.pool.move? c m).map fun (c', pool) =>
        { pool, callers := s.callers.set i c', made := s.made ++ c.brings m }

/-- A list of events in their order; `none` if one of them cannot happen. -/
def run? (s : PoolCalls) : List PoolEvent → Option PoolCalls
  | [] => some s
  | e :: rest => (s.step? e).bind (·.run? rest)

theorem run?_append (s : PoolCalls) (first second : List PoolEvent) :
    s.run? (first ++ second) = (s.run? first).bind (·.run? second) := by
  induction first generalizing s with
  | nil => rfl
  | cons e rest ih =>
      simp only [List.cons_append, run?, Option.bind_assoc]
      exact congrArg _ (funext ih)

/-- Caller `i` wants the channel of `key` and has come to `stage`. -/
def At (s : PoolCalls) (i : Nat) (key : PoolKey) (stage : Stage) : Prop :=
  s.callers[i]? = some ⟨key, stage⟩

/-- Caller `i` comes to `stage`. -/
def advance (s : PoolCalls) (i : Nat) (key : PoolKey) (stage : Stage) : List PoolCaller :=
  s.callers.set i ⟨key, stage⟩

/-- What each event does. -/
inductive Moves (s : PoolCalls) : PoolEvent → PoolCalls → Prop
  | arrive (key : PoolKey) : Moves s (.arrive key) { s with callers := s.callers ++ [{ key }] }
  | join (i : Nat) (key : PoolKey) (id : Nat) (hc : s.At i key .arriving)
      (hf : s.pool.find? key = some id) :
      Moves s (.move i .lookUp) { s with callers := s.advance i key (.waiting id) }
  | make (i : Nat) (key : PoolKey) (hc : s.At i key .arriving) (hf : s.pool.find? key = none) :
      Moves s (.move i .lookUp) { s with
        pool := { s.pool with
          entries := s.pool.entries ++ [(key, s.pool.cells.length)]
          cells := s.pool.cells ++ [.vacant] }
        callers := s.advance i key (.waiting s.pool.cells.length) }
  | take (i : Nat) (key : PoolKey) (id : Nat) (channel : Channel) (hc : s.At i key (.waiting id))
      (hcell : s.pool.cell id = .filled channel) :
      Moves s (.move i .take) { s with callers := s.advance i key (.done (.ok channel)) }
  | dial (i : Nat) (key : PoolKey) (id : Nat) (result : Except PoolError Unit)
      (hc : s.At i key (.waiting id)) (hcell : s.pool.cell id = .vacant) :
      Moves s (.move i (.dial result)) { s with
        pool := { s.pool.setCell id .busy with attempts := s.pool.attempts + 1 }
        callers := s.advance i key
          (.dialing id (result.map fun () => ⟨key, s.pool.attempts⟩)) }
  | succeed (i : Nat) (key : PoolKey) (id : Nat) (channel : Channel)
      (hc : s.At i key (.dialing id (.ok channel))) :
      Moves s (.move i .conclude)
        { pool := s.pool.setCell id (.filled channel)
          callers := s.advance i key (.done (.ok channel))
          made := s.made ++ [channel] }
  | fail (i : Nat) (key : PoolKey) (id : Nat) (e : PoolError)
      (hc : s.At i key (.dialing id (.error e))) :
      Moves s (.move i .conclude) { s with
        pool := s.pool.setCell id .vacant
        callers := s.advance i key (.forgetting id e) }
  | forget (i : Nat) (key : PoolKey) (id : Nat) (e : PoolError)
      (hc : s.At i key (.forgetting id e)) (hf : s.pool.find? key = some id)
      (hcell : (s.pool.cell id).isFilled = false) :
      Moves s (.move i .forget) { s with
        pool := { s.pool with entries := s.pool.entries.filter fun e => e.1 ≠ key }
        callers := s.advance i key (.done (.error e)) }
  | keep (i : Nat) (key : PoolKey) (id : Nat) (e : PoolError)
      (hc : s.At i key (.forgetting id e))
      (hkept : s.pool.find? key = some id → (s.pool.cell id).isFilled = true) :
      Moves s (.move i .forget) { s with callers := s.advance i key (.done (.error e)) }

theorem Moves.of_move? {s : PoolCalls} {i : Nat} {c c' : PoolCaller} {m : PoolMove} {pool : Pool}
    (hc : s.callers[i]? = some c) (hm : s.pool.move? c m = some (c', pool)) :
    Moves s (.move i m)
      { pool, callers := s.callers.set i c', made := s.made ++ c.brings m } := by
  obtain ⟨key, stage⟩ := c
  cases m with
  | lookUp =>
      simp only [Pool.move?] at hm
      split at hm
      · simp only [PoolCaller.brings, List.append_nil]
        cases hf : s.pool.find? key with
        | some id =>
            simp only [Pool.enter, hf] at hm
            cases hm
            exact .join i key id hc hf
        | none =>
            simp only [Pool.enter, hf] at hm
            cases hm
            exact .make i key hc hf
      · cases hm
  | take =>
      simp only [Pool.move?] at hm
      split at hm
      · next _ id =>
          split at hm
          · next channel hcell =>
              cases hm
              simp only [PoolCaller.brings, List.append_nil]
              exact .take i key id channel hc hcell
          · cases hm
      · cases hm
  | dial result =>
      simp only [Pool.move?] at hm
      split at hm
      · next _ id =>
          split at hm
          · next hcell =>
              cases hm
              simp only [PoolCaller.brings, List.append_nil]
              exact .dial i key id result hc hcell
          · cases hm
      · cases hm
  | conclude =>
      simp only [Pool.move?] at hm
      split at hm
      · next _ id channel =>
          cases hm
          exact .succeed i key id channel hc
      · next _ id e =>
          cases hm
          simp only [PoolCaller.brings, List.append_nil]
          exact .fail i key id e hc
      · cases hm
  | forget =>
      simp only [Pool.move?] at hm
      split at hm
      · next _ id e =>
          cases hm
          simp only [PoolCaller.brings, List.append_nil, Pool.forget]
          split
          · next hstale => exact .forget i key id e hc hstale.1 (by simpa using hstale.2)
          · next hkept =>
              refine .keep i key id e hc fun hf => ?_
              simpa [hf] using hkept
      · cases hm

theorem Moves.of_step? {s s' : PoolCalls} {e : PoolEvent} (h : s.step? e = some s') :
    Moves s e s' := by
  cases e with
  | arrive key =>
      cases h
      exact .arrive key
  | move i m =>
      simp only [step?] at h
      split at h
      · cases h
      · next c hc =>
          obtain ⟨⟨c', pool⟩, hm, rfl⟩ := Option.map_eq_some_iff.1 h
          exact .of_move? hc hm

/-! ## Who is where -/

theorem At.inj {s : PoolCalls} {i : Nat} {key key' : PoolKey} {stage stage' : Stage}
    (h : s.At i key stage) (h' : s.At i key' stage') : key = key' ∧ stage = stage' := by
  have heq : PoolCaller.mk key stage = ⟨key', stage'⟩ := Option.some.inj (h.symm.trans h')
  cases heq
  exact ⟨rfl, rfl⟩

/-- After a caller has moved, it is at its new stage and all others are where they were. -/
theorem at_advance_iff {s s' : PoolCalls} {i : Nat} {key : PoolKey} {old stage : Stage}
    (hc : s.At i key old) (hs : s'.callers = s.advance i key stage) {j : Nat} {k : PoolKey}
    {st : Stage} : s'.At j k st ↔ (j = i ∧ k = key ∧ st = stage) ∨ (j ≠ i ∧ s.At j k st) := by
  have hlt : i < s.callers.length := (List.getElem?_eq_some_iff.1 hc).1
  rw [At, hs, advance]
  by_cases hj : j = i
  · rw [hj, List.getElem?_set_self hlt]
    simp [eq_comm]
  · rw [List.getElem?_set_ne (Ne.symm hj)]
    simp [hj, At]

theorem at_arrive_iff {s s' : PoolCalls} {key : PoolKey}
    (hs : s'.callers = s.callers ++ [⟨key, .arriving⟩]) {j : Nat} {k : PoolKey} {st : Stage} :
    s'.At j k st ↔ s.At j k st ∨ (j = s.callers.length ∧ k = key ∧ st = .arriving) := by
  rw [At, hs]
  rcases Nat.lt_trichotomy j s.callers.length with hlt | heq | hgt
  · rw [List.getElem?_append_left hlt]
    simp [At, Nat.ne_of_lt hlt]
  · rw [heq, List.getElem?_concat_length]
    simp [At, eq_comm]
  · rw [List.getElem?_eq_none (by simp; omega)]
    simp [At, Nat.ne_of_gt hgt, List.getElem?_eq_none (Nat.le_of_lt hgt)]

/-- What holds at the start and is kept by every event holds after every run. -/
theorem run?_induction {P : PoolCalls → Prop} {s s' : PoolCalls} {events : List PoolEvent}
    (start : P s) (step : ∀ s e s', P s → Moves s e s' → P s') (h : s.run? events = some s') :
    P s' := by
  induction events generalizing s with
  | nil =>
      cases h
      exact start
  | cons e rest ih =>
      obtain ⟨next, hstep, hrest⟩ := Option.bind_eq_some_iff.1 h
      exact ih (step s e next start (.of_step? hstep)) hrest

end PoolCalls

end InterceptingProxy
