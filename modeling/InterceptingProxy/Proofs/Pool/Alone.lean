import Mathlib.Data.List.Dedup
import Mathlib.Data.List.Perm.Basic
import InterceptingProxy.Proofs.Pool.Calls

set_option autoImplicit false

/-! # Callers that come one after the other

A caller that has the pool to itself finds a channel, or makes the one attempt for its key
(`Pool.get_of_filled`, `Pool.get_of_none`). An attempt that fails leaves a cell behind that no key
leads to. So a pool that is only ever asked by one caller at a time has one channel for each of the
keys that somebody got a channel for, and nothing else (`Pool.Holds`). -/

namespace InterceptingProxy

namespace Pool

section Alone

variable {σ : Type} (connect : Channel → σ → Except PoolError Unit × σ)
variable {p : Pool} {world : σ} {key : PoolKey} {id : Nat}

/-! ## Turns -/

theorem turn_arriving (p : Pool) (world : σ) (key : PoolKey) :
    turn connect p ⟨key, .arriving⟩ world =
      ((⟨key, .waiting (p.enter key).1⟩, (p.enter key).2), world) := rfl

theorem turn_filled {channel : Channel} (hcell : p.cell id = .filled channel) :
    turn connect p ⟨key, .waiting id⟩ world = ((⟨key, .done (.ok channel)⟩, p), world) := by
  simp [turn, move?, hcell]

theorem turn_vacant (hcell : p.cell id = .vacant) :
    turn connect p ⟨key, .waiting id⟩ world =
      ((⟨key, .dialing id
          ((connect ⟨key, p.attempts⟩ world).1.map fun () => ⟨key, p.attempts⟩)⟩,
        { p.setCell id .busy with attempts := p.attempts + 1 }),
        (connect ⟨key, p.attempts⟩ world).2) := by
  simp [turn, move?, hcell]

theorem turn_dialing_ok (p : Pool) (world : σ) (key : PoolKey) (id : Nat) (channel : Channel) :
    turn connect p ⟨key, .dialing id (.ok channel)⟩ world =
      ((⟨key, .done (.ok channel)⟩, p.setCell id (.filled channel)), world) := rfl

theorem turn_dialing_error (p : Pool) (world : σ) (key : PoolKey) (id : Nat) (e : PoolError) :
    turn connect p ⟨key, .dialing id (.error e)⟩ world =
      ((⟨key, .forgetting id e⟩, p.setCell id .vacant), world) := rfl

theorem turn_forgetting (p : Pool) (world : σ) (key : PoolKey) (id : Nat) (e : PoolError) :
    turn connect p ⟨key, .forgetting id e⟩ world =
      ((⟨key, .done (.error e)⟩, p.forget key id), world) := rfl

/-- A caller that is alone takes every turn. -/
theorem rounds_succ (n : Nat) (p : Pool) (world : σ) (c : PoolCaller) :
    rounds connect (n + 1) p world [c] =
      rounds connect n (turn connect p c world).1.2 (turn connect p c world).2
        [(turn connect p c world).1.1] := rfl

/-- Turns that are left over change nothing. -/
theorem rounds_done (n : Nat) (r : Except PoolError Channel) :
    rounds connect n p world [⟨key, .done r⟩] = ([⟨key, .done r⟩], p, world) := by
  induction n with
  | zero => rfl
  | succ n ih => exact (rounds_succ connect n p world _).trans ih

theorem get_of_rounds {p' : Pool} {world' : σ} {r : Except PoolError Channel}
    (h : rounds connect (movesPerCaller * 2) p world [⟨key, .arriving⟩] =
      ([⟨key, .done r⟩], p', world')) :
    get connect p world key = (r, p', world') := by
  have hall : getAll connect p world [key] = ([r], p', world') := by
    rw [getAll]
    simp only [List.map_cons, List.map_nil, List.length_singleton, h]
    rfl
  rw [get, hall]
  rfl

/-! ## What a single caller gets -/

/-- Where a channel is there, it is taken. -/
theorem get_of_filled {channel : Channel} (hf : p.find? key = some id)
    (hcell : p.cell id = .filled channel) :
    get connect p world key = (.ok channel, p, world) := by
  refine get_of_rounds connect ?_
  have henter : p.enter key = (id, p) := by simp only [enter, hf]
  rw [show movesPerCaller * 2 = 6 + 1 + 1 from rfl, rounds_succ, turn_arriving, henter,
    rounds_succ, turn_filled connect hcell, rounds_done]

/-- The pool with a new cell for the key. -/
def entered (p : Pool) (key : PoolKey) : Pool :=
  { p with entries := p.entries ++ [(key, p.cells.length)], cells := p.cells ++ [.vacant] }

theorem enter_of_none (hf : p.find? key = none) :
    p.enter key = (p.cells.length, p.entered key) := by
  simp only [enter, hf, entered]

theorem cell_entered (p : Pool) (key : PoolKey) :
    (p.entered key).cell p.cells.length = .vacant := by
  simp [entered, cell]

theorem set_set_entered (p : Pool) (key : PoolKey) (c : Cell) :
    ((p.entered key).cells.set p.cells.length .busy).set p.cells.length c = p.cells ++ [c] := by
  simp [entered]

/-- The pool after an attempt for a key that it had no cell for. -/
def attempted (p : Pool) (key : PoolKey) : Except PoolError Unit → Pool
  | .ok () =>
    { entries := p.entries ++ [(key, p.cells.length)]
      cells := p.cells ++ [.filled ⟨key, p.attempts⟩]
      attempts := p.attempts + 1 }
  | .error _ => { p with cells := p.cells ++ [.vacant], attempts := p.attempts + 1 }

/-- The entry of an attempt that failed is taken out, and no other one. -/
theorem forget_entered (hf : p.find? key = none) (attempts : Nat) :
    forget { p.entered key with cells := p.cells ++ [.vacant], attempts } key p.cells.length =
      { entries := p.entries, cells := p.cells ++ [.vacant], attempts } := by
  have hkept : p.entries.filter (fun e => e.1 ≠ key) = p.entries := by
    refine List.filter_eq_self.2 fun e he => ?_
    have hne : key ≠ e.1 := by simpa using List.lookup_eq_none_iff.1 hf e he
    simpa using hne.symm
  unfold forget entered
  rw [if_pos ⟨find?_append_self hf _, by simp [cell, Cell.isFilled]⟩]
  simp only [List.filter_append, hkept]
  simp

/-- Where no cell is there, an attempt is made; a failure leaves no entry. -/
theorem get_of_none (hf : p.find? key = none) :
    get connect p world key =
      ((connect ⟨key, p.attempts⟩ world).1.map fun () => ⟨key, p.attempts⟩,
        p.attempted key (connect ⟨key, p.attempts⟩ world).1,
        (connect ⟨key, p.attempts⟩ world).2) := by
  refine get_of_rounds connect ?_
  have hattempts : (p.entered key).attempts = p.attempts := rfl
  rw [show movesPerCaller * 2 = 4 + 1 + 1 + 1 + 1 from rfl, rounds_succ, turn_arriving,
    enter_of_none hf, rounds_succ, turn_vacant connect (p.cell_entered key), hattempts]
  cases (connect ⟨key, p.attempts⟩ world).1 with
  | ok _ =>
      rw [rounds_succ, Except.map, turn_dialing_ok, rounds_done]
      simp only [setCell, set_set_entered]
      rfl
  | error e =>
      rw [rounds_succ, Except.map, turn_dialing_error, rounds_succ, turn_forgetting, rounds_done]
      simp only [setCell, set_set_entered, forget_entered hf]
      rfl

/-! ## The world outside -/

section World

variable {connect} {P : σ → Prop} (hkeep : ∀ channel world, P world → P (connect channel world).2)
include hkeep

theorem turn_keeps (p : Pool) (c : PoolCaller) (hw : P world) : P (turn connect p c world).2 := by
  unfold turn
  split
  · exact hw
  · split
    · exact hkeep _ _ hw
    · exact hw
  · exact hw
  · exact hw
  · exact hw

theorem round_keeps (p : Pool) (callers : List PoolCaller) (hw : P world) :
    P (round connect p world callers).2.2 := by
  induction callers generalizing p world with
  | nil => exact hw
  | cons c rest ih => exact ih _ (turn_keeps hkeep p c hw)

theorem rounds_keeps (n : Nat) (p : Pool) (callers : List PoolCaller) (hw : P world) :
    P (rounds connect n p world callers).2.2 := by
  induction n generalizing p world callers with
  | zero => exact hw
  | succ n ih => exact ih _ _ (round_keeps hkeep p callers hw)

/-- What attempts to connect keep, asking for a channel keeps. -/
theorem get_keeps (p : Pool) (key : PoolKey) (hw : P world) : P (get connect p world key).2.2 := by
  have hrounds := rounds_keeps hkeep (movesPerCaller * 2) p [⟨key, .arriving⟩] hw
  unfold get getAll
  exact hrounds

end World

end Alone

/-! ## What a pool holds -/

/-- The pool has these channels, one for each of their keys, and nothing else. -/
structure Holds (p : Pool) (held : List Channel) : Prop where
  /-- A key has one entry. -/
  nodup : (p.entries.map Prod.fst).Nodup
  /-- Every entry leads to a channel of its key. -/
  entry : ∀ key id, (key, id) ∈ p.entries →
    ∃ channel ∈ held, channel.key = key ∧ p.cell id = .filled channel
  /-- Every channel is found under its key. -/
  found : ∀ channel ∈ held, ∃ id, p.find? channel.key = some id ∧ p.cell id = .filled channel

namespace Holds

variable {p : Pool} {held : List Channel} {key : PoolKey}

theorem start : Holds {} [] where
  nodup := List.nodup_nil
  entry _ _ hmem := absurd hmem List.not_mem_nil
  found _ hmem := absurd hmem List.not_mem_nil

theorem find?_eq_none (h : Holds p held) (hkey : key ∉ held.map Channel.key) :
    p.find? key = none := by
  rw [Option.eq_none_iff_forall_ne_some]
  intro id hf
  obtain ⟨channel, hchannel, hk, -⟩ := h.entry key id (mem_entries_of_find? hf)
  exact hkey (List.mem_map.2 ⟨channel, hchannel, hk⟩)

/-- There is one channel for a key. -/
theorem inj (h : Holds p held) {channel channel' : Channel} (hc : channel ∈ held)
    (hc' : channel' ∈ held) (hkey : channel.key = channel'.key) : channel = channel' := by
  obtain ⟨id, hf, hcell⟩ := h.found channel hc
  obtain ⟨id', hf', hcell'⟩ := h.found channel' hc'
  rw [hkey, hf', Option.some_inj] at hf
  rw [hf, hcell] at hcell'
  exact Cell.filled.inj hcell'

/-- The pool counts the keys that it has a channel for. -/
theorem size_eq (h : Holds p held) : p.size = (held.map Channel.key).dedup.length := by
  have hall : p.size = p.entries.length := by
    refine List.countP_eq_length.2 fun e he => ?_
    obtain ⟨channel, -, -, hcell⟩ := h.entry e.1 e.2 he
    rw [hcell]
    rfl
  have hsame : ∀ key, key ∈ p.entries.map Prod.fst ↔ key ∈ (held.map Channel.key).dedup := by
    intro key
    rw [List.mem_dedup, List.mem_map, List.mem_map]
    constructor
    · rintro ⟨e, he, rfl⟩
      obtain ⟨channel, hchannel, hk, -⟩ := h.entry e.1 e.2 he
      exact ⟨channel, hchannel, hk⟩
    · rintro ⟨channel, hchannel, rfl⟩
      obtain ⟨id, hf, -⟩ := h.found channel hchannel
      exact ⟨_, mem_entries_of_find? hf, rfl⟩
  calc p.size = (p.entries.map Prod.fst).length := by rw [hall, List.length_map]
    _ = (held.map Channel.key).dedup.length :=
      ((List.perm_ext_iff_of_nodup h.nodup (List.nodup_dedup _)).2 hsame).length_eq

/-! ### Steps -/

/-- A channel that was there is handed out again. -/
theorem again (h : Holds p held) {channel : Channel} (hc : channel ∈ held) :
    Holds p (held ++ [channel]) where
  nodup := h.nodup
  entry key id hmem := by
    obtain ⟨channel', hc', hfacts⟩ := h.entry key id hmem
    exact ⟨channel', List.mem_append_left _ hc', hfacts⟩
  found channel' hc' := by
    rcases List.mem_append.1 hc' with hold | hnew
    · exact h.found channel' hold
    · rw [List.mem_singleton.1 hnew]
      exact h.found channel hc

/-- More cells hide no channel. -/
theorem cell_append {id : Nat} {channel : Channel}
    (hcell : p.cell id = .filled channel) (c : Cell) :
    (p.cells ++ [c])[id]?.getD .vacant = .filled channel := by
  rw [List.getElem?_append_left (lt_of_filled hcell)]
  exact hcell

/-- An attempt that fails changes nothing. -/
theorem failed (h : Holds p held) (key : PoolKey) (e : PoolError) :
    Holds (p.attempted key (.error e)) held where
  nodup := h.nodup
  entry key' id hmem := by
    obtain ⟨channel, hchannel, hk, hcell⟩ := h.entry key' id hmem
    exact ⟨channel, hchannel, hk, cell_append hcell _⟩
  found channel hchannel := by
    obtain ⟨id, hf, hcell⟩ := h.found channel hchannel
    exact ⟨id, hf, cell_append hcell _⟩

/-- An attempt that succeeds adds its channel. -/
theorem succeeded (h : Holds p held) (hkey : key ∉ held.map Channel.key) :
    Holds (p.attempted key (.ok ())) (held ++ [⟨key, p.attempts⟩]) where
  nodup := by
    have hnone := h.find?_eq_none hkey
    have hnew : key ∉ p.entries.map Prod.fst := by
      intro hmem
      obtain ⟨e, he, rfl⟩ := List.mem_map.1 hmem
      simpa using List.lookup_eq_none_iff.1 hnone e he
    simp only [attempted, List.map_append, List.map_cons, List.map_nil]
    exact List.nodup_append.2 ⟨h.nodup, List.nodup_singleton _, by
      intro a ha b hb
      rw [List.mem_singleton.1 hb]
      exact fun heq => hnew (heq ▸ ha)⟩
  entry key' id hmem := by
    rcases List.mem_append.1 hmem with hold | hnew
    · obtain ⟨channel, hchannel, hk, hcell⟩ := h.entry key' id hold
      exact ⟨channel, List.mem_append_left _ hchannel, hk, cell_append hcell _⟩
    · obtain ⟨rfl, rfl⟩ := Prod.mk.inj (List.mem_singleton.1 hnew)
      exact ⟨⟨key', p.attempts⟩, List.mem_append_right _ (List.mem_singleton_self _), rfl,
        by simp [attempted, cell]⟩
  found channel hmem := by
    rcases List.mem_append.1 hmem with hold | hnew
    · obtain ⟨id, hf, hcell⟩ := h.found channel hold
      exact ⟨id, find?_append_of_some hf _, cell_append hcell _⟩
    · rw [List.mem_singleton.1 hnew]
      exact ⟨p.cells.length, find?_append_self (h.find?_eq_none hkey) _,
        by simp [attempted, cell]⟩

end Holds

end Pool

end InterceptingProxy
