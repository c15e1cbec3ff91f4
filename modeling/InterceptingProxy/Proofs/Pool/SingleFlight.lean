import Mathlib.Data.List.Nodup
import InterceptingProxy.Proofs.Pool.Calls

set_option autoImplicit false

/-! # One attempt for a key

A cell is dialed for by one caller at a time, and a key has one cell in the map. Together this makes
one attempt for a key, as long as callers that expect a channel in a cell find it in the map. A
caller whose attempt has failed takes its cell out of the map, and it does not ask whether others
still expect a channel there: the next of them may be dialing for it by then. `PoolCalls.detaches`
says when this happens.

`PoolCalls.Sound` holds after every run and knows nothing of the map beyond whose cells they are.
`PoolCalls.Kept` holds as long as no event detaches, and gives that no two attempts for a key are
under way and that one channel at most is made for it. -/

namespace InterceptingProxy

namespace PoolCalls

/-! ## Whose cells they are -/

/-- A stage goes with the cells, `owner` being the key that each cell was made for. -/
def Fits (p : Pool) (owner : Nat → PoolKey) (key : PoolKey) : Stage → Prop
  | .arriving | .done _ => True
  | .waiting id | .forgetting id _ => id < p.cells.length ∧ owner id = key
  | .dialing id result => (id < p.cells.length ∧ owner id = key) ∧ p.cell id = .busy ∧
    ∀ channel, result = .ok channel → channel.key = key

/-- What every event keeps. -/
structure Sound (owner : Nat → PoolKey) (s : PoolCalls) : Prop where
  entry : ∀ key id, s.pool.find? key = some id → id < s.pool.cells.length ∧ owner id = key
  caller : ∀ i key stage, s.At i key stage → Fits s.pool owner key stage
  busy : ∀ id, s.pool.cell id = .busy → ∃ i key result, s.At i key (.dialing id result)
  alone : ∀ i j key key' id result result', s.At i key (.dialing id result) →
    s.At j key' (.dialing id result') → i = j

variable {owner : Nat → PoolKey} {s s' : PoolCalls} {i : Nat} {key : PoolKey} {old stage : Stage}

theorem Sound.start (owner : Nat → PoolKey) : Sound owner {} where
  entry key id h := by cases h
  caller i key stage h := by simp [At] at h
  busy id h := by simp [Pool.cell] at h
  alone i j key key' id result result' h := by simp [At] at h

/-- Nothing but the cell of an attempt matters to a stage. -/
theorem Fits.mono {p p' : Pool} {owner' : Nat → PoolKey} (h : Fits p owner key stage)
    (hlength : p.cells.length ≤ p'.cells.length)
    (howner : ∀ id, id < p.cells.length → owner' id = owner id)
    (hcell : ∀ id result, stage = .dialing id result → p'.cell id = p.cell id) :
    Fits p' owner' key stage := by
  cases stage with
  | arriving => trivial
  | done result => trivial
  | waiting id => exact ⟨Nat.lt_of_lt_of_le h.1 hlength, (howner id h.1).trans h.2⟩
  | forgetting id e => exact ⟨Nat.lt_of_lt_of_le h.1 hlength, (howner id h.1).trans h.2⟩
  | dialing id result =>
      obtain ⟨⟨hid, hkey⟩, hbusy, hchannel⟩ := h
      exact ⟨⟨Nat.lt_of_lt_of_le hid hlength, (howner id hid).trans hkey⟩,
        (hcell id result rfl).trans hbusy, hchannel⟩

/-- A caller that begins no attempt and ends none, while entries may go. -/
theorem Sound.restage (h : Sound owner s) (hc : s.At i key old)
    (hcallers : s'.callers = s.advance i key stage)
    (hfind : ∀ k id, s'.pool.find? k = some id → s.pool.find? k = some id)
    (hcells : s'.pool.cells = s.pool.cells) (hold : ∀ id result, old ≠ .dialing id result)
    (hnew : ∀ id result, stage ≠ .dialing id result) (hfits : Fits s.pool owner key stage) :
    Sound owner s' := by
  have hcell : ∀ id, s'.pool.cell id = s.pool.cell id := fun id => by
    simp only [Pool.cell, hcells]
  have hdialing : ∀ j k id result, s'.At j k (.dialing id result) →
      s.At j k (.dialing id result) := fun j k id result hj => by
    rcases (at_advance_iff hc hcallers).1 hj with ⟨_, _, hstage⟩ | ⟨_, hj⟩
    · exact absurd hstage.symm (hnew id result)
    · exact hj
  refine ⟨fun k id hk => ?_, fun j k st hj => ?_, fun id hb => ?_, ?_⟩
  · rw [hcells]
    exact h.entry k id (hfind k id hk)
  · have hst : Fits s.pool owner k st := by
      rcases (at_advance_iff hc hcallers).1 hj with ⟨_, rfl, rfl⟩ | ⟨_, hj⟩
      · exact hfits
      · exact h.caller j k st hj
    exact hst.mono (Nat.le_of_eq (by rw [hcells])) (fun _ _ => rfl) (fun id _ _ => hcell id)
  · obtain ⟨j, k, result, hj⟩ := h.busy id ((hcell id).symm.trans hb)
    refine ⟨j, k, result, (at_advance_iff hc hcallers).2 (.inr ⟨fun hji => ?_, hj⟩)⟩
    rw [hji] at hj
    exact hold id result (hc.inj hj).2
  · intro j j' k k' id result result' hj hj'
    exact h.alone j j' k k' id result result' (hdialing _ _ _ _ hj) (hdialing _ _ _ _ hj')

theorem Sound.arrive (h : Sound owner s) (key : PoolKey) :
    Sound owner { s with callers := s.callers ++ [{ key }] } := by
  have hdialing : ∀ j k id result,
      At { s with callers := s.callers ++ [⟨key, .arriving⟩] } j k (.dialing id result) →
        s.At j k (.dialing id result) := fun j k id result hj =>
    ((at_arrive_iff rfl).1 hj).resolve_right fun hnew => by cases hnew.2.2
  refine ⟨h.entry, fun j k st hj => ?_, fun id hb => ?_, ?_⟩
  · rcases (at_arrive_iff rfl).1 hj with hj | ⟨_, _, rfl⟩
    · exact h.caller j k st hj
    · trivial
  · obtain ⟨j, k, result, hj⟩ := h.busy id hb
    exact ⟨j, k, result, (at_arrive_iff rfl).2 (.inl hj)⟩
  · intro j j' k k' id result result' hj hj'
    exact h.alone j j' k k' id result result' (hdialing _ _ _ _ hj) (hdialing _ _ _ _ hj')

/-- A new cell is made for the key of its caller. -/
theorem Sound.make (h : Sound owner s) (hc : s.At i key .arriving)
    (hcallers : s'.callers = s.advance i key (.waiting s.pool.cells.length))
    (hentries : s'.pool.entries = s.pool.entries ++ [(key, s.pool.cells.length)])
    (hcells : s'.pool.cells = s.pool.cells ++ [.vacant]) :
    Sound (Function.update owner s.pool.cells.length key) s' := by
  have hlength : s'.pool.cells.length = s.pool.cells.length + 1 := by
    rw [hcells, List.length_append]
    rfl
  have hcell : ∀ id, s'.pool.cell id = s.pool.cell id := fun id => by
    simp only [Pool.cell, hcells]
    exact Pool.cell_append_vacant s.pool.cells id
  have howner : ∀ id, id < s.pool.cells.length →
      Function.update owner s.pool.cells.length key id = owner id := fun id hid =>
    Function.update_of_ne (Nat.ne_of_lt hid) key owner
  have hdialing : ∀ j k id result, s'.At j k (.dialing id result) →
      s.At j k (.dialing id result) := fun j k id result hj => by
    rcases (at_advance_iff hc hcallers).1 hj with ⟨_, _, hstage⟩ | ⟨_, hj⟩
    · cases hstage
    · exact hj
  refine ⟨fun k id hk => ?_, fun j k st hj => ?_, fun id hb => ?_, ?_⟩
  · rw [Pool.find?, hentries] at hk
    rw [hlength]
    rcases Pool.find?_of_append hk with hk | ⟨rfl, rfl⟩
    · obtain ⟨hid, hkey⟩ := h.entry k id hk
      exact ⟨Nat.lt_succ_of_lt hid, (howner id hid).trans hkey⟩
    · exact ⟨Nat.lt_succ_self _, Function.update_self ..⟩
  · rcases (at_advance_iff hc hcallers).1 hj with ⟨_, rfl, rfl⟩ | ⟨_, hj⟩
    · exact ⟨by rw [hlength]; exact Nat.lt_succ_self _, Function.update_self ..⟩
    · exact (h.caller j k st hj).mono (by rw [hlength]; exact Nat.le_succ _) howner
        (fun id _ _ => hcell id)
  · obtain ⟨j, k, result, hj⟩ := h.busy id ((hcell id).symm.trans hb)
    refine ⟨j, k, result, (at_advance_iff hc hcallers).2 (.inr ⟨fun hji => ?_, hj⟩)⟩
    rw [hji] at hj
    cases (hc.inj hj).2
  · intro j j' k k' id result result' hj hj'
    exact h.alone j j' k k' id result result' (hdialing _ _ _ _ hj) (hdialing _ _ _ _ hj')

/-- An attempt begins on a cell that nobody dials for. -/
theorem Sound.dial {id : Nat} {result : Except PoolError Channel} (h : Sound owner s)
    (hc : s.At i key (.waiting id)) (hvacant : s.pool.cell id = .vacant)
    (hcallers : s'.callers = s.advance i key (.dialing id result))
    (hentries : s'.pool.entries = s.pool.entries)
    (hcells : s'.pool.cells = s.pool.cells.set id .busy)
    (hresult : ∀ channel, result = .ok channel → channel.key = key) : Sound owner s' := by
  have hholds : id < s.pool.cells.length ∧ owner id = key := h.caller i key _ hc
  have hlength : s'.pool.cells.length = s.pool.cells.length := Pool.length_set hcells
  have hself : s'.pool.cell id = .busy := Pool.cell_set_self hcells hholds.1
  have hother : ∀ id', id' ≠ id → s'.pool.cell id' = s.pool.cell id' := fun id' hne =>
    Pool.cell_set_of_ne hcells hne
  -- who dials for a cell keeps it busy
  have hfree : ∀ j k r, ¬ s.At j k (.dialing id r) := fun j k r hj => by
    have hbusy := (h.caller j k _ hj).2.1
    rw [hvacant] at hbusy
    cases hbusy
  refine ⟨fun k id' hk => ?_, fun j k st hj => ?_, fun id' hb => ?_, ?_⟩
  · rw [Pool.find?, hentries] at hk
    rw [hlength]
    exact h.entry k id' hk
  · rcases (at_advance_iff hc hcallers).1 hj with ⟨_, rfl, rfl⟩ | ⟨_, hj⟩
    · exact ⟨⟨by rw [hlength]; exact hholds.1, hholds.2⟩, hself, hresult⟩
    · refine (h.caller j k st hj).mono (Nat.le_of_eq hlength.symm) (fun _ _ => rfl) ?_
      rintro id' r rfl
      exact hother id' fun hid => hfree j k r (hid ▸ hj)
  · by_cases hid : id' = id
    · exact ⟨i, key, result, (at_advance_iff hc hcallers).2 (.inl ⟨rfl, rfl, by rw [hid]⟩)⟩
    · obtain ⟨j, k, r, hj⟩ := h.busy id' ((hother id' hid).symm.trans hb)
      refine ⟨j, k, r, (at_advance_iff hc hcallers).2 (.inr ⟨fun hji => ?_, hj⟩)⟩
      rw [hji] at hj
      cases (hc.inj hj).2
  · intro j j' k k' id' r r' hj hj'
    rcases (at_advance_iff hc hcallers).1 hj with ⟨rfl, _, hstage⟩ | ⟨_, hj⟩ <;>
      rcases (at_advance_iff hc hcallers).1 hj' with ⟨rfl, _, hstage'⟩ | ⟨_, hj'⟩
    · rfl
    · cases hstage
      exact absurd hj' (hfree j' k' r')
    · cases hstage'
      exact absurd hj (hfree j k r)
    · exact h.alone j j' k k' id' r r' hj hj'

/-- An attempt ends, and its cell is not busy any more. -/
theorem Sound.settle {id : Nat} {result : Except PoolError Channel} {c : Cell}
    (h : Sound owner s) (hc : s.At i key (.dialing id result)) (hcell : c ≠ .busy)
    (hcallers : s'.callers = s.advance i key stage) (hentries : s'.pool.entries = s.pool.entries)
    (hcells : s'.pool.cells = s.pool.cells.set id c)
    (hnew : ∀ id r, stage ≠ .dialing id r) (hfits : Fits s.pool owner key stage) :
    Sound owner s' := by
  have hholds : id < s.pool.cells.length := (h.caller i key _ hc).1.1
  have hlength : s'.pool.cells.length = s.pool.cells.length := Pool.length_set hcells
  have hself : s'.pool.cell id = c := Pool.cell_set_self hcells hholds
  have hother : ∀ id', id' ≠ id → s'.pool.cell id' = s.pool.cell id' := fun id' hne =>
    Pool.cell_set_of_ne hcells hne
  have hdialing : ∀ j k id' r, s'.At j k (.dialing id' r) →
      j ≠ i ∧ s.At j k (.dialing id' r) := fun j k id' r hj => by
    rcases (at_advance_iff hc hcallers).1 hj with ⟨_, _, hstage⟩ | hj
    · exact absurd hstage.symm (hnew id' r)
    · exact hj
  refine ⟨fun k id' hk => ?_, fun j k st hj => ?_, fun id' hb => ?_, ?_⟩
  · rw [Pool.find?, hentries] at hk
    rw [hlength]
    exact h.entry k id' hk
  · rcases (at_advance_iff hc hcallers).1 hj with ⟨_, rfl, rfl⟩ | ⟨hji, hj⟩
    · exact hfits.mono (Nat.le_of_eq hlength.symm) (fun _ _ => rfl)
        fun id' r hst => absurd hst (hnew id' r)
    · refine (h.caller j k st hj).mono (Nat.le_of_eq hlength.symm) (fun _ _ => rfl) ?_
      rintro id' r rfl
      -- for this cell only the caller itself has dialed
      refine hother id' fun hid => hji ?_
      rw [hid] at hj
      exact h.alone j i k key id r result hj hc
  · have hid : id' ≠ id := fun hid => by
      rw [hid, hself] at hb
      exact hcell hb
    obtain ⟨j, k, r, hj⟩ := h.busy id' ((hother id' hid).symm.trans hb)
    refine ⟨j, k, r, (at_advance_iff hc hcallers).2 (.inr ⟨fun hji => ?_, hj⟩)⟩
    rw [hji] at hj
    cases (hc.inj hj).2
    exact hid rfl
  · intro j j' k k' id' r r' hj hj'
    exact h.alone j j' k k' id' r r' (hdialing _ _ _ _ hj).2 (hdialing _ _ _ _ hj').2

theorem Sound.step {e : PoolEvent} (h : Sound owner s) (hm : Moves s e s') :
    ∃ owner', Sound owner' s' := by
  cases hm with
  | arrive key => exact ⟨owner, h.arrive key⟩
  | join i key id hc hf =>
      exact ⟨owner, h.restage hc rfl (fun _ _ hk => hk) rfl (fun _ _ => Stage.noConfusion)
        (fun _ _ => Stage.noConfusion) (h.entry key id hf)⟩
  | make i key hc hf => exact ⟨_, h.make hc rfl rfl rfl⟩
  | take i key id channel hc hcell =>
      exact ⟨owner, h.restage hc rfl (fun _ _ hk => hk) rfl (fun _ _ => Stage.noConfusion)
        (fun _ _ => Stage.noConfusion) trivial⟩
  | dial i key id result hc hcell =>
      refine ⟨owner, h.dial hc hcell rfl rfl rfl fun channel hok => ?_⟩
      cases result with
      | error e => cases hok
      | ok u => cases hok; rfl
  | succeed i key id channel hc =>
      exact ⟨owner, h.settle hc Cell.noConfusion rfl rfl rfl (fun _ _ => Stage.noConfusion) trivial⟩
  | fail i key id e hc =>
      exact ⟨owner, h.settle hc Cell.noConfusion rfl rfl rfl (fun _ _ => Stage.noConfusion)
        (h.caller i key _ hc).1⟩
  | forget i key id e hc hf hcell =>
      exact ⟨owner, h.restage hc rfl (fun _ _ hk => Pool.find?_of_filter hk) rfl
        (fun _ _ => Stage.noConfusion) (fun _ _ => Stage.noConfusion) trivial⟩
  | keep i key id e hc =>
      exact ⟨owner, h.restage hc rfl (fun _ _ hk => hk) rfl (fun _ _ => Stage.noConfusion)
        (fun _ _ => Stage.noConfusion) trivial⟩

theorem Sound.of_run? {events : List PoolEvent} (h : ({} : PoolCalls).run? events = some s) :
    ∃ owner, Sound owner s :=
  run?_induction (P := fun s => ∃ owner, Sound owner s)
    ⟨fun _ => ⟨[], false⟩, Sound.start _⟩ (fun _ _ _ hs hm => hs.elim fun _ hs => hs.step hm) h

/-! ## Callers that find their cell in the map -/

/-- Whether some caller expects a channel in a cell. -/
def wanted (s : PoolCalls) (id : Nat) : Bool :=
  s.callers.any fun c => c.stage.wanted? = some id

/-- Whether an event takes a cell out of the map in which somebody expects a channel. -/
def detaches (s : PoolCalls) : PoolEvent → Bool
  | .move i .forget =>
    match s.callers[i]? with
    | some ⟨key, .forgetting id _⟩ =>
      s.pool.find? key = some id && !(s.pool.cell id).isFilled && s.wanted id
    | _ => false
  | _ => false

/-- Whether no event of a run detaches. -/
def attached (s : PoolCalls) : List PoolEvent → Bool
  | [] => true
  | e :: rest => !s.detaches e && (s.step? e).all (·.attached rest)

theorem wanted_iff (s : PoolCalls) (id : Nat) :
    s.wanted id = true ↔ ∃ i key stage, s.At i key stage ∧ stage.wanted? = some id := by
  simp only [wanted, List.any_eq_true, decide_eq_true_eq]
  constructor
  · rintro ⟨⟨key, stage⟩, hmem, hw⟩
    obtain ⟨i, hi⟩ := List.mem_iff_getElem?.1 hmem
    exact ⟨i, key, stage, hi, hw⟩
  · rintro ⟨i, key, stage, hi, hw⟩
    exact ⟨⟨key, stage⟩, List.mem_of_getElem? hi, hw⟩

theorem detaches_iff (s : PoolCalls) (e : PoolEvent) :
    s.detaches e = true ↔ ∃ i key id error, e = .move i .forget ∧
      s.At i key (.forgetting id error) ∧ s.pool.find? key = some id ∧
      (s.pool.cell id).isFilled = false ∧ s.wanted id = true := by
  constructor
  · intro h
    unfold detaches at h
    split at h
    · next i =>
        split at h
        · next key id error hc =>
            simp only [Bool.and_eq_true, decide_eq_true_eq, Bool.not_eq_true'] at h
            exact ⟨i, key, id, error, rfl, hc, h.1.1, h.1.2, h.2⟩
        · cases h
    · cases h
  · rintro ⟨i, key, id, error, rfl, hc, hf, hcell, hw⟩
    rw [At] at hc
    simp [detaches, hc, hf, hcell, hw]

/-- What is kept as long as nothing detaches: who expects a channel finds the cell in the map, and
    the channels that were made are in the cells that the map has for them. -/
structure Kept (s : PoolCalls) : Prop where
  mapped : ∀ i key stage id, s.At i key stage → stage.wanted? = some id →
    s.pool.find? key = some id
  filled : ∀ id channel, s.pool.cell id = .filled channel →
    channel ∈ s.made ∧ s.pool.find? channel.key = some id
  made : ∀ channel ∈ s.made, ∃ id, s.pool.find? channel.key = some id ∧
    s.pool.cell id = .filled channel
  nodup : (s.made.map Channel.key).Nodup
  done : ∀ i key channel, s.At i key (.done (.ok channel)) → channel ∈ s.made ∧ channel.key = key

theorem Kept.start : Kept {} where
  mapped i key stage id h := by simp [At] at h
  filled id channel h := by simp [Pool.cell] at h
  made channel h := by cases h
  nodup := List.nodup_nil
  done i key channel h := by simp [At] at h

/-- Events that fill no cell and empty none. -/
theorem Kept.frame (h : Kept s)
    (hcell : ∀ id channel, s'.pool.cell id = .filled channel ↔ s.pool.cell id = .filled channel)
    (hfind : ∀ key id, s.pool.find? key = some id →
      s'.pool.find? key = some id ∨ (s.pool.cell id).isFilled = false)
    (hmade : s'.made = s.made)
    (hmapped : ∀ i key stage id, s'.At i key stage → stage.wanted? = some id →
      s'.pool.find? key = some id)
    (hdone : ∀ i key channel, s'.At i key (.done (.ok channel)) →
      s.At i key (.done (.ok channel)) ∨ channel ∈ s.made ∧ channel.key = key) : Kept s' where
  mapped := hmapped
  filled id channel hf := by
    have hold : s.pool.cell id = .filled channel := (hcell id channel).1 hf
    obtain ⟨hmem, hk⟩ := h.filled id channel hold
    rw [hmade]
    exact ⟨hmem, (hfind _ id hk).resolve_right (by rw [hold]; exact Bool.noConfusion)⟩
  made channel hmem := by
    rw [hmade] at hmem
    obtain ⟨id, hk, hf⟩ := h.made channel hmem
    exact ⟨id, (hfind _ id hk).resolve_right (by rw [hf]; exact Bool.noConfusion),
      (hcell id channel).2 hf⟩
  nodup := by rw [hmade]; exact h.nodup
  done i key channel hd := by
    rw [hmade]
    exact (hdone i key channel hd).elim (h.done i key channel) id

/-- A caller that expects a channel expects it where its key leads, also after it has moved. -/
theorem Kept.mapped_advance (h : Kept s) (hc : s.At i key old)
    (hcallers : s'.callers = s.advance i key stage)
    (hfind : ∀ key id, s.pool.find? key = some id → s'.pool.find? key = some id)
    (hnew : ∀ id, stage.wanted? = some id → s'.pool.find? key = some id) :
    ∀ j k st id, s'.At j k st → st.wanted? = some id → s'.pool.find? k = some id := by
  intro j k st id hj hw
  rcases (at_advance_iff hc hcallers).1 hj with ⟨_, rfl, rfl⟩ | ⟨_, hj⟩
  · exact hnew id hw
  · exact hfind k id (h.mapped j k st id hj hw)

/-- Other callers are done with what they were done with. -/
theorem done_advance (hc : s.At i key old) (hcallers : s'.callers = s.advance i key stage)
    {P : PoolKey → Channel → Prop} (hnew : ∀ channel, stage = .done (.ok channel) → P key channel) :
    ∀ j k channel, s'.At j k (.done (.ok channel)) →
      s.At j k (.done (.ok channel)) ∨ P k channel := by
  intro j k channel hj
  rcases (at_advance_iff hc hcallers).1 hj with ⟨_, rfl, hstage⟩ | ⟨_, hj⟩
  · exact .inr (hnew channel hstage.symm)
  · exact .inl hj

/-- The attempt that ends well is the first for its key that does. -/
theorem Kept.succeed {id : Nat} {channel : Channel} (h : Kept s) (hs : Sound owner s)
    (hc : s.At i key (.dialing id (.ok channel)))
    (hcallers : s'.callers = s.advance i key (.done (.ok channel)))
    (hpool : s'.pool = s.pool.setCell id (.filled channel))
    (hmade : s'.made = s.made ++ [channel]) : Kept s' := by
  obtain ⟨⟨hid, _⟩, hbusy, hkey⟩ := hs.caller i key _ hc
  have hk : channel.key = key := hkey channel rfl
  have hmap : s.pool.find? key = some id := h.mapped i key _ id hc rfl
  have hfind : ∀ key, s'.pool.find? key = s.pool.find? key := fun key => by
    rw [hpool]
    rfl
  have hcells : s'.pool.cells = s.pool.cells.set id (.filled channel) := by
    rw [hpool]
    rfl
  have hself : s'.pool.cell id = .filled channel := Pool.cell_set_self hcells hid
  have hother : ∀ id', id' ≠ id → s'.pool.cell id' = s.pool.cell id' := fun id' hne =>
    Pool.cell_set_of_ne hcells hne
  -- an earlier channel for the key would lie in this very cell, which is busy
  have hfresh : ∀ old ∈ s.made, old.key ≠ key := fun old hmem heq => by
    obtain ⟨id', hfound, hfilled⟩ := h.made old hmem
    rw [heq, hmap] at hfound
    cases hfound
    rw [hbusy] at hfilled
    cases hfilled
  refine ⟨?_, fun id' ch hf => ?_, fun ch hmem => ?_, ?_, fun j k ch hj => ?_⟩
  · exact h.mapped_advance hc hcallers (fun k id' hf => (hfind k).trans hf)
      fun id' hw => by cases hw
  · rw [hmade, hfind]
    by_cases hne : id' = id
    · rw [hne, hself] at hf
      cases hf
      exact ⟨List.mem_append_right _ (List.mem_singleton_self _), by rw [hk, hne]; exact hmap⟩
    · rw [hother id' hne] at hf
      exact ⟨List.mem_append_left _ (h.filled id' ch hf).1, (h.filled id' ch hf).2⟩
  · rw [hmade] at hmem
    rw [hfind]
    rcases List.mem_append.1 hmem with hold | hnew
    · obtain ⟨id', hfound, hfilled⟩ := h.made ch hold
      have hne : id' ≠ id := fun heq => by
        rw [heq, hbusy] at hfilled
        cases hfilled
      exact ⟨id', hfound, (hother id' hne).trans hfilled⟩
    · rw [List.mem_singleton.1 hnew, hk]
      exact ⟨id, hmap, hself⟩
  · rw [hmade, List.map_append, List.nodup_append]
    refine ⟨h.nodup, by simp, fun k hold k' hnew heq => ?_⟩
    obtain ⟨old, hmem, rfl⟩ := List.mem_map.1 hold
    have hk' : k' = channel.key := by simpa using hnew
    exact hfresh old hmem (heq.trans (hk'.trans hk))
  · rw [hmade]
    rcases (at_advance_iff hc hcallers).1 hj with ⟨_, rfl, hstage⟩ | ⟨_, hj⟩
    · cases hstage
      exact ⟨List.mem_append_right _ (List.mem_singleton_self _), hk⟩
    · exact ⟨List.mem_append_left _ (h.done j k ch hj).1, (h.done j k ch hj).2⟩

/-- A cell that nobody expects a channel in may go. -/
theorem Kept.forget {id : Nat} {error : PoolError} (h : Kept s)
    (hc : s.At i key (.forgetting id error)) (hf : s.pool.find? key = some id)
    (hcell : (s.pool.cell id).isFilled = false) (hfree : s.wanted id = false)
    (hcallers : s'.callers = s.advance i key (.done (.error error)))
    (hentries : s'.pool.entries = s.pool.entries.filter fun e => e.1 ≠ key)
    (hcells : s'.pool.cells = s.pool.cells) (hmade : s'.made = s.made) : Kept s' := by
  have hfind : ∀ k id', s.pool.find? k = some id' → s'.pool.find? k = some id' ∨ id' = id := by
    intro k id' hk
    by_cases hkey : k = key
    · rw [hkey, hf] at hk
      exact .inr (Option.some.inj hk).symm
    · rw [Pool.find?, hentries, Pool.lookup_filter_of_ne _ hkey]
      exact .inl hk
  refine h.frame (fun id' _ => by simp only [Pool.cell, hcells]) (fun k id' hk => ?_) hmade ?_
    (done_advance hc hcallers fun ch hstage => by cases hstage)
  · exact (hfind k id' hk).imp_right fun heq => by rw [heq]; exact hcell
  · intro j k st id' hj hw
    rcases (at_advance_iff hc hcallers).1 hj with ⟨_, _, rfl⟩ | ⟨_, hj⟩
    · cases hw
    · refine (hfind k id' (h.mapped j k st id' hj hw)).resolve_right fun heq => ?_
      rw [heq] at hw
      rw [(s.wanted_iff id).2 ⟨j, k, st, hj, hw⟩] at hfree
      cases hfree

theorem Kept.step {e : PoolEvent} (h : Kept s) (hs : Sound owner s) (hm : Moves s e s')
    (hd : s.detaches e = false) : Kept s' := by
  cases hm with
  | arrive key =>
      refine h.frame (fun _ _ => .rfl) (fun _ _ hk => .inl hk) rfl ?_ ?_
      · intro j k st id hj hw
        rcases (at_arrive_iff rfl).1 hj with hj | ⟨_, _, rfl⟩
        · exact h.mapped j k st id hj hw
        · cases hw
      · intro j k channel hj
        exact .inl (((at_arrive_iff rfl).1 hj).resolve_right fun hnew => by cases hnew.2.2)
  | join i key id hc hf =>
      refine h.frame (fun _ _ => .rfl) (fun _ _ hk => .inl hk) rfl ?_
        (done_advance hc rfl fun ch hstage => by cases hstage)
      refine h.mapped_advance hc rfl (fun _ _ hk => hk) fun id' hw => ?_
      cases hw
      exact hf
  | make i key hc hf =>
      have hfind : ∀ k id, s.pool.find? k = some id →
          (s.pool.entries ++ [(key, s.pool.cells.length)]).lookup k = some id :=
        fun k id hk => Pool.find?_append_of_some hk _
      have hcell : ∀ id, (s.pool.cells ++ [Cell.vacant])[id]?.getD .vacant = s.pool.cell id :=
        Pool.cell_append_vacant s.pool.cells
      refine h.frame (fun id channel => Iff.of_eq (congrArg (· = Cell.filled channel) (hcell id)))
        (fun k id hk => .inl (hfind k id hk)) rfl ?_
        (done_advance hc rfl fun ch hstage => by cases hstage)
      refine h.mapped_advance hc rfl hfind fun id' hw => ?_
      cases hw
      exact Pool.find?_append_self hf _
  | take i key id channel hc hcell =>
      -- the caller and the map agree on whose cell it is
      obtain ⟨hmem, hfound⟩ := h.filled id channel hcell
      have hkey : channel.key = key := by
        rw [← (hs.entry _ id hfound).2]
        exact (hs.caller i key _ hc).2
      refine h.frame (fun _ _ => .rfl) (fun _ _ hk => .inl hk) rfl ?_ ?_
      · exact h.mapped_advance hc rfl (fun _ _ hk => hk) fun id' hw => by cases hw
      · refine done_advance hc rfl fun ch hstage => ?_
        cases hstage
        exact ⟨hmem, hkey⟩
  | dial i key id result hc hcell =>
      have hid : id < s.pool.cells.length := (hs.caller i key _ hc).1
      refine h.frame (Pool.cell_set_unfilled rfl hid (by rw [hcell]; rfl) rfl)
        (fun _ _ hk => .inl hk) rfl ?_ (done_advance hc rfl fun ch hstage => by cases hstage)
      refine h.mapped_advance hc rfl (fun _ _ hk => hk) fun id' hw => ?_
      cases hw
      exact h.mapped i key _ id hc rfl
  | succeed i key id channel hc => exact h.succeed hs hc rfl rfl rfl
  | fail i key id e hc =>
      obtain ⟨⟨hid, _⟩, hbusy, _⟩ := hs.caller i key _ hc
      refine h.frame (Pool.cell_set_unfilled rfl hid (by rw [hbusy]; rfl) rfl)
        (fun _ _ hk => .inl hk) rfl ?_ (done_advance hc rfl fun ch hstage => by cases hstage)
      exact h.mapped_advance hc rfl (fun _ _ hk => hk) fun id' hw => by cases hw
  | forget i key id e hc hf hcell =>
      -- the cell would be detached otherwise
      have hfree : s.wanted id = false := by
        refine Bool.eq_false_iff.2 fun hw => ?_
        rw [(s.detaches_iff _).2 ⟨i, key, id, e, rfl, hc, hf, hcell, hw⟩] at hd
        cases hd
      exact h.forget hc hf hcell hfree rfl rfl rfl rfl
  | keep i key id e hc =>
      refine h.frame (fun _ _ => .rfl) (fun _ _ hk => .inl hk) rfl ?_
        (done_advance hc rfl fun ch hstage => by cases hstage)
      exact h.mapped_advance hc rfl (fun _ _ hk => hk) fun id' hw => by cases hw

/-- A run in which nothing detaches keeps everything. -/
theorem Kept.run {events : List PoolEvent} (h : Kept s) (hs : Sound owner s)
    (hrun : s.run? events = some s') (ha : s.attached events = true) :
    Kept s' ∧ ∃ owner', Sound owner' s' := by
  induction events generalizing s owner with
  | nil =>
      cases hrun
      exact ⟨h, owner, hs⟩
  | cons e rest ih =>
      obtain ⟨next, hstep, hrest⟩ := Option.bind_eq_some_iff.1 hrun
      have hm : Moves s e next := .of_step? hstep
      obtain ⟨owner', hs'⟩ := hs.step hm
      simp only [attached, hstep, Option.all_some, Bool.and_eq_true, Bool.not_eq_true'] at ha
      exact ih (h.step hs hm ha.1) hs' hrest ha.2

/-! ## Single flight -/

/-- Two attempts to connect for one key are under way. -/
def TwoInFlight (s : PoolCalls) : Prop :=
  ∃ i j key id id' result result', i ≠ j ∧ s.At i key (.dialing id result) ∧
    s.At j key (.dialing id' result')

/-- One attempt for a key at a time, one channel for a key, and everybody gets that one. -/
structure SingleFlight (s : PoolCalls) : Prop where
  one_attempt : ¬ s.TwoInFlight
  one_success : (s.made.map Channel.key).Nodup
  one_channel : ∀ i j key channel channel', s.At i key (.done (.ok channel)) →
    s.At j key (.done (.ok channel')) → channel = channel'

theorem Kept.singleFlight (h : Kept s) (hs : Sound owner s) : SingleFlight s where
  one_attempt := by
    rintro ⟨i, j, key, id, id', result, result', hne, hi, hj⟩
    have hfound : s.pool.find? key = some id := h.mapped i key _ id hi rfl
    rw [h.mapped j key _ id' hj rfl] at hfound
    cases hfound
    exact hne (hs.alone i j key key id result result' hi hj)
  one_success := h.nodup
  one_channel i j key channel channel' hi hj := by
    obtain ⟨hmem, hkey⟩ := h.done i key channel hi
    obtain ⟨hmem', hkey'⟩ := h.done j key channel' hj
    exact List.inj_on_of_nodup_map h.nodup hmem hmem' (hkey.trans hkey'.symm)

/-! ## What comes of detaching -/

/-- A newcomer dials for a key that the map has no cell for, whoever else dials for it. -/
theorem run?_newcomer (hf : s.pool.find? key = none) :
    s.run? [.arrive key, .move s.callers.length .lookUp,
        .move s.callers.length (.dial (.ok ()))] =
      some { s with
        pool :=
          { entries := s.pool.entries ++ [(key, s.pool.cells.length)]
            cells := s.pool.cells ++ [.busy]
            attempts := s.pool.attempts + 1 }
        callers := s.callers ++
          [⟨key, .dialing s.pool.cells.length (.ok ⟨key, s.pool.attempts⟩)⟩] } := by
  simp [run?, step?, Pool.move?, Pool.enter, hf, Pool.cell, Pool.setCell, PoolCaller.brings,
    Except.map]

/-- With an attempt under way for a key without an entry, a newcomer makes it two. -/
theorem exists_two_in_flight {id : Nat} {result : Except PoolError Channel}
    (hi : s.At i key (.dialing id result)) (hf : s.pool.find? key = none) :
    ∃ later s', s.run? later = some s' ∧ s'.TwoInFlight := by
  have hlt : i < s.callers.length := (List.getElem?_eq_some_iff.1 hi).1
  refine ⟨_, _, run?_newcomer hf, i, s.callers.length, key, id, s.pool.cells.length, result,
    .ok ⟨key, s.pool.attempts⟩, Nat.ne_of_lt hlt, ?_, ?_⟩
  · exact (List.getElem?_append_left hlt).trans hi
  · exact List.getElem?_concat_length

/-- A caller that waits at a vacant cell may dial for it. -/
theorem run?_dial {id : Nat} (hi : s.At i key (.waiting id)) (hv : s.pool.cell id = .vacant) :
    s.run? [.move i (.dial (.ok ()))] =
      some { s with
        pool := { s.pool.setCell id .busy with attempts := s.pool.attempts + 1 }
        callers := s.advance i key (.dialing id (.ok ⟨key, s.pool.attempts⟩)) } := by
  rw [At] at hi
  simp [run?, step?, hi, Pool.move?, hv, PoolCaller.brings, Except.map, advance]

/-- The key that a caller wants is the one its cell was made for. -/
theorem Sound.owner_of_wanted {id : Nat} (h : Sound owner s) (hi : s.At i key stage)
    (hw : stage.wanted? = some id) : owner id = key := by
  cases stage with
  | waiting id' => cases hw; exact (h.caller i key _ hi).2
  | dialing id' result => cases hw; exact (h.caller i key _ hi).1.2
  | arriving | forgetting | done => cases hw

/-- Where somebody expects a channel in a cell that the map does not have, two attempts for the key
    may come to be under way. -/
theorem Sound.exists_two_in_flight {id : Nat} (h : Sound owner s) (hi : s.At i key stage)
    (hw : stage.wanted? = some id) (hf : s.pool.find? key = none)
    (hcell : (s.pool.cell id).isFilled = false) :
    ∃ later s', s.run? later = some s' ∧ s'.TwoInFlight := by
  cases hc : s.pool.cell id with
  | filled channel =>
      rw [hc] at hcell
      cases hcell
  | busy =>
      -- somebody dials for the cell already
      obtain ⟨j, k, result, hj⟩ := h.busy id hc
      have hk : k = key := (h.caller j k _ hj).1.2.symm.trans (h.owner_of_wanted hi hw)
      rw [hk] at hj
      exact PoolCalls.exists_two_in_flight hj hf
  | vacant =>
      -- the caller that expects a channel there dials for it
      cases stage with
      | waiting id' =>
          cases hw
          have hi' : At { s with
              pool := { s.pool.setCell id .busy with attempts := s.pool.attempts + 1 }
              callers := s.advance i key (.dialing id (.ok ⟨key, s.pool.attempts⟩)) }
              i key (.dialing id (.ok ⟨key, s.pool.attempts⟩)) :=
            (at_advance_iff hi rfl).2 (.inl ⟨rfl, rfl, rfl⟩)
          obtain ⟨later, s', hrun, htwo⟩ := PoolCalls.exists_two_in_flight hi' hf
          refine ⟨[.move i (.dial (.ok ()))] ++ later, s', ?_, htwo⟩
          rw [run?_append, run?_dial hi hc]
          exact hrun
      | dialing id' result =>
          cases hw
          have hbusy := (h.caller i key _ hi).2.1
          rw [hc] at hbusy
          cases hbusy
      | arriving | forgetting | done => cases hw

/-- Every event that detaches makes two attempts for a key possible. -/
theorem Sound.exists_of_detaches {e : PoolEvent} (h : Sound owner s) (hd : s.detaches e = true) :
    ∃ later s', s.run? (e :: later) = some s' ∧ s'.TwoInFlight := by
  obtain ⟨i, key, id, error, rfl, hc, hf, hcell, hw⟩ := (s.detaches_iff e).1 hd
  obtain ⟨j, k, stage, hj, hstage⟩ := (s.wanted_iff id).1 hw
  have hk : k = key := (h.owner_of_wanted hj hstage).symm.trans (h.entry key id hf).2
  have hji : j ≠ i := fun hji => by
    rw [hji] at hj
    obtain ⟨_, rfl⟩ := hj.inj hc
    cases hstage
  have hstep : s.step? (.move i .forget) = some { s with
      pool := { s.pool with entries := s.pool.entries.filter fun e => e.1 ≠ key }
      callers := s.advance i key (.done (.error error)) } := by
    rw [At] at hc
    simp [step?, hc, Pool.move?, Pool.forget, hf, hcell, PoolCaller.brings, advance]
  obtain ⟨owner', hs'⟩ := h.step (.of_step? hstep)
  obtain ⟨later, s', hrun, htwo⟩ := hs'.exists_two_in_flight
    ((at_advance_iff hc rfl).2 (.inr ⟨hji, hj⟩)) hstage
    (by rw [hk]; exact Pool.lookup_filter_self ..) hcell
  exact ⟨later, s', by rw [run?, hstep]; exact hrun, htwo⟩

/-- **One attempt and one channel for a key, as long as nothing detaches.** Whoever arrives, in
    whatever order the callers take their steps, and however attempts end: if no caller takes a cell
    out of the map in which another one still expects a channel, then no two attempts for a key are
    under way, one of them at most succeeds, and everybody who gets a channel for the key gets the
    same one. Wherever a run allows such a caller to do so, it goes on to two attempts for one
    key. -/
theorem singleFlight_of_attached {events : List PoolEvent}
    (hrun : ({} : PoolCalls).run? events = some s) :
    (attached {} events = true → SingleFlight s) ∧
      ∀ e, s.detaches e = true → ∃ later s', s.run? (e :: later) = some s' ∧ s'.TwoInFlight := by
  refine ⟨fun ha => ?_, fun e hd => ?_⟩
  · obtain ⟨hk, owner, hs⟩ :=
      Kept.start.run (Sound.start fun _ => ⟨[], false⟩) hrun ha
    exact hk.singleFlight hs
  · obtain ⟨owner, hs⟩ := Sound.of_run? hrun
    exact hs.exists_of_detaches hd

/-- The key of the runs below. -/
def someKey : PoolKey := ⟨['a'], false⟩

/-- An attempt that fails with somebody waiting. -/
def failedAttempt : List PoolEvent :=
  [.arrive someKey, .arrive someKey, .move 0 .lookUp, .move 1 .lookUp,
    .move 0 (.dial (.error (.connect ['a'] []))), .move 0 .conclude]

/-- The waiting caller fills the cell before the failed one could take it out of the map. -/
def retriedInTime : List PoolEvent :=
  failedAttempt ++ [.move 1 (.dial (.ok ())), .move 1 .conclude, .move 0 .forget,
    .arrive someKey, .move 2 .lookUp, .move 2 .take]

theorem singleFlight_of_attached_after_failure :
    (∃ s, ({} : PoolCalls).run? retriedInTime = some s ∧ s.SingleFlight) ∧
    ∃ s, ({} : PoolCalls).run? failedAttempt = some s ∧
      s.detaches (.move 0 .forget) = true ∧
      ∃ later s', s.run? (.move 0 .forget :: later) = some s' ∧ s'.TwoInFlight := by
  have hretried : ({} : PoolCalls).run? retriedInTime = some _ := rfl
  have hfailed : ({} : PoolCalls).run? failedAttempt = some _ := rfl
  exact ⟨⟨_, hretried, (singleFlight_of_attached hretried).1 rfl⟩,
    _, hfailed, rfl, (singleFlight_of_attached hfailed).2 _ rfl⟩

/-- A failed caller takes the cell out of the map for which the next one dials already: a newcomer
    dials for another cell, both succeed, and the two get different channels. -/
theorem two_attempts_make_two_channels :
    ∃ s s', ({} : PoolCalls).run? (failedAttempt ++ [.move 1 (.dial (.ok ())), .move 0 .forget,
        .arrive someKey, .move 2 .lookUp, .move 2 (.dial (.ok ()))]) = some s ∧
      s.TwoInFlight ∧
      s.run? [.move 1 .conclude, .move 2 .conclude] = some s' ∧
      ¬ (s'.made.map Channel.key).Nodup ∧
      ∃ channel channel', s'.At 1 someKey (.done (.ok channel)) ∧
        s'.At 2 someKey (.done (.ok channel')) ∧ channel ≠ channel' := by
  refine ⟨_, _, rfl, ⟨1, 2, someKey, 0, 1, .ok ⟨someKey, 1⟩, .ok ⟨someKey, 2⟩, by decide, rfl, rfl⟩,
    rfl, by decide, ⟨someKey, 1⟩, ⟨someKey, 2⟩, rfl, rfl, by decide⟩

end PoolCalls

end InterceptingProxy
