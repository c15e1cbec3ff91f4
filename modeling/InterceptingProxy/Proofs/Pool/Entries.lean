import InterceptingProxy.Proofs.Pool.SingleFlight

set_option autoImplicit false

/-! # What the map holds

An entry of the map either leads to a channel or to a cell that some caller holds which is not done:
a caller lets go of a cell without a channel only by taking the cell out of the map, or when the map
has no entry for it any more. So a failure leaves nothing behind. An entry that leads to a channel
stays for ever, and whoever arrives later takes the channel from it.

Whose cells they are is `Sound`; `Tidy` adds who holds them and where the channels came from.
`pool_entries` is what a user of the pool may rely on. -/

namespace InterceptingProxy

namespace PoolCalls

variable {owner : Nat → PoolKey} {s s' : PoolCalls} {i : Nat} {key : PoolKey} {old stage : Stage}

/-! ## What an event leaves as it is -/

theorem Moves.done_stays {e : PoolEvent} {j : Nat} {k : PoolKey}
    {result : Except PoolError Channel} (hm : Moves s e s') (hj : s.At j k (.done result)) :
    s'.At j k (.done result) := by
  cases hm with
  | arrive key => exact (at_arrive_iff rfl).2 (.inl hj)
  | join i key id hc | make i key hc | take i key id channel hc | dial i key id r hc
  | succeed i key id channel hc | fail i key id e hc | forget i key id e hc | keep i key id e hc =>
      refine (at_advance_iff hc rfl).2 (.inr ⟨fun hji => ?_, hj⟩)
      rw [hji] at hj
      cases (hc.inj hj).2

/-- A channel in a cell was there before, or the attempt for the cell has just made it. -/
theorem Moves.filled_before {e : PoolEvent} {id : Nat} {channel : Channel} (hm : Moves s e s')
    (hs : Sound owner s) (hf : s'.pool.cell id = .filled channel) :
    s.pool.cell id = .filled channel ∨
      ∃ i key, s.At i key (.dialing id (.ok channel)) ∧ s'.made = s.made ++ [channel] := by
  cases hm with
  | make i key hc hnone =>
      rw [Pool.cell, Pool.cell_append_vacant] at hf
      exact .inl hf
  | dial i key id' r hc hcell =>
      have hid := (hs.caller i key _ hc).1
      exact .inl ((Pool.cell_set_unfilled rfl hid (by rw [hcell]; rfl) rfl id channel).1 hf)
  | fail i key id' e hc =>
      obtain ⟨⟨hid, -⟩, hbusy, -⟩ := hs.caller i key _ hc
      exact .inl ((Pool.cell_set_unfilled rfl hid (by rw [hbusy]; rfl) rfl id channel).1 hf)
  | succeed i key id' ch hc =>
      by_cases heq : id = id'
      · have hid := (hs.caller i key _ hc).1.1
        rw [heq, Pool.cell_set_self rfl hid] at hf
        cases hf
        exact .inr ⟨i, key, heq ▸ hc, rfl⟩
      · rw [Pool.cell_set_of_ne rfl heq] at hf
        exact .inl hf
  | arrive | join | take | forget | keep => exact .inl hf

theorem Moves.filled_stays {e : PoolEvent} {id : Nat} {channel : Channel} (hm : Moves s e s')
    (hs : Sound owner s) (hf : s.pool.cell id = .filled channel) :
    s'.pool.cell id = .filled channel := by
  -- whoever changes a cell finds it vacant or busy
  cases hm with
  | make i key hc hnone =>
      rw [Pool.cell, Pool.cell_append_vacant]
      exact hf
  | dial i key id' r hc hcell =>
      have hne : id ≠ id' := by
        rintro rfl
        rw [hcell] at hf
        cases hf
      exact (Pool.cell_set_of_ne rfl hne).trans hf
  | fail i key id' e hc | succeed i key id' ch hc =>
      have hne : id ≠ id' := by
        rintro rfl
        rw [(hs.caller i key _ hc).2.1] at hf
        cases hf
      exact (Pool.cell_set_of_ne rfl hne).trans hf
  | arrive | join | take | forget | keep => exact hf

/-- An entry was there before, or a caller has just made it. -/
theorem Moves.found_before {e : PoolEvent} {k : PoolKey} {id : Nat} (hm : Moves s e s')
    (hf : s'.pool.find? k = some id) :
    s.pool.find? k = some id ∨ id = s.pool.cells.length ∧ ∃ i, s'.At i k (.waiting id) := by
  cases hm with
  | make i key hc hnone =>
      rcases Pool.find?_of_append hf with hf | ⟨rfl, rfl⟩
      · exact .inl hf
      · exact .inr ⟨rfl, i, (at_advance_iff hc rfl).2 (.inl ⟨rfl, rfl, rfl⟩)⟩
  | forget => exact .inl (Pool.find?_of_filter hf)
  | arrive | join | take | dial | succeed | fail | keep => exact .inl hf

/-- An entry that leads to a channel is not taken out. -/
theorem Moves.found_stays {e : PoolEvent} {k : PoolKey} {id : Nat} {channel : Channel}
    (hm : Moves s e s') (hf : s.pool.find? k = some id)
    (hcell : s.pool.cell id = .filled channel) : s'.pool.find? k = some id := by
  cases hm with
  | make i key hc hnone => exact Pool.find?_append_of_some hf _
  | forget i key id' e hc hfound hunfilled =>
      have hk : k ≠ key := by
        rintro rfl
        rw [hfound] at hf
        cases hf
        rw [hcell] at hunfilled
        cases hunfilled
      rw [Pool.find?, Pool.lookup_filter_of_ne _ hk]
      exact hf
  | arrive | join | take | dial | succeed | fail | keep => exact hf

/-! ## The invariant -/

/-- Who is concerned by a cell: its key in the map, and the callers that hold it. -/
def Concerns (s : PoolCalls) (id : Nat) (key : PoolKey) : Prop :=
  s.pool.find? key = some id ∨ ∃ i stage, s.At i key stage ∧ stage.cell? = some id

/-- What every event keeps of the entries and the channels. -/
structure Tidy (s : PoolCalls) : Prop where
  keys : (s.pool.entries.map Prod.fst).Nodup
  held : ∀ key id, s.pool.find? key = some id → (s.pool.cell id).isFilled = false →
    ∃ i stage, s.At i key stage ∧ stage.cell? = some id
  filled : ∀ id channel, s.pool.cell id = .filled channel →
    channel ∈ s.made ∧ ∀ key, s.Concerns id key → channel.key = key
  done : ∀ i key channel, s.At i key (.done (.ok channel)) → channel ∈ s.made ∧ channel.key = key
  made : ∀ channel ∈ s.made, ∃ i, s.At i channel.key (.done (.ok channel))

theorem Tidy.start : Tidy {} where
  keys := List.nodup_nil
  held key id h := by cases h
  filled id channel h := by simp [Pool.cell] at h
  done i key channel h := by simp [At] at h
  made channel h := by cases h

/-- Nobody becomes concerned by a cell that has a channel unless the map leads there. -/
theorem Moves.concerned_before {e : PoolEvent} {k : PoolKey} {id : Nat} (hm : Moves s e s')
    (hk : s'.Concerns id k) :
    s.Concerns id k ∨ s.pool.cells.length ≤ id := by
  -- a caller that has moved held the cell before, found it in the map or has made it
  have hmoved : ∀ {i : Nat} {key : PoolKey} {old stage : Stage}, s.At i key old →
      s'.callers = s.advance i key stage →
      (stage.cell? = some id → s.Concerns id key ∨ s.pool.cells.length ≤ id) →
      (∃ j st, s'.At j k st ∧ st.cell? = some id) →
      s.Concerns id k ∨ s.pool.cells.length ≤ id := by
    rintro i key old stage hc hcallers hnew ⟨j, st, hj, hst⟩
    rcases (at_advance_iff hc hcallers).1 hj with ⟨-, rfl, rfl⟩ | ⟨-, hj⟩
    · exact hnew hst
    · exact .inl (.inr ⟨j, st, hj, hst⟩)
  rcases hk with hfound | hholder
  · rcases hm.found_before hfound with hfound | ⟨rfl, -⟩
    · exact .inl (.inl hfound)
    · exact .inr (Nat.le_refl _)
  · cases hm with
    | arrive key =>
        obtain ⟨j, st, hj, hst⟩ := hholder
        rcases (at_arrive_iff rfl).1 hj with hj | ⟨-, -, rfl⟩
        · exact .inl (.inr ⟨j, st, hj, hst⟩)
        · cases hst
    | join i key id' hc hf =>
        refine hmoved hc rfl (fun hst => ?_) hholder
        cases hst
        exact .inl (.inl hf)
    | make i key hc hnone =>
        refine hmoved hc rfl (fun hst => ?_) hholder
        cases hst
        exact .inr (Nat.le_refl _)
    | dial i key id' r hc hcell =>
        refine hmoved hc rfl (fun hst => ?_) hholder
        exact .inl (.inr ⟨i, _, hc, hst⟩)
    | fail i key id' e hc =>
        refine hmoved hc rfl (fun hst => ?_) hholder
        exact .inl (.inr ⟨i, _, hc, hst⟩)
    | take i key id' ch hc | succeed i key id' ch hc | forget i key id' e hc
    | keep i key id' e hc =>
        refine hmoved hc rfl (fun hst => ?_) hholder
        cases hst

/-- The key of a cell is that of everybody who is concerned by it. -/
theorem Sound.owner_of_concerns {id : Nat} {k : PoolKey} (hs : Sound owner s)
    (hk : s.Concerns id k) : owner id = k := by
  rcases hk with hfound | ⟨i, stage, hi, hstage⟩
  · exact (hs.entry k id hfound).2
  · have hfits := hs.caller i k stage hi
    cases stage with
    | waiting id' | forgetting id' e => cases hstage; exact hfits.2
    | dialing id' r => cases hstage; exact hfits.1.2
    | arriving | done r => cases hstage

/-- An unfilled cell stays held when its holder moves on, for as long as the map leads to it. -/
theorem Tidy.held_advance (h : Tidy s) (hc : s.At i key old)
    (hcallers : s'.callers = s.advance i key stage)
    (hfind : ∀ k id, s'.pool.find? k = some id → s.pool.find? k = some id)
    (hcell : ∀ id, (s'.pool.cell id).isFilled = false → (s.pool.cell id).isFilled = false)
    (hleft : ∀ id, old.cell? = some id → s'.pool.find? key = some id →
      (s'.pool.cell id).isFilled = false → stage.cell? = some id) :
    ∀ k id, s'.pool.find? k = some id → (s'.pool.cell id).isFilled = false →
      ∃ j st, s'.At j k st ∧ st.cell? = some id := by
  intro k id hf hu
  obtain ⟨j, st, hj, hst⟩ := h.held k id (hfind k id hf) (hcell id hu)
  by_cases hji : j = i
  · rw [hji] at hj
    obtain ⟨rfl, rfl⟩ := hc.inj hj
    exact ⟨i, stage, (at_advance_iff hc hcallers).2 (.inl ⟨rfl, rfl, rfl⟩), hleft id hst hf hu⟩
  · exact ⟨j, st, (at_advance_iff hc hcallers).2 (.inr ⟨hji, hj⟩), hst⟩

theorem Tidy.held_step {e : PoolEvent} (h : Tidy s) (hs : Sound owner s) (hm : Moves s e s') :
    ∀ k id, s'.pool.find? k = some id → (s'.pool.cell id).isFilled = false →
      ∃ j st, s'.At j k st ∧ st.cell? = some id := by
  -- cells are not emptied
  have hcell : ∀ id, (s'.pool.cell id).isFilled = false → (s.pool.cell id).isFilled = false := by
    intro id hu
    cases hf : s.pool.cell id with
    | filled channel =>
        rw [hm.filled_stays hs hf] at hu
        cases hu
    | vacant | busy => rfl
  have hfind := fun k id (hf : s'.pool.find? k = some id) => hm.found_before hf
  cases hm with
  | arrive key =>
      intro k id hf hu
      obtain ⟨j, st, hj, hst⟩ := h.held k id hf hu
      exact ⟨j, st, (at_arrive_iff rfl).2 (.inl hj), hst⟩
  | make i key hc hnone =>
      intro k id hf hu
      rcases hfind k id hf with hf | ⟨-, j, hj⟩
      · obtain ⟨j, st, hj, hst⟩ := h.held k id hf (hcell id hu)
        refine ⟨j, st, (at_advance_iff hc rfl).2 (.inr ⟨fun hji => ?_, hj⟩), hst⟩
        rw [hji] at hj
        obtain ⟨-, rfl⟩ := hc.inj hj
        cases hst
      · exact ⟨j, _, hj, rfl⟩
  | join i key id' hc hf' =>
      exact h.held_advance hc rfl (fun _ _ hf => hf) hcell fun id hold => by cases hold
  | take i key id' ch hc hfilled =>
      refine h.held_advance hc rfl (fun _ _ hf => hf) hcell fun id hold _ hu => ?_
      cases hold
      rw [hfilled] at hu
      cases hu
  | dial i key id' r hc =>
      exact h.held_advance hc rfl (fun _ _ hf => hf) hcell fun id hold _ _ => hold
  | fail i key id' e hc =>
      exact h.held_advance hc rfl (fun _ _ hf => hf) hcell fun id hold _ _ => hold
  | succeed i key id' ch hc =>
      refine h.held_advance hc rfl (fun _ _ hf => hf) hcell fun id hold _ hu => ?_
      cases hold
      rw [Pool.cell_set_self rfl (hs.caller i key _ hc).1.1] at hu
      cases hu
  | forget i key id' e hc =>
      refine h.held_advance hc rfl (fun _ _ hf => Pool.find?_of_filter hf) hcell fun id _ hf _ => ?_
      rw [Pool.find?, Pool.lookup_filter_self] at hf
      cases hf
  | keep i key id' e hc hkept =>
      refine h.held_advance hc rfl (fun _ _ hf => hf) hcell fun id hold hf hu => ?_
      cases hold
      rw [hkept hf] at hu
      cases hu

theorem Tidy.keys_step {e : PoolEvent} (h : Tidy s) (hm : Moves s e s') :
    (s'.pool.entries.map Prod.fst).Nodup := by
  cases hm with
  | make i key hc hnone =>
      have hnew : key ∉ s.pool.entries.map Prod.fst := by
        intro hmem
        obtain ⟨entry, hentry, rfl⟩ := List.mem_map.1 hmem
        have hne := List.lookup_eq_none_iff.1 hnone entry hentry
        simp at hne
      simp only [List.map_append, List.map_cons, List.map_nil]
      refine List.nodup_append.2 ⟨h.keys, List.nodup_singleton _, fun k hold k' hk' heq => ?_⟩
      rw [heq, List.mem_singleton.1 hk'] at hold
      exact hnew hold
  | forget => exact h.keys.sublist (List.filter_sublist.map Prod.fst)
  | arrive | join | take | dial | succeed | fail | keep => exact h.keys

theorem Moves.made_subset {e : PoolEvent} (hm : Moves s e s') : s.made ⊆ s'.made := by
  cases hm with
  | succeed => exact List.subset_append_left _ _
  | arrive | join | make | take | dial | fail | forget | keep => exact List.Subset.refl _

/-- Who is done with a channel was so before, or has it from a cell of its own. -/
theorem Moves.done_before {e : PoolEvent} (hm : Moves s e s') (hs : Sound owner s) :
    ∀ j k channel, s'.At j k (.done (.ok channel)) →
      s.At j k (.done (.ok channel)) ∨
        ∃ id, s.Concerns id k ∧ s'.pool.cell id = .filled channel := by
  cases hm with
  | arrive key =>
      intro j k channel hj
      rcases (at_arrive_iff rfl).1 hj with hj | ⟨-, -, hstage⟩
      · exact .inl hj
      · cases hstage
  | take i key id ch hc hcell =>
      refine done_advance hc rfl fun channel hstage => ?_
      cases hstage
      exact ⟨id, .inr ⟨i, _, hc, rfl⟩, hcell⟩
  | succeed i key id ch hc =>
      refine done_advance hc rfl fun channel hstage => ?_
      cases hstage
      exact ⟨id, .inr ⟨i, _, hc, rfl⟩, Pool.cell_set_self rfl (hs.caller i key _ hc).1.1⟩
  | join i key id hc | make i key hc | dial i key id r hc | fail i key id e hc
  | forget i key id e hc | keep i key id e hc =>
      exact done_advance hc rfl fun channel hstage => by cases hstage

/-- Every channel in a cell was made for those whose cell it is. -/
theorem Tidy.filled_step {e : PoolEvent} (h : Tidy s) (hs : Sound owner s) (hm : Moves s e s')
    {id : Nat} {channel : Channel} (hf : s'.pool.cell id = .filled channel) :
    id < s.pool.cells.length ∧ channel ∈ s'.made ∧ ∀ k, s.Concerns id k → channel.key = k := by
  rcases hm.filled_before hs hf with hold | ⟨i, key, hi, hmade⟩
  · obtain ⟨hmem, hkey⟩ := h.filled id channel hold
    exact ⟨Pool.lt_of_filled hold, hm.made_subset hmem, hkey⟩
  · obtain ⟨⟨hid, howner⟩, -, hkey⟩ := hs.caller i key _ hi
    refine ⟨hid, by simp [hmade], fun k hk => ?_⟩
    rw [hkey channel rfl, ← howner, hs.owner_of_concerns hk]

theorem Tidy.made_step {e : PoolEvent} (h : Tidy s) (hs : Sound owner s) (hm : Moves s e s') :
    ∀ channel ∈ s'.made, ∃ i, s'.At i channel.key (.done (.ok channel)) := by
  intro channel hmem
  have hold : channel ∈ s.made → ∃ i, s'.At i channel.key (.done (.ok channel)) := by
    intro hmem
    obtain ⟨i, hi⟩ := h.made channel hmem
    exact ⟨i, hm.done_stays hi⟩
  cases hm with
  | succeed i key id ch hc =>
      rcases List.mem_append.1 hmem with hmem | hnew
      · exact hold hmem
      · have hkey : ch.key = key := (hs.caller i key _ hc).2.2 ch rfl
        rw [List.mem_singleton.1 hnew, hkey]
        exact ⟨i, (at_advance_iff hc rfl).2 (.inl ⟨rfl, rfl, rfl⟩)⟩
  | arrive | join | make | take | dial | fail | forget | keep => exact hold hmem

theorem Tidy.step {e : PoolEvent} (h : Tidy s) (hs : Sound owner s) (hm : Moves s e s') :
    Tidy s' where
  keys := h.keys_step hm
  held := h.held_step hs hm
  filled id channel hf := by
    obtain ⟨hid, hmem, hkey⟩ := h.filled_step hs hm hf
    refine ⟨hmem, fun k hk => hkey k ?_⟩
    exact (hm.concerned_before hk).resolve_right (Nat.not_le_of_lt hid)
  done j k channel hj := by
    rcases hm.done_before hs j k channel hj with hj | ⟨id, hk, hf⟩
    · obtain ⟨hmem, hkey⟩ := h.done j k channel hj
      exact ⟨hm.made_subset hmem, hkey⟩
    · obtain ⟨-, hmem, hkey⟩ := h.filled_step hs hm hf
      exact ⟨hmem, hkey k hk⟩
  made := h.made_step hs hm

theorem Tidy.of_run? {events : List PoolEvent} (h : ({} : PoolCalls).run? events = some s) :
    Tidy s := by
  have hboth : (∃ owner, Sound owner s) ∧ Tidy s := by
    refine run?_induction (P := fun s => (∃ owner, Sound owner s) ∧ Tidy s)
      ⟨⟨fun _ => ⟨[], false⟩, Sound.start _⟩, Tidy.start⟩ ?_ h
    rintro s e s' ⟨⟨owner, hs⟩, ht⟩ hm
    exact ⟨hs.step hm, ht.step hs hm⟩
  exact hboth.2

/-- The list of entries is a map. -/
theorem Tidy.find?_of_mem (h : Tidy s) {id : Nat} (hmem : (key, id) ∈ s.pool.entries) :
    s.pool.find? key = some id := by
  have hkeys := h.keys
  unfold Pool.find?
  generalize s.pool.entries = entries at hmem hkeys
  induction entries with
  | nil => cases hmem
  | cons entry rest ih =>
      rw [List.map_cons, List.nodup_cons] at hkeys
      rw [List.lookup_cons]
      rcases List.mem_cons.1 hmem with rfl | hmem
      · simp
      · have hne : key ≠ entry.1 := by
          rintro rfl
          exact hkeys.1 (List.mem_map.2 ⟨_, hmem, rfl⟩)
        rw [show (key == entry.1) = false by simpa using hne]
        exact ih hmem hkeys.2

/-! ## Established entries -/

/-- The entry of a key leads to a channel, and whoever has come since takes it. -/
structure Established (newcomers : Nat) (key : PoolKey) (id : Nat) (channel : Channel)
    (s : PoolCalls) : Prop where
  found : s.pool.find? key = some id
  filled : s.pool.cell id = .filled channel
  newcomer : ∀ j stage, newcomers ≤ j → s.At j key stage →
    stage = .arriving ∨ stage = .waiting id ∨ stage = .done (.ok channel)

theorem Established.start {id : Nat} {channel : Channel} (hf : s.pool.find? key = some id)
    (hc : s.pool.cell id = .filled channel) :
    Established s.callers.length key id channel s where
  found := hf
  filled := hc
  newcomer j stage hj hat := by
    have hnone : s.callers[j]? = none := List.getElem?_eq_none hj
    rw [show s.callers[j]? = some ⟨key, stage⟩ from hat] at hnone
    cases hnone

theorem Established.step {e : PoolEvent} {n id : Nat} {channel : Channel}
    (h : Established n key id channel s) (hs : Sound owner s) (hm : Moves s e s') :
    Established n key id channel s' where
  found := hm.found_stays h.found h.filled
  filled := hm.filled_stays hs h.filled
  newcomer := by
    -- a newcomer that moves takes the way to the channel
    have hmoved : ∀ {i : Nat} {k : PoolKey} {old new : Stage}, s.At i k old →
        s'.callers = s.advance i k new →
        (n ≤ i → k = key → new = .arriving ∨ new = .waiting id ∨ new = .done (.ok channel)) →
        ∀ j stage, n ≤ j → s'.At j key stage →
          stage = .arriving ∨ stage = .waiting id ∨ stage = .done (.ok channel) := by
      intro i k old new hc hcallers hnew j stage hj hat
      rcases (at_advance_iff hc hcallers).1 hat with ⟨rfl, rfl, rfl⟩ | ⟨-, hat⟩
      · exact hnew hj rfl
      · exact h.newcomer j stage hj hat
    cases hm with
    | arrive k =>
        intro j stage hj hat
        rcases (at_arrive_iff rfl).1 hat with hat | ⟨-, -, rfl⟩
        · exact h.newcomer j stage hj hat
        · exact .inl rfl
    | join i k id' hc hf =>
        refine hmoved hc rfl fun _ hk => ?_
        rw [hk, h.found] at hf
        cases hf
        exact .inr (.inl rfl)
    | make i k hc hnone =>
        refine hmoved hc rfl fun _ hk => ?_
        rw [hk, h.found] at hnone
        cases hnone
    | take i k id' ch hc hcell =>
        refine hmoved hc rfl fun hj hk => ?_
        subst hk
        rcases h.newcomer i _ hj hc with hst | hst | hst
        · cases hst
        · cases hst
          rw [h.filled] at hcell
          cases hcell
          exact .inr (.inr rfl)
        · cases hst
    | dial i k id' r hc hcell =>
        refine hmoved hc rfl fun hj hk => ?_
        subst hk
        rcases h.newcomer i _ hj hc with hst | hst | hst
        · cases hst
        · cases hst
          rw [h.filled] at hcell
          cases hcell
        · cases hst
    | succeed i k id' ch hc | fail i k id' e hc | forget i k id' e hc | keep i k id' e hc =>
        refine hmoved hc rfl fun hj hk => ?_
        subst hk
        rcases h.newcomer i _ hj hc with hst | hst | hst <;> cases hst

theorem Established.run {later : List PoolEvent} {n id : Nat} {channel : Channel}
    (h : Established n key id channel s) (hs : Sound owner s) (hrun : s.run? later = some s') :
    Established n key id channel s' := by
  have hboth : (∃ owner, Sound owner s') ∧ Established n key id channel s' := by
    refine run?_induction
      (P := fun s => (∃ owner, Sound owner s) ∧ Established n key id channel s)
      ⟨⟨owner, hs⟩, h⟩ ?_ hrun
    rintro s e s' ⟨⟨owner, hs⟩, he⟩ hm
    exact ⟨hs.step hm, he.step hs hm⟩
  exact hboth.2

/-! ## The whole pool -/

/-- **Failures leave nothing, successes are permanent.** Whoever arrives, in whatever order the
    callers take their steps, and however attempts end:

    * an entry without a channel leads to a cell that a caller still holds;
    * when all callers are done, every entry counts and leads to a channel that some caller got;
    * an entry that leads to a channel is never taken out or changed, and who arrives later for its
      key makes no attempt;
    * a caller gets only channels that an attempt has made for its own key. -/
theorem pool_entries {events : List PoolEvent} (hrun : ({} : PoolCalls).run? events = some s) :
    (∀ key id, (key, id) ∈ s.pool.entries → (s.pool.cell id).isFilled = false →
      ∃ i stage, s.At i key stage ∧ stage.cell? = some id) ∧
    ((∀ c ∈ s.callers, ∃ result, c.stage = .done result) →
      s.pool.size = s.pool.entries.length ∧
      ∀ key id, (key, id) ∈ s.pool.entries → ∃ i channel,
        s.pool.cell id = .filled channel ∧ channel.key = key ∧ s.At i key (.done (.ok channel))) ∧
    (∀ key id channel, (key, id) ∈ s.pool.entries → s.pool.cell id = .filled channel →
      ∀ later s', s.run? later = some s' →
        (key, id) ∈ s'.pool.entries ∧ s'.pool.cell id = .filled channel ∧
        ∀ j stage, s.callers.length ≤ j → s'.At j key stage →
          stage = .arriving ∨ stage = .waiting id ∨ stage = .done (.ok channel)) ∧
    ∀ i key channel, s.At i key (.done (.ok channel)) → channel ∈ s.made ∧ channel.key = key := by
  have ht : Tidy s := .of_run? hrun
  obtain ⟨owner, hs⟩ := Sound.of_run? hrun
  refine ⟨fun key id hmem hu => ?_, fun hdone => ?_,
    fun key id channel hmem hf later s' hlater => ?_, ht.done⟩
  · exact ht.held key id (ht.find?_of_mem hmem) hu
  · have hall : ∀ e ∈ s.pool.entries, (s.pool.cell e.2).isFilled = true := by
      rintro ⟨key, id⟩ hmem
      by_contra hu
      -- a caller that holds the cell is not done
      obtain ⟨i, stage, hi, hstage⟩ :=
        ht.held key id (ht.find?_of_mem hmem) (Bool.eq_false_iff.2 hu)
      obtain ⟨result, hresult⟩ := hdone _ (List.mem_of_getElem? hi)
      cases hresult
      cases hstage
    refine ⟨List.countP_eq_length.2 hall, fun key id hmem => ?_⟩
    have hfilled := hall _ hmem
    cases hcell : s.pool.cell id with
    | filled channel =>
        obtain ⟨hmade, hkey⟩ := ht.filled id channel hcell
        obtain ⟨i, hi⟩ := ht.made channel hmade
        rw [hkey key (.inl (ht.find?_of_mem hmem))] at hi
        exact ⟨i, channel, rfl, hkey key (.inl (ht.find?_of_mem hmem)), hi⟩
    | vacant | busy =>
        simp only [hcell] at hfilled
        cases hfilled
  · have he := (Established.start (ht.find?_of_mem hmem) hf).run hs hlater
    exact ⟨Pool.mem_entries_of_find? he.found, he.filled, he.newcomer⟩

/-- A destination that cannot be reached beside one that can. -/
def reachableKey : PoolKey := ⟨['b'], true⟩

def failureAndSuccess : List PoolEvent :=
  [.arrive someKey, .arrive reachableKey, .move 0 .lookUp, .move 1 .lookUp,
    .move 0 (.dial (.error (.connect ['a'] []))), .move 1 (.dial (.ok ())), .move 0 .conclude,
    .move 0 .forget, .move 1 .conclude]

theorem pool_entries_of_failureAndSuccess :
    ∃ s, ({} : PoolCalls).run? failureAndSuccess = some s ∧
      s.pool.entries = [(reachableKey, 1)] ∧
      (∃ i channel, s.pool.cell 1 = .filled channel ∧ channel.key = reachableKey ∧
        s.At i reachableKey (.done (.ok channel))) ∧
      ∀ later s', s.run? later = some s' → (reachableKey, 1) ∈ s'.pool.entries := by
  have hrun : ({} : PoolCalls).run? failureAndSuccess = some _ := rfl
  obtain ⟨-, hidle, hkept, -⟩ := pool_entries hrun
  have hdone : ∀ c ∈ [PoolCaller.mk someKey (.done (.error (.connect ['a'] []))),
      ⟨reachableKey, .done (.ok ⟨reachableKey, 1⟩)⟩], ∃ result, c.stage = .done result := by
    simp
  refine ⟨_, hrun, rfl, (hidle hdone).2 reachableKey 1 List.mem_cons_self,
    fun later s' hlater => ?_⟩
  exact (hkept reachableKey 1 ⟨reachableKey, 1⟩ List.mem_cons_self rfl later s' hlater).1

end PoolCalls

end InterceptingProxy
