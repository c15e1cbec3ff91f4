import InterceptingProxy.Proofs.Routing.Departures

set_option autoImplicit false

/-! # Which calls dial

Calls that come one after the other share a pool, and the first call for a key dials. `NextCall` is
a call with what its caller does and which connections were lost before it; `Handler.after` is how
things stand after some of them, and `Handler.obtained` are the channels that these have got.

`Handler.Goes` says once what a call that passes the checks can do: it gets a channel that an
earlier one has got, or it makes an attempt of its own, for which there are three ends.
`Handler.Accounted` is what follows for the dials, for what a failure leaves behind, and for the
keys in the pool. -/

namespace InterceptingProxy

/-- Some channels lose their connections. -/
def Destinations.lose (lost : Channel → Bool) (d : Destinations) : Destinations :=
  { d with live := d.live.filter fun channel => !lost channel }

/-- The key leads to a channel. -/
def Pool.Establishes (p : Pool) (key : PoolKey) : Prop :=
  ∃ id channel, p.find? key = some id ∧ p.cell id = .filled channel

/-- A call that comes to the handler after others. -/
structure NextCall where
  call : Call
  /-- How caller and destination behave. -/
  plan : CallRelay.Plan := {}
  /-- The channels that have lost their connections when the call comes. -/
  lost : Channel → Bool := fun _ => false

/-- How things stand when the call comes. -/
def NextCall.meets (c : NextCall) (s : Surroundings) : Surroundings :=
  { s with destinations := s.destinations.lose c.lost }

namespace Handler

/-- Handles the call as things stand then. -/
def handleNext (h : Handler) (c : NextCall) (s : Surroundings) : CallResult × Surroundings :=
  h.handle c.plan c.call (c.meets s)

/-- The channel that a call gets from the pool. -/
def obtains? (h : Handler) (info : CallInfo) (s : Surroundings) : Option Channel :=
  match h.depart info with
  | .error _ => none
  | .ok d => (Surroundings.channel d.key s).1.toOption

/-- How things stand after calls, one after the other. -/
def after (h : Handler) (s : Surroundings) : List NextCall → Surroundings
  | [] => s
  | c :: rest => h.after (h.handleNext c s).2 rest

/-- The channels that calls get, one after the other. -/
def obtained (h : Handler) (s : Surroundings) : List NextCall → List Channel
  | [] => []
  | c :: rest =>
    (h.obtains? c.call.info (c.meets s)).toList ++ h.obtained (h.handleNext c s).2 rest

theorem obtained_append (h : Handler) (s : Surroundings) (first second : List NextCall) :
    h.obtained s (first ++ second) =
      h.obtained s first ++ h.obtained (h.after s first) second := by
  induction first generalizing s with
  | nil => rfl
  | cons c rest ih =>
      rw [List.cons_append, obtained, ih, obtained, after, List.append_assoc]

/-- Destinations keep their ways. -/
theorem after_frame (h : Handler) (s : Surroundings) (calls : List NextCall) :
    ∃ pool dialed live requests journal, h.after s calls =
      { pool, journal, destinations := { s.destinations with dialed, live, requests } } := by
  induction calls generalizing s with
  | nil =>
      exact ⟨s.pool, s.destinations.dialed, s.destinations.live, s.destinations.requests, s.journal,
        rfl⟩
  | cons c rest ih =>
      obtain ⟨_, _, _, _, _, hnext⟩ := h.handle_frame c.plan c.call (c.meets s)
      obtain ⟨pool, dialed, live, requests, journal, hrest⟩ := ih (h.handleNext c s).2
      refine ⟨pool, dialed, live, requests, journal, ?_⟩
      rw [after, hrest, handleNext, hnext]
      rfl

end Handler

/-! ## Channels for calls -/

namespace Surroundings

variable {s : Surroundings} {held : List Channel}

theorem channel_of_mem (hs : s.pool.Holds held) {c : Channel} (hc : c ∈ held) :
    channel c.key s = (.ok c, s) := by
  obtain ⟨id, hf, hcell⟩ := hs.found c hc
  rw [channel, Pool.get_of_filled Destinations.connect hf hcell]

theorem channel_of_new (hs : s.pool.Holds held) {key : PoolKey}
    (hnew : key ∉ held.map Channel.key) {r : Except PoolError Unit} {d : Destinations}
    (hr : Destinations.connect ⟨key, s.pool.attempts⟩ s.destinations = (r, d)) :
    channel key s = (r.map fun () => ⟨key, s.pool.attempts⟩,
      { s with pool := s.pool.attempted key r, destinations := d }) := by
  rw [channel, Pool.get_of_none Destinations.connect (hs.find?_eq_none hnew), hr]

end Surroundings

namespace Handler

/-! ## What a call can do -/

section Goes

variable (h : Handler) (held : List Channel) (plan : CallRelay.Plan) (call : Call)
  (s : Surroundings) (d : Departure)

/-- The ways in which a call that departs can go when earlier ones have got the channels `held`,
    with the channel that it gets, its result and what it leaves behind. -/
inductive Goes : Option Channel → CallResult × Surroundings → Prop
  | again (channel : Channel) (hheld : channel ∈ held) (hkey : channel.key = d.key) :
      Goes (some channel) (h.relay plan channel d.path d.metadata call.inbound s)
  | undialed (hnew : d.key ∉ held.map Channel.key) (hkey : ¬ d.key.Dialable) :
      Goes none (.error (.unavailable (Destinations.failureOf d.key).message),
        { s with pool := s.pool.attempted d.key (.error (Destinations.failureOf d.key)) })
  | unanswered (hnew : d.key ∉ held.map Channel.key) (hkey : d.key.Dialable)
      (hadmits : ¬ s.destinations.Admits d.key) :
      Goes none (.error (.unavailable (Destinations.failureOf d.key).message),
        { s with
          pool := s.pool.attempted d.key (.error (Destinations.failureOf d.key))
          destinations := { s.destinations with
            dialed := s.destinations.dialed ++ [d.key.destination] } })
  | connected (hnew : d.key ∉ held.map Channel.key) (hkey : d.key.Dialable)
      (hadmits : s.destinations.Admits d.key) :
      Goes (some ⟨d.key, s.pool.attempts⟩)
        (h.relay plan ⟨d.key, s.pool.attempts⟩ d.path d.metadata call.inbound
          { s with
            pool := s.pool.attempted d.key (.ok ())
            destinations := { s.destinations with
              dialed := s.destinations.dialed ++ [d.key.destination]
              live := ⟨d.key, s.pool.attempts⟩ :: s.destinations.live } })

variable {h held plan call s d}

theorem obtains?_of_depart_error {status : Status} (hd : h.depart call.info = .error status) :
    h.obtains? call.info s = none := by
  simp only [obtains?, hd]

theorem obtains?_of_channel (hd : h.depart call.info = .ok d) {r : Except PoolError Channel}
    {s' : Surroundings} (hr : Surroundings.channel d.key s = (r, s')) :
    h.obtains? call.info s = r.toOption := by
  simp only [obtains?, hd, hr]

theorem goes_of_depart (hs : s.pool.Holds held) (plan : CallRelay.Plan)
    (hd : h.depart call.info = .ok d) :
    Goes h held plan call s d (h.obtains? call.info s) (h.handle plan call s) := by
  by_cases hmem : d.key ∈ held.map Channel.key
  · obtain ⟨channel, hheld, hkey⟩ := List.mem_map.1 hmem
    have hr : Surroundings.channel d.key s = (.ok channel, s) := by
      rw [← hkey]
      exact Surroundings.channel_of_mem hs hheld
    rw [obtains?_of_channel hd hr, handle_of_channel hd hr]
    exact .again channel hheld hkey
  · by_cases hkey : d.key.Dialable
    · rcases Destinations.connect_of_dialable s.destinations ⟨d.key, s.pool.attempts⟩ hkey with
        ⟨hadmits, hconnect⟩ | ⟨hadmits, hconnect⟩
      · have hr := Surroundings.channel_of_new hs hmem hconnect
        rw [obtains?_of_channel hd hr, handle_of_channel hd hr]
        exact .connected hmem hkey hadmits
      · have hr := Surroundings.channel_of_new hs hmem hconnect
        rw [obtains?_of_channel hd hr, handle_of_channel hd hr]
        exact .unanswered hmem hkey hadmits
    · have hconnect :=
        Destinations.connect_of_not_dialable s.destinations ⟨d.key, s.pool.attempts⟩ hkey
      have hr := Surroundings.channel_of_new hs hmem hconnect
      rw [obtains?_of_channel hd hr, handle_of_channel hd hr]
      exact .undialed hmem hkey

/-- A call that gets no channel is handled like any other one of which the same is known. -/
theorem handle_of_obtains_none (hnone : h.obtains? call.info s = none) (plan' : CallRelay.Plan)
    (inbound : MessageStream) :
    h.handle plan' { call with inbound } s = h.handle plan call s := by
  unfold obtains? at hnone
  unfold handle handleBy
  cases hd : h.depart call.info with
  | error status => rfl
  | ok d =>
      simp only [hd] at hnone ⊢
      rcases hr : Surroundings.channel d.key s with ⟨e | channel, s'⟩
      · rfl
      · rw [hr] at hnone
        cases hnone

end Goes

/-! ## What the pool has -/

/-- The pool has the channels that calls have got, each of them for a destination. -/
structure Established (s : Surroundings) (held : List Channel) : Prop where
  holds : s.pool.Holds held
  dialable : ∀ channel ∈ held, channel.key.Dialable

namespace Established

variable {h : Handler} {held : List Channel} {plan : CallRelay.Plan} {call : Call}
  {s : Surroundings}

theorem start (world : Destinations) (journal : List Entry) :
    Established { destinations := world, journal } [] where
  holds := .start
  dialable _ hmem := absurd hmem List.not_mem_nil

/-- Connections that are lost make no difference to the pool. -/
theorem meets (hs : Established s held) (c : NextCall) : Established (c.meets s) held :=
  ⟨hs.holds, hs.dialable⟩

/-- The channel that a call gets is one more. -/
theorem of_goes (hs : Established s held) {d : Departure} {o : Option Channel}
    {r : CallResult × Surroundings} (hg : Goes h held plan call s d o r) :
    Established r.2 (held ++ o.toList) := by
  have hone : ∀ {channel : Channel}, channel.key.Dialable →
      ∀ c ∈ held ++ [channel], c.key.Dialable := fun hchannel =>
    List.forall_mem_append.2 ⟨hs.dialable, List.forall_mem_singleton.2 hchannel⟩
  cases hg with
  | again channel hheld hkey =>
      refine ⟨?_, hone (hs.dialable channel hheld)⟩
      rw [relay_pool]
      exact hs.holds.again hheld
  | undialed hnew hkey | unanswered hnew hkey hadmits =>
      rw [Option.toList_none, List.append_nil]
      exact ⟨hs.holds.failed d.key (Destinations.failureOf d.key), hs.dialable⟩
  | connected hnew hkey hadmits =>
      refine ⟨?_, hone hkey⟩
      rw [relay_pool]
      exact hs.holds.succeeded hnew

theorem step (hs : Established s held) (plan : CallRelay.Plan) (call : Call) :
    Established (h.handle plan call s).2 (held ++ (h.obtains? call.info s).toList) := by
  cases hd : h.depart call.info with
  | error status =>
      rw [handle_of_depart_error hd, obtains?_of_depart_error hd, Option.toList_none,
        List.append_nil]
      exact hs
  | ok d => exact hs.of_goes (goes_of_depart hs.holds plan hd)

theorem run (hs : Established s held) (calls : List NextCall) :
    Established (h.after s calls) (held ++ h.obtained s calls) := by
  induction calls generalizing s held with
  | nil =>
      rw [obtained, List.append_nil]
      exact hs
  | cons c rest ih =>
      rw [obtained, ← List.append_assoc]
      exact ih ((hs.meets c).step c.plan c.call)

theorem establishes_iff (hs : Established s held) (key : PoolKey) :
    s.pool.Establishes key ↔ key ∈ held.map Channel.key := by
  rw [List.mem_map]
  constructor
  · rintro ⟨id, channel, hf, -⟩
    obtain ⟨channel', hheld, hkey, -⟩ := hs.holds.entry key id (Pool.mem_entries_of_find? hf)
    exact ⟨channel', hheld, hkey⟩
  · rintro ⟨channel, hheld, rfl⟩
    obtain ⟨id, hf, hcell⟩ := hs.holds.found channel hheld
    exact ⟨id, channel, hf, hcell⟩

end Established

/-! ## One dial for a key -/

/-- What a call does when earlier ones have got the channels `held`. -/
structure Accounted (h : Handler) (held : List Channel) (plan : CallRelay.Plan) (call : Call)
    (s : Surroundings) : Prop where
  /-- The first call for a key dials its destination once, and gets a channel if that succeeds. -/
  dials : ∀ key, h.Wants call.info key → key.Dialable → key ∉ held.map Channel.key →
    (h.handle plan call s).2.destinations.dialed =
      s.destinations.dialed ++ [key.destination] ∧
    ((h.obtains? call.info s).isSome = true ↔ s.destinations.Admits key)
  /-- Later ones get the same channel, which dials only if it has lost its connection. -/
  again : ∀ channel ∈ held, h.Wants call.info channel.key →
    h.obtains? call.info s = some channel ∧
    (h.handle plan call s).2.destinations.dialed = s.destinations.dialed ++
      if channel ∈ s.destinations.live then [] else [channel.key.destination]
  /-- All others fail without a dial. -/
  undialed : (¬ ∃ key, h.Wants call.info key ∧ key.Dialable) →
    h.obtains? call.info s = none ∧
    (h.handle plan call s).2.destinations.dialed = s.destinations.dialed
  /-- A call that does not pass the checks leaves everything as it is. -/
  refused : (¬ ∃ key, h.Wants call.info key) →
    ∃ status, h.depart call.info = .error status ∧ h.handle plan call s = (.error status, s)
  /-- A call that passes the checks and gets no channel is told why. -/
  unavailable : ∀ key, h.Wants call.info key → h.obtains? call.info s = none →
    (h.handle plan call s).1 = .error (.unavailable (Destinations.failureOf key).message)
  /-- Without a channel a call has nothing to do with its stream, and the keys stay. -/
  failed : h.obtains? call.info s = none →
    (∀ plan' inbound, h.handle plan' { call with inbound } s = h.handle plan call s) ∧
    (∀ key, (h.handle plan call s).2.pool.Establishes key ↔ s.pool.Establishes key) ∧
    ∃ pool dialed, (h.handle plan call s).2 =
      { s with pool, destinations := { s.destinations with dialed } }
  /-- The keys in the pool are those of the channels, and they are counted. -/
  established : ∀ key, s.pool.Establishes key ↔ key ∈ held.map Channel.key
  size : s.pool.size = (held.map Channel.key).dedup.length

section Accounted

variable {h : Handler} {held : List Channel} {plan : CallRelay.Plan} {call : Call}
  {s : Surroundings} {d : Departure} {o : Option Channel} {r : CallResult × Surroundings}

theorem Goes.dials (hg : Goes h held plan call s d o r) (hkey : d.key.Dialable)
    (hnew : d.key ∉ held.map Channel.key) :
    r.2.destinations.dialed = s.destinations.dialed ++ [d.key.destination] ∧
      (o.isSome = true ↔ s.destinations.Admits d.key) := by
  cases hg with
  | again channel hheld hk => exact absurd (List.mem_map.2 ⟨channel, hheld, hk⟩) hnew
  | undialed _ hk => exact absurd hkey hk
  | unanswered _ _ hadmits => exact ⟨rfl, by simpa using hadmits⟩
  | connected _ _ hadmits =>
      rw [relay_dialed, if_pos List.mem_cons_self, List.append_nil]
      exact ⟨rfl, by simpa using hadmits⟩

theorem Goes.again_of_mem (hg : Goes h held plan call s d o r) (hs : s.pool.Holds held)
    {channel : Channel} (hheld : channel ∈ held) (hkey : channel.key = d.key) :
    o = some channel ∧ r.2.destinations.dialed = s.destinations.dialed ++
      if channel ∈ s.destinations.live then [] else [channel.key.destination] := by
  have hmem : d.key ∈ held.map Channel.key := List.mem_map.2 ⟨channel, hheld, hkey⟩
  cases hg with
  | again channel' hheld' hkey' =>
      obtain rfl : channel' = channel := hs.inj hheld' hheld (hkey'.trans hkey.symm)
      exact ⟨rfl, relay_dialed ..⟩
  | undialed hnew | unanswered hnew | connected hnew => exact absurd hmem hnew

theorem Goes.undialed_of_not (hg : Goes h held plan call s d o r) (hs : Established s held)
    (hkey : ¬ d.key.Dialable) : o = none ∧ r.2.destinations.dialed = s.destinations.dialed := by
  cases hg with
  | again channel hheld hk =>
      rw [← hk] at hkey
      exact absurd (hs.dialable channel hheld) hkey
  | undialed => exact ⟨rfl, rfl⟩
  | unanswered _ hk | connected _ hk => exact absurd hk hkey

/-- A call that gets no channel fails, and has changed nothing but what was dialed. -/
theorem Goes.failed (hg : Goes h held plan call s d none r) :
    r.1 = .error (.unavailable (Destinations.failureOf d.key).message) ∧
      ∃ pool dialed, r.2 = { s with pool, destinations := { s.destinations with dialed } } := by
  cases hg with
  | undialed | unanswered => exact ⟨rfl, _, _, rfl⟩

theorem Established.accounted (hs : Established s held) (plan : CallRelay.Plan) (call : Call) :
    Accounted h held plan call s where
  dials key hw hkey hnew := by
    obtain ⟨d, hd, rfl⟩ := wants_iff_depart.1 hw
    exact (goes_of_depart hs.holds plan hd).dials hkey hnew
  again channel hheld hw := by
    obtain ⟨d, hd, hkey⟩ := wants_iff_depart.1 hw
    exact (goes_of_depart hs.holds plan hd).again_of_mem hs.holds hheld hkey.symm
  undialed hnone := by
    cases hd : h.depart call.info with
    | error status =>
        rw [handle_of_depart_error hd]
        exact ⟨obtains?_of_depart_error hd, rfl⟩
    | ok d =>
        refine (goes_of_depart hs.holds plan hd).undialed_of_not hs fun hkey => hnone ?_
        exact ⟨d.key, wants_iff_depart.2 ⟨d, hd, rfl⟩, hkey⟩
  refused hnone := by
    cases hd : h.depart call.info with
    | error status => exact ⟨status, rfl, handle_of_depart_error hd⟩
    | ok d => exact absurd ⟨d.key, wants_iff_depart.2 ⟨d, hd, rfl⟩⟩ hnone
  unavailable key hw hnone := by
    obtain ⟨d, hd, rfl⟩ := wants_iff_depart.1 hw
    have hg := goes_of_depart hs.holds plan hd
    rw [hnone] at hg
    exact hg.failed.1
  failed hnone := by
    refine ⟨fun plan' inbound => handle_of_obtains_none hnone plan' inbound, fun key => ?_, ?_⟩
    · have hafter := hs.step (h := h) plan call
      rw [hnone, Option.toList_none, List.append_nil] at hafter
      rw [hafter.establishes_iff, hs.establishes_iff]
    · cases hd : h.depart call.info with
      | error status =>
          rw [handle_of_depart_error hd]
          exact ⟨s.pool, s.destinations.dialed, rfl⟩
      | ok d =>
          have hg := goes_of_depart hs.holds plan hd
          rw [hnone] at hg
          exact hg.failed.2
  established := hs.establishes_iff
  size := hs.holds.size_eq

end Accounted

end Handler

open Handler in
/-- **The first call for a destination dials it, and no other one does.** However many calls come
    one after the other to a pool without channels, however dials end and whatever connections are
    lost in between: a call dials if it passes every check, what it wants can be dialed, and no call
    before it has got a channel for the same key; it dials once then. A call that gets no channel
    says why, has not touched its stream, and leaves no key behind: so the next one for the key is
    again the first. How a dial ends is up to the destinations, whose ways no call changes. -/
theorem one_dial_per_key (h : Handler) (world : Destinations) (journal : List Entry)
    (before : List NextCall) (c : NextCall) :
    let fresh : Surroundings := { destinations := world, journal }
    let s := c.meets (h.after fresh before)
    Accounted h (h.obtained fresh before) c.plan c.call s ∧
    (h.obtains? c.call.info s = none →
      h.obtained fresh (before ++ [c]) = h.obtained fresh before ∧
      ∀ next : NextCall, Accounted h (h.obtained fresh before) next.plan next.call
        (next.meets (h.after fresh (before ++ [c])))) ∧
    ∃ pool dialed live requests journal, h.after fresh before =
      { pool, journal, destinations := { world with dialed, live, requests } } := by
  intro fresh s
  have hrun : ∀ calls, Established (h.after fresh calls) (h.obtained fresh calls) :=
    fun calls => (Established.start world journal).run calls
  refine ⟨((hrun before).meets c).accounted c.plan c.call, fun hnone => ?_,
    h.after_frame fresh before⟩
  have hsame : h.obtained fresh (before ++ [c]) = h.obtained fresh before := by
    rw [obtained_append, obtained, obtained, hnone]
    simp
  refine ⟨hsame, fun next => ?_⟩
  have hnext := hrun (before ++ [c])
  rw [hsame] at hnext
  exact (hnext.meets next).accounted next.plan next.call

/-- A call, and a world in which the first dial is refused. -/
def someHandler : Handler := { proxyId := "p".toList }

def someCall : NextCall :=
  { call := { info := { method := "/a.B/C".toList, authority := some "svc:1".toList } } }

def refusingFirst : Destinations :=
  { dialResult := fun n => if n = 0 then .error ⟨.connectionRefused, []⟩ else .ok ()
    reaction := fun _ => { reply := fun _ => .silent } }

/-- How things stand after the call was made so many times. -/
def afterCalls (n : Nat) : Surroundings :=
  someHandler.after { destinations := refusingFirst } (List.replicate n someCall)

/-- The call is made three times: the second one dials again, and the third one gets the channel of
    the second. -/
theorem one_dial_per_key_after_failure :
    (someHandler.handleNext someCall (afterCalls 0)).1 =
      .error (.unavailable "failed to connect to svc:1: transport error".toList) ∧
    (someHandler.handleNext someCall (afterCalls 1)).2.destinations.dialed =
      (afterCalls 1).destinations.dialed ++ ["svc:1".toList] ∧
    someHandler.obtains? someCall.call.info (someCall.meets (afterCalls 2)) =
      some ⟨⟨"svc:1".toList, false⟩, 1⟩ ∧
    (afterCalls 2).pool.size = 1 := by
  have hwants : someHandler.Wants someCall.call.info ⟨"svc:1".toList, false⟩ :=
    ⟨rfl, rfl, ⟨_, rfl⟩, _, rfl⟩
  have hdialable : PoolKey.Dialable ⟨"svc:1".toList, false⟩ := ⟨rfl, nofun⟩
  have hnone : someHandler.obtains? someCall.call.info (someCall.meets (afterCalls 0)) = none :=
    rfl
  obtain ⟨hfirst, hnext, -⟩ := one_dial_per_key someHandler refusingFirst [] [] someCall
  have hsecond := (hnext hnone).2 someCall
  have hthird := (one_dial_per_key someHandler refusingFirst [] [someCall, someCall] someCall).1
  exact ⟨hfirst.unavailable _ hwants hnone, (hsecond.dials _ hwants hdialable List.not_mem_nil).1,
    (hthird.again _ (List.mem_singleton_self _) hwants).1, hthird.size⟩

end InterceptingProxy
