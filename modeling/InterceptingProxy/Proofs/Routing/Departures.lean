import InterceptingProxy.Call.Handler
import InterceptingProxy.Proofs.Dialing.Attempts
import InterceptingProxy.Proofs.Pool.Alone

set_option autoImplicit false

/-! # Calls that depart

A call that arrives at the handler is checked, gets a channel and is relayed. The checks come first
and leave everything as it is (`Handler.handle_of_depart_error`); a call that passes them wants the
channel of one key (`Handler.Wants`, `Handler.wants_iff_depart`). What the relay of a call leaves
behind is given for the pool, the dials and the requests: its destination knows of the call, unless
the channel failed it (`Handler.relay_failed_or_requested`). -/

namespace InterceptingProxy

/-- Asking for a channel changes the pool and what is noted of connections. -/
theorem Surroundings.channel_frame (key : PoolKey) (s : Surroundings) :
    ∃ pool dialed live, (channel key s).2 =
      { s with pool, destinations := { s.destinations with dialed, live } } := by
  have hkept : ∃ dialed live, (s.pool.get Destinations.connect s.destinations key).2.2 =
      { s.destinations with dialed, live } := by
    refine Pool.get_keeps (P := fun d => ∃ dialed live, d = { s.destinations with dialed, live })
      ?_ s.pool key ⟨s.destinations.dialed, s.destinations.live, rfl⟩
    rintro channel d ⟨dialed, live, rfl⟩
    exact Destinations.connect_frame channel _
  obtain ⟨dialed, live, hworld⟩ := hkept
  refine ⟨(s.pool.get Destinations.connect s.destinations key).2.1, dialed, live, ?_⟩
  rw [← hworld]
  rfl

namespace Handler

variable {h : Handler} {info : CallInfo}

/-! ## The checks -/

theorem depart_eq (h : Handler) (info : CallInfo) :
    h.depart info =
      match info.destination h.destination with
      | .error status => .error status
      | .ok destination =>
        match info.metadata.forOutboundCall.addLoopCheck h.proxyId with
        | .error status => .error status
        | .ok metadata =>
          match PathAndQuery.ofPath? info.method with
          | none => .error (.internal ("invalid method path ".toList ++ info.method))
          | some path => .ok ⟨⟨destination, info.metadata.isMarkedHttps⟩, metadata, path⟩ := by
  unfold depart
  cases info.destination h.destination with
  | error status => rfl
  | ok destination =>
      cases info.metadata.forOutboundCall.addLoopCheck h.proxyId with
      | error status => rfl
      | ok metadata => cases PathAndQuery.ofPath? info.method <;> rfl

/-- A call departs if it passes every check. -/
theorem depart_eq_ok_iff {d : Departure} :
    h.depart info = .ok d ↔
      info.destination h.destination = .ok d.key.destination ∧
        d.key.tls = info.metadata.isMarkedHttps ∧
        info.metadata.forOutboundCall.addLoopCheck h.proxyId = .ok d.metadata ∧
        PathAndQuery.ofPath? info.method = some d.path := by
  obtain ⟨⟨target, tls⟩, sent, path⟩ := d
  rw [depart_eq]
  cases info.destination h.destination with
  | error status => simp
  | ok destination =>
      cases info.metadata.forOutboundCall.addLoopCheck h.proxyId with
      | error status => simp
      | ok metadata =>
          cases PathAndQuery.ofPath? info.method with
          | none => simp
          | some path' => simp [eq_comm, and_assoc]

/-- The call passes the checks, and the channel of `key` is the one for it. -/
structure Wants (h : Handler) (info : CallInfo) (key : PoolKey) : Prop where
  destination : info.destination h.destination = .ok key.destination
  tls : key.tls = info.metadata.isMarkedHttps
  unlisted : ∃ metadata, info.metadata.forOutboundCall.addLoopCheck h.proxyId = .ok metadata
  method : ∃ path, PathAndQuery.ofPath? info.method = some path

theorem wants_iff_depart {key : PoolKey} :
    h.Wants info key ↔ ∃ d, h.depart info = .ok d ∧ d.key = key := by
  constructor
  · rintro ⟨hdestination, htls, ⟨metadata, hmetadata⟩, path, hpath⟩
    exact ⟨⟨key, metadata, path⟩, depart_eq_ok_iff.2 ⟨hdestination, htls, hmetadata, hpath⟩, rfl⟩
  · rintro ⟨d, hd, rfl⟩
    obtain ⟨hdestination, htls, hmetadata, hpath⟩ := depart_eq_ok_iff.1 hd
    exact ⟨hdestination, htls, ⟨_, hmetadata⟩, _, hpath⟩

/-- The checks are about what is known of the call, and no stream. -/
theorem handle_congr {plan : CallRelay.Plan} {call call' : Call} {s : Surroundings}
    (hdepart : h.depart call.info = h.depart call'.info) (hinbound : call.inbound = call'.inbound) :
    h.handle plan call s = h.handle plan call' s := by
  unfold handle handleBy
  rw [hdepart, hinbound]

theorem handle_of_depart_error {plan : CallRelay.Plan} {call : Call} {s : Surroundings}
    {status : Status} (hd : h.depart call.info = .error status) :
    h.handle plan call s = (.error status, s) := by
  unfold handle handleBy
  rw [hd]

/-- A call that departs fails without a channel, and is relayed over the one that it gets. -/
theorem handle_of_channel {plan : CallRelay.Plan} {call : Call} {s s' : Surroundings}
    {d : Departure} {r : Except PoolError Channel} (hd : h.depart call.info = .ok d)
    (hr : Surroundings.channel d.key s = (r, s')) :
    h.handle plan call s = match r with
      | .error e => (.error (.unavailable e.message), s')
      | .ok channel => h.relay plan channel d.path d.metadata call.inbound s' := by
  simp only [handle, handleBy, hd, hr]
  cases r <;> rfl

/-! ## What a relayed call leaves behind -/

section Relay

variable (h) (plan : CallRelay.Plan) (channel : Channel) (path : PathAndQuery) (metadata : Headers)
  (inbound : MessageStream) (s : Surroundings)

/-- A relayed call leaves the pool as it is, and the ways of the destinations. -/
theorem relay_frame :
    ∃ dialed live requests journal, (h.relay plan channel path metadata inbound s).2 =
      { s with journal, destinations := { s.destinations with dialed, live, requests } } := by
  obtain ⟨dialed, live, hrevive⟩ := s.destinations.revive_frame channel
  unfold relay
  split
  · next heq =>
      rw [heq] at hrevive
      dsimp only at hrevive
      rw [hrevive]
      exact ⟨dialed, live, s.destinations.requests, s.journal, rfl⟩
  · next heq =>
      rw [heq] at hrevive
      dsimp only at hrevive
      rw [hrevive]
      dsimp only
      split
      · exact ⟨dialed, _, s.destinations.requests, s.journal, rfl⟩
      · exact ⟨dialed, live, _, _, rfl⟩

theorem relay_pool : (h.relay plan channel path metadata inbound s).2.pool = s.pool := by
  obtain ⟨_, _, _, _, hafter⟩ := h.relay_frame plan channel path metadata inbound s
  rw [hafter]

/-- A relayed call dials only for a channel that has lost its connection. -/
theorem relay_dialed :
    (h.relay plan channel path metadata inbound s).2.destinations.dialed =
      s.destinations.dialed ++
        if channel ∈ s.destinations.live then [] else [channel.key.destination] := by
  rw [← Destinations.revive_dialed]
  unfold relay
  split
  · next heq => rw [heq]
  · next heq =>
      rw [heq]
      dsimp only
      split <;> rfl

/-- A relayed call is known to its destination, or it fails by its channel, which is no failure of
    the checks. -/
theorem relay_failed_or_requested :
    (∃ status, (h.relay plan channel path metadata inbound s).1 = .error status ∧
        status.code ≠ .internal) ∨
      (h.relay plan channel path metadata inbound s).2.destinations.requests.length =
        s.destinations.requests.length + 1 := by
  unfold relay
  split
  · next e _ _ =>
      exact .inl ⟨.unavailable e.message, rfl, nofun⟩
  · next destinations heq =>
      have hrequests : destinations.requests = s.destinations.requests := by
        obtain ⟨_, _, hrevive⟩ := s.destinations.revive_frame channel
        rw [heq] at hrevive
        dsimp only at hrevive
        rw [hrevive]
      dsimp only
      split
      · exact .inl ⟨_, rfl, by decide⟩
      · right
        simp [Surroundings.note, hrequests]

end Relay

/-- Whatever becomes of a call, destinations keep their ways. -/
theorem handle_frame (h : Handler) (plan : CallRelay.Plan) (call : Call) (s : Surroundings) :
    ∃ pool dialed live requests journal, (h.handle plan call s).2 =
      { pool, journal, destinations := { s.destinations with dialed, live, requests } } := by
  cases hd : h.depart call.info with
  | error status =>
      rw [handle_of_depart_error hd]
      exact ⟨s.pool, s.destinations.dialed, s.destinations.live, s.destinations.requests, s.journal,
        rfl⟩
  | ok d =>
      obtain ⟨pool, dialed, live, hchannel⟩ := Surroundings.channel_frame d.key s
      rcases hr : Surroundings.channel d.key s with ⟨e | channel, s'⟩
      · rw [handle_of_channel hd hr]
        rw [hr] at hchannel
        exact ⟨pool, dialed, live, s.destinations.requests, s.journal, hchannel⟩
      · rw [handle_of_channel hd hr]
        rw [hr] at hchannel
        obtain ⟨dialed', live', requests, journal, hrelay⟩ :=
          h.relay_frame plan channel d.path d.metadata call.inbound s'
        refine ⟨pool, dialed', live', requests, journal, ?_⟩
        dsimp only at hchannel ⊢
        rw [hrelay, hchannel]

end Handler

end InterceptingProxy
