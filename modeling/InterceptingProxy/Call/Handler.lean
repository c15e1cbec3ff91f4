import InterceptingProxy.Call.Destinations
import InterceptingProxy.Call.Relay
import InterceptingProxy.Header.Via

set_option autoImplicit false

/-! # Handling a call

`Handler.handle` is where every call arrives that no interceptor has answered. It finds the
destination, refuses calls that have been here before, checks the path of the method, gets the
channel from the pool, and only then touches the caller's stream. -/

namespace InterceptingProxy

/-- A call on its way through the proxy. -/
structure Call where
  info : CallInfo
  /-- The messages of the caller. -/
  inbound : MessageStream := []

/-- What outlives a call: the pool, the world beyond it, and the notes of the interceptors. -/
structure Surroundings where
  pool : Pool := {}
  destinations : Destinations
  journal : List Entry := []

namespace Surroundings

/-- Notes something down. -/
def note (entries : List Entry) (s : Surroundings) : Surroundings :=
  { s with journal := s.journal ++ entries }

/-- Gets a channel from the pool. -/
def channel (key : PoolKey) : StateM Surroundings (Except PoolError Channel) := fun s =>
  let (result, pool, destinations) := s.pool.get Destinations.connect s.destinations key
  (result, { s with pool, destinations })

end Surroundings

/-- The part of the proxy that sends calls to their destinations. -/
structure Handler where
  /-- The destination of calls that name none. -/
  destination : Option Text := none
  proxyId : Text
  /-- What stands in front of the proxy's own name in requests. -/
  userAgent : Option Text := none
  deriving DecidableEq, Repr

namespace Handler

/-- The product that sends the requests. -/
def product : Text := "tonic/0.12.3".toList

/-- The header fields of a request to a destination. -/
def requestHeaders (h : Handler) (metadata : Headers) : Headers :=
  let agent := match h.userAgent with
    | some first => first ++ ' ' :: product
    | none => product
  ((((metadata.removeAll Status.reservedNames).insert "te".toList (ascii "trailers")).insert
    "content-type".toList (ascii "application/grpc")).insert
    Grpc.Encoding.acceptName Grpc.Encoding.accepted).insert "user-agent".toList agent.utf8

/-- Sends a call over a channel and relays it. -/
def relay (h : Handler) (plan : CallRelay.Plan) (channel : Channel) (path : PathAndQuery)
    (metadata : Headers) (inbound : MessageStream) (s : Surroundings) :
    CallResult × Surroundings :=
  match s.destinations.revive channel with
  | (.error e, destinations) => (.error (.unavailable e.message), { s with destinations })
  | (.ok (), destinations) =>
    if destinations.refuses channel then
      (.error Destinations.brokenOff, { s with destinations := destinations.breakOff channel })
    else
    let number := destinations.requests.length
    let reaction := destinations.reaction number
    let stream := inbound.guard
    let plan := { plan with waitsFor := reaction.waitsFor, earlier := number }
    let r := CallRelay.run plan { inbound := stream.items, reply := reaction.reply }
    let request : SentRequest :=
      { path := path.toText, authority := channel.key.authority, tls := channel.key.tls
        headers := h.requestHeaders metadata
        messages := r.received.take (reaction.waitsFor.getD r.received.length)
        complete := plan.heard r, dropped := r.exchange == .cancelled }
    let s := { s with destinations :=
      { destinations with requests := destinations.requests ++ [request] } }
    let notes := if r.exhausted then stream.allNotes else stream.notes r.polled
    let result : CallResult := match r.answer with
      | some (.ok headers) => .ok { headers := headers.forCaller, stream := .ofItems r.read }
      | some (.error status) => .error status
      | none => .error { code := .cancelled }
    (result, s.note notes)

/-- What is settled about a call before anything is dialed for it. -/
structure Departure where
  key : PoolKey
  metadata : Headers
  path : PathAndQuery
  deriving DecidableEq, Repr

/-- The checks that a call has to pass. -/
def depart (h : Handler) (info : CallInfo) : Except Status Departure := do
  let destination ← info.destination h.destination
  let metadata ← info.metadata.forOutboundCall.addLoopCheck h.proxyId
  match PathAndQuery.ofPath? info.method with
  | none => throw (.internal ("invalid method path ".toList ++ info.method))
  | some path => return ⟨⟨destination, info.metadata.isMarkedHttps⟩, metadata, path⟩

/-- Handles a call whose channel comes from `ask`; `plan` is how its caller behaves. -/
def handleBy (h : Handler) (ask : PoolKey → StateM Surroundings (Except PoolError Channel))
    (plan : CallRelay.Plan) (call : Call) : StateM Surroundings CallResult := fun s =>
  match h.depart call.info with
  | .error status => (.error status, s)
  | .ok d =>
    match ask d.key s with
    | (.error e, s) => (.error (.unavailable e.message), s)
    | (.ok channel, s) => h.relay plan channel d.path d.metadata call.inbound s

/-- Handles a call. -/
def handle (h : Handler) : CallRelay.Plan → Call → StateM Surroundings CallResult :=
  h.handleBy Surroundings.channel

end Handler

end InterceptingProxy
