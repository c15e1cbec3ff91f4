import InterceptingProxy.Intake.Bounce
import InterceptingProxy.Intake.Mux
import InterceptingProxy.Router

set_option autoImplicit false

/-! # Serving the branches

`Branch.serve` is what a running server does with a connection of one of its branches. On the TLS
branch it takes the TLS off first: what goes on is the stream inside, tagged with the same
destination and as secured. On both branches a second look follows (`bounce`), and what the router
gets is served. A `CONNECT` that the router grants turns the rest of a connection into a tunnel,
which comes in through the listener again. So a client can put any number of tunnels and layers of
TLS into each other; `Arrival` says which connections the listener can yield, and `Layer` what has
been taken off them. -/

namespace InterceptingProxy

/-- What a server needs to take TLS off the connections of clients and to put it on its own. -/
structure Termination where
  /-- What the certificate covers. -/
  coverage : Coverage
  /-- Takes TLS off a client's connection; the result is the stream inside. -/
  accept : Connection → Except IoError ByteStream
  /-- Puts TLS on a connection to a destination. -/
  connector : Connector

/-- There is nothing to take the TLS of a client off with. -/
def noTermination : IoError := ⟨.unsupported, "no certificate configured".toList⟩

/-- Serves a connection up to where the router takes over. -/
def Branch.serve (termination : Option Termination) (branch : Branch) (client : Connection)
    (o : Outbound) : Bounced × Outbound :=
  match branch, termination with
  | .plain, _ => bounce none client o
  | .tls, none => (.dropped noTermination, o)
  | .tls, some t =>
    match t.accept client with
    | .error e => (.dropped e, o)
    | .ok stream =>
      bounce (some t.connector) ((Connection.raw stream).tag client.destination true) o

/-- Something that was taken off a connection. -/
inductive Layer where
  | tls
  /-- A tunnel to the given authority. -/
  | tunnel (authority : Text)
  deriving DecidableEq, Repr

/-- What a branch takes off its connections. -/
def Branch.layers : Branch → List Layer
  | .plain => []
  | .tls => [.tls]

/-- The way of a connection from the listener through a branch to the router. -/
structure Passage (termination : Option Termination) (accepted : Connection) (branch : Branch)
    (routed : Connection) : Prop where
  classified : ∃ client, classify (termination.map (·.coverage)) accepted = .serve branch client
    ∧ ∃ o, (branch.serve termination client o).1 = .served routed

/-- The connections that the listener can yield, with what was taken off them, outermost first: one
    that a client makes to the proxy, and every tunnel that the router opens for one that came to
    it. -/
inductive Arrival (termination : Option Termination) : List Layer → Connection → Prop where
  | direct (stream : ByteStream) : Arrival termination [] (Connection.direct (.raw stream))
  | tunnel {layers : List Layer} {accepted routed rest : Connection} {branch : Branch}
      {request : Request} {authority : Text} {tls : Bool} :
      Arrival termination layers accepted →
      Passage termination accepted branch routed →
      Router.connect (RoutedConnection.of routed) request = .tunnel authority tls →
      Arrival termination (layers ++ branch.layers ++ [.tunnel authority])
        (rest.tunnelled authority tls)

end InterceptingProxy
