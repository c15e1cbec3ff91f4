import InterceptingProxy.Address.HostPort
import InterceptingProxy.Intake.Outbound
import InterceptingProxy.Sniff

set_option autoImplicit false

/-! # A second look

A connection that was tunnelled through the proxy need not speak HTTP. `bounce` looks at its first
bytes: one that starts like a request the router serves is handed to the router, any other is
relayed to the destination that the client meant, over TLS if the client's bytes came over TLS. A
connection made to the proxy itself is served whatever its bytes. -/

namespace InterceptingProxy

/-- What became of a connection. -/
inductive Bounced where
  /-- The router serves it. -/
  | served (client : Connection)
  | relayed (relayed : Outbound.Relayed)
  | dropped (error : IoError)

/-- There is nothing to encrypt a relayed connection with. -/
def noConnector : IoError := ⟨.unsupported, "no TLS client configuration".toList⟩

/-- The host is no name that a TLS server can be asked for. -/
def invalidServerName : IoError := ⟨.invalidInput, "invalid dns name".toList⟩

/-- Encrypts a connection to a destination. -/
def encrypt (connector : Option Connector) (destination : Text) : Except IoError Unit :=
  match connector with
  | none => .error noConnector
  | some handshake =>
    match ServerName.parse? (hostOf destination) with
    | none => .error invalidServerName
    | some name => handshake name

/-- Relays a connection to the destination that the client meant. -/
def relayOnward (connector : Option Connector) (destination : Text) (client : Connection)
    (o : Outbound) : Bounced × Outbound :=
  match o.dial destination with
  | (.error e, o) => (.dropped e, o)
  | (.ok (), o) =>
    match if client.isTls then encrypt connector destination else .ok () with
    | .error e => (.dropped e, o)
    | .ok () =>
      let (relayed, o) := o.relay client client.isTls
      (.relayed relayed, o)

/-- Decides whether the router serves a connection, and relays it otherwise. -/
def bounce (connector : Option Connector) (client : Connection) (o : Outbound) :
    Bounced × Outbound :=
  match client.destination with
  | none => (.served client, o)
  | some destination =>
    match client.forPeeking.peek httpPeekSize isProxiedHttp with
    | (.error e, _) => (.dropped e.toIoError, o)
    | (.ok true, client) => (.served client, o)
    | (.ok false, client) => relayOnward connector destination client o

end InterceptingProxy
