import InterceptingProxy.Address.ServerName
import InterceptingProxy.Relay

set_option autoImplicit false

/-! # Connections towards destinations

What is dialed and relayed on behalf of a client. `Outbound` keeps what the outside world would
see: every address that was dialed, in order, and every byte that was relayed. How a dial and a
TLS handshake end is decided outside. -/

namespace InterceptingProxy

/-- What a destination received over one connection. -/
structure Received where
  tls : Bool
  bytes : Bytes
  deriving DecidableEq, Repr

/-- The dials so far, what destinations received, and how the dials to come end. -/
structure Outbound where
  /-- How the dial with the given number ends. -/
  result : Nat → Except IoError Unit
  /-- What a destination answers to what it received. -/
  reply : Bytes → Bytes
  dialed : List Text := []
  received : List Received := []

/-- How a TLS handshake towards a server of the given name ends. -/
abbrev Connector := ServerName → Except IoError Unit

namespace Outbound

/-- Dials an address. -/
def dial (address : Text) (o : Outbound) : Except IoError Unit × Outbound :=
  (o.result o.dialed.length, { o with dialed := o.dialed ++ [address] })

/-- A relayed connection when it is over: how the relay ended, and the client's side. -/
structure Relayed where
  result : Except IoError Relay.Counts
  client : Connection

/-- Relays a connection to a destination that has been dialed. -/
def relay (client : Connection) (tls : Bool) (o : Outbound) : Relayed × Outbound :=
  let (_, _, peer) := Relay.copy client {}
  let destination : Connection := .raw { source := { chunks := [.data (o.reply peer.written)] } }
  let (result, client, _) := Relay.run client destination
  (⟨result, client⟩, { o with received := o.received ++ [⟨tls, peer.written⟩] })

end Outbound

end InterceptingProxy
