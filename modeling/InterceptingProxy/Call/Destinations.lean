import InterceptingProxy.Address.ServerName
import InterceptingProxy.Address.Uri
import InterceptingProxy.Call.Destination
import InterceptingProxy.Call.Pool

set_option autoImplicit false

/-! # The destinations of calls

`Destinations` is the world beyond the proxy as the calls see it: how dials and handshakes end, how
requests are reacted to, and what was dialed and requested so far. A connection may be closed by
the other side at any time; a channel then dials again when it is used next. -/

namespace InterceptingProxy

/-- A request as a destination has read it. -/
structure SentRequest where
  path : Text
  authority : Text
  tls : Bool
  headers : Headers
  /-- The messages that were read before the answer. -/
  messages : List Bytes
  /-- Whether everything was read that was waited for. -/
  complete : Bool
  /-- Whether the proxy let go of the call before it was over. -/
  dropped : Bool
  deriving DecidableEq, Repr

/-- The world beyond the proxy. -/
structure Destinations where
  /-- How the dial of the given number ends. -/
  dialResult : Nat → Except IoError Unit
  /-- Whether destinations expect TLS. -/
  secured : Bool := false
  /-- Whether a secured destination proves to be the server of the given name. -/
  trusted : ServerName → Bool := fun _ => false
  /-- How the request of the given number is reacted to. -/
  reaction : Nat → Reaction
  dialed : List Text := []
  /-- The channels that have a connection. -/
  live : List Channel := []
  requests : List SentRequest := []

namespace PoolKey

/-- The address that a key stands for, as a URI. -/
def uri? (key : PoolKey) : Option Uri :=
  Uri.parse? ((if key.tls then "https://" else "http://").toList ++ key.destination)

/-- The authority of the requests to a destination. -/
def authority (key : PoolKey) : Text := (key.uri?.bind (·.authority)).getD []

/-- The name that a secured destination has to prove. -/
def serverName? (key : PoolKey) : Option ServerName :=
  key.uri?.bind fun uri => ServerName.parse? (Authority.host (uri.authority.getD []))

end PoolKey

namespace Destinations

/-- Dials a destination; a handshake follows where TLS is asked for. -/
def open? (d : Destinations) (channel : Channel) : Except IoError Unit × Destinations :=
  let dialed := { d with dialed := d.dialed ++ [channel.key.destination] }
  match d.dialResult d.dialed.length with
  | .error e => (.error e, dialed)
  | .ok () =>
    if channel.key.tls && !(d.secured && channel.key.serverName?.any d.trusted) then
      (.error ⟨.invalidData, "handshake failed".toList⟩, dialed)
    else (.ok (), { dialed with live := channel :: d.live })

/-- An attempt to make a channel. Where the destination forms no URI, or no server name although
    TLS is asked for, nothing is dialed. -/
def connect (channel : Channel) (d : Destinations) : Except PoolError Unit × Destinations :=
  let key := channel.key
  let unconnected : PoolError := .connect key.destination "transport error".toList
  match key.uri? with
  | none => (.error (.invalidDestination key.destination "invalid URI".toList), d)
  | some _ =>
    if key.tls && key.serverName?.isNone then (.error unconnected, d)
    else match d.open? channel with
      | (.ok (), d) => (.ok (), d)
      | (.error _, d) => (.error unconnected, d)

/-- Makes sure that a channel has a connection. -/
def revive (channel : Channel) (d : Destinations) : Except IoError Unit × Destinations :=
  if d.live.contains channel then (.ok (), d) else d.open? channel

/-- The failure of a call on a connection that broke off. -/
def brokenOff : Status :=
  { code := .unknown, message := "h2 protocol error: http2 error".toList }

/-- Whether a destination breaks a connection off that was opened without TLS. -/
def refuses (d : Destinations) (channel : Channel) : Bool := d.secured && !channel.key.tls

/-- The destination closes the connection of a channel. -/
def breakOff (channel : Channel) (d : Destinations) : Destinations :=
  { d with live := d.live.erase channel }

/-- The destinations close all connections. -/
def hangUp (d : Destinations) : Destinations := { d with live := [] }

end Destinations

end InterceptingProxy
