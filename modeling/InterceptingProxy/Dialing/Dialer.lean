import InterceptingProxy.Dialing.HttpProxy
import InterceptingProxy.Dialing.NoProxy
import InterceptingProxy.Dialing.Tunnel
import InterceptingProxy.Address.IpAddr

set_option autoImplicit false

/-! # Dialing

A `Dialer` opens connections to `host:port` addresses: straight, or through an outbound proxy when
one is configured and the address is not exempt from it. What lies behind an address is the
business of the `Network`. -/

namespace InterceptingProxy

/-- What connecting to an address gives. -/
abbrev Network := Text → Except IoError ByteStream

namespace Network

/-- An address whose port is missing. -/
def invalidAddress : IoError := ⟨.invalidInput, "invalid socket address".toList⟩

/-- An address whose port is no port number. -/
def invalidPort : IoError := ⟨.invalidInput, "invalid port value".toList⟩

/-- The port of an address: what follows its last colon. -/
def portOf (address : Text) : Except IoError Nat :=
  match splitLast ':' address with
  | none => .error invalidAddress
  | some (_, digits) =>
    match Authority.parsePort? digits with
    | some port => .ok port
    | none => .error invalidPort

/-- A network in which every address is out of reach. -/
def isolated : Network := fun address => do
  let _ ← portOf address
  throw .networkUnreachable

end Network

/-- How outbound connections are opened. -/
structure Dialer where
  proxy : Option HttpProxy := none
  noProxy : NoProxy := {}
  deriving DecidableEq, Repr

namespace Dialer

/-- The outbound proxy used for an address, if any. -/
def proxyFor (d : Dialer) (address : Text) : Option HttpProxy :=
  d.proxy.filter fun _ => !d.noProxy.covers address

/-- Opens a connection to an address. -/
def dial (d : Dialer) (network : Network) (address : Text) : Except IoError Connection := do
  match d.proxyFor address with
  | none => return .raw (← network address)
  | some proxy => openTunnel proxy address (.raw (← network proxy.address))

/-! ## Configuration by environment variables -/

/-- Variables that may name the outbound proxy, in order of preference. -/
def proxyVariables : List Text :=
  ["HTTPS_PROXY", "https_proxy", "HTTP_PROXY", "http_proxy"].map String.toList

/-- Variables that may list exempt hosts, in order of preference. -/
def noProxyVariables : List Text := ["NO_PROXY", "no_proxy"].map String.toList

/-- The first value among the variables that is not blank. -/
def firstSet (environment : Text → Option Text) (names : List Text) : Option Text :=
  (names.filterMap environment).find? fun value => !(Text.trim value).isEmpty

/-- The dialer that the environment describes. A proxy URL that cannot be read is ignored, and no
    other variable takes its place. -/
def ofEnvironment (environment : Text → Option Text) : Dialer :=
  { proxy := (firstSet environment proxyVariables).bind HttpProxy.parse?
    noProxy := ((firstSet environment noProxyVariables).map NoProxy.parse).getD {} }

end Dialer

end InterceptingProxy
