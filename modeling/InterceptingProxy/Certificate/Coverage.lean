import InterceptingProxy.Address.IpAddr
import InterceptingProxy.Address.HostPort

set_option autoImplicit false

/-! # Hosts that a certificate covers

The proxy terminates TLS only for hosts that its certificate covers. `Coverage` keeps the names
and addresses of a certificate; `Coverage.covers` decides for one host, and `routeTls` for the
destination of a connection. A wildcard `*.base` covers `base` itself and exactly one further
label in front of it. -/

namespace InterceptingProxy

/-- The names (in lower case) and addresses that a certificate is valid for. -/
structure Coverage where
  dnsNames : List Text := []
  ipAddrs : List IpAddr := []
  deriving DecidableEq, Repr

namespace Coverage

/-- The coverage with one more name, which may be an IP literal. -/
def addName (c : Coverage) (name : Text) : Coverage :=
  match IpAddr.parse? name with
  | some ip => { c with ipAddrs := c.ipAddrs ++ [ip] }
  | none => { c with dnsNames := c.dnsNames ++ [name.lower] }

/-- The coverage of a list of names. -/
def ofNames (names : List Text) : Coverage := names.foldl addName {}

/-- Whether a name in a certificate matches a host in lower case. -/
def nameMatches (host name : Text) : Bool :=
  match stripPrefix "*.".toList name with
  | some base =>
    host == base
      || match (stripSuffix base host).bind (stripSuffix ['.']) with
        | some label => !label.isEmpty && !label.contains '.'
        | none => false
  | none => host == name

/-- Whether the certificate covers `host`, a name or literal without port and brackets. -/
def covers (c : Coverage) (host : Text) : Bool :=
  match IpAddr.parse? host with
  | some ip => c.ipAddrs.contains ip
  | none =>
    let host := Text.lower (dropEndWhile (· == '.') host)
    !host.isEmpty && c.dnsNames.any (nameMatches host)

end Coverage

/-- What to do with a connection that starts with a TLS handshake. -/
inductive TlsRoute where
  /-- Terminate TLS here. -/
  | intercept
  /-- Relay the encrypted bytes to the destination. -/
  | passThrough (destination : Text)
  deriving DecidableEq, Repr

/-- A connection without a destination was made to the proxy itself and can only be terminated;
    any other is terminated where the certificate covers the destination's host. -/
def routeTls (destination : Option Text) (cert : Option Coverage) : TlsRoute :=
  match destination.filter (!·.isEmpty), cert with
  | none, _ => .intercept
  | some d, some c => if c.covers (hostOf d) then .intercept else .passThrough d
  | some d, none => .passThrough d

end InterceptingProxy
