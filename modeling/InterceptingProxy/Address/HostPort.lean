import InterceptingProxy.Text

set_option autoImplicit false

/-! # Addresses of the form `host:port`

An address names a host and maybe a port. An IPv6 literal carries brackets when a port follows
it; a text with two colons and no bracket is a bare IPv6 literal without a port. `hostOf` gives
the host, `hasPort` tells whether a port is given, and `withDefaultPort` adds the port of the
scheme where there is none. -/

namespace InterceptingProxy

/-- The host of an address: what stands between brackets, or before the only colon. -/
def hostOf : Text → Text
  | '[' :: rest =>
    match splitFirst ']' rest with
    | some (host, _) => host
    | none => rest
  | address =>
    match splitLast ':' address with
    | some (host, _) => if ':' ∈ host then address else host
    | none => address

/-- Whether an address carries a port. -/
def hasPort : Text → Bool
  | '[' :: rest => containsRun "]:".toList rest
  | address =>
    match splitLast ':' address with
    | some (host, port) => ':' ∉ host && !port.isEmpty
    | none => false

/-- The port that a scheme uses when none is given. -/
def defaultPort (tls : Bool) : Nat := if tls then 443 else 80

/-- The address with the default port added when it has none; a bare text with a colon is taken
    for an IPv6 literal and bracketed. -/
def withDefaultPort (authority : Text) (tls : Bool) : Text :=
  if hasPort authority then authority
  else
    let port := Text.ofNat (defaultPort tls)
    if ':' ∈ authority ∧ authority.head? ≠ some '[' then
      '[' :: authority ++ "]:".toList ++ port
    else authority ++ ':' :: port

end InterceptingProxy
