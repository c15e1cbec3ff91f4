import InterceptingProxy.Address.Uri
import InterceptingProxy.Encoding.Base64

set_option autoImplicit false

/-! # The outbound HTTP proxy

Connections may be tunnelled through an HTTP proxy. It is given as a URL; userinfo in it becomes
credentials for the proxy, which are sent with the `CONNECT` request (`HttpProxy.connectRequest`)
and shown nowhere else (`HttpProxy.describe`). -/

namespace InterceptingProxy

/-- An HTTP proxy that opens tunnels. -/
structure HttpProxy where
  /-- Its `host:port`. -/
  address : Text
  /-- The value of the `Proxy-Authorization` field, if it asks for credentials. -/
  authorization : Option Text := none
  deriving DecidableEq, Repr

namespace HttpProxy

/-- The port of a proxy whose URL gives none. -/
def standardPort : Nat := 80

/-- Basic credentials for a userinfo. -/
def basicAuthorization (userinfo : Text) : Text :=
  "Basic ".toList ++ Bytes.toLatin (Base64.encode true userinfo.utf8)

/-- The proxy that the authority of a URL names. -/
def ofAuthority? (authority : Text) : Option HttpProxy :=
  let host := Authority.host authority
  if host.isEmpty then none
  else
    let port := (Authority.port? authority).getD standardPort
    some
      { address := host ++ ':' :: Text.ofNat port
        authorization := (Authority.userinfo? authority).map basicAuthorization }

/-- Reads `host[:port]` or `http://[user:password@]host[:port][/]`; other schemes are refused. -/
def parse? (written : Text) : Option HttpProxy := do
  let url := Text.trim written
  let uri ← Uri.parse? (if containsRun "://".toList url then url else "http://".toList ++ url)
  if uri.scheme = some "http".toList then ofAuthority? (← uri.authority) else none

/-- Whether credentials are sent. -/
def authenticated (p : HttpProxy) : Bool := p.authorization.isSome

/-- The request head that asks for a tunnel. -/
def connectRequest (p : HttpProxy) (target : Text) : Text :=
  "CONNECT ".toList ++ target ++ " HTTP/1.1\r\nHost: ".toList ++ target ++ "\r\n".toList
    ++ (match p.authorization with
      | some value => "Proxy-Authorization: ".toList ++ value ++ "\r\n".toList
      | none => [])
    ++ "\r\n".toList

/-- The proxy for people to read: whether it has credentials, but not which. -/
def describe (p : HttpProxy) : Text :=
  "UpstreamProxy \x7b addr: \"".toList ++ p.address ++ "\", authenticated: ".toList
    ++ (if p.authenticated then "true" else "false").toList ++ " \x7d".toList

end HttpProxy

end InterceptingProxy
