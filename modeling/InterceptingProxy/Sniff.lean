import InterceptingProxy.Text

set_option autoImplicit false

/-! # Recognising a protocol by its first bytes

A connection is looked at twice before it is served: `isTlsHandshake` on its first three bytes
and `isProxiedHttp` on its first eight. -/

namespace InterceptingProxy

/-- Bytes needed to recognise a TLS handshake record. -/
def tlsPeekSize : Nat := 3

/-- Bytes needed to recognise the requests that the router serves. -/
def httpPeekSize : Nat := 8

/-- A handshake record of TLS 1.0 to 1.3: type 22 and a record version from 3.0 to 3.3. -/
def isTlsHandshake : Bytes → Bool
  | first :: major :: minor :: _ => first == 0x16 && major == 0x03 && minor ≤ 0x03
  | _ => false

/-- The beginnings of the requests that the router serves: two methods and the HTTP/2 preface. -/
def httpPrefixes : List Bytes := [ascii "CONNECT", ascii "POST", ascii "PRI "]

/-- Starts like a request that the router serves. -/
def isProxiedHttp (start : Bytes) : Bool := httpPrefixes.any (·.isPrefixOf start)

end InterceptingProxy
