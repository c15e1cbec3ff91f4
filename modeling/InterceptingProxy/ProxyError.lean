import InterceptingProxy.IoError

set_option autoImplicit false

/-! # Failures of the proxy

`ProxyError` ends the configuration or the run of a server, `PoolError` a call that finds no
channel to its destination, `TunnelError` an attempt to open a tunnel through an outbound proxy. -/

namespace InterceptingProxy

/-- Why a server could not be configured or stopped. -/
inductive ProxyError where
  | config (reason : Text)
  | io (error : IoError)
  /-- A certificate, key or log file cannot be read. -/
  | unreadable (path : Text) (error : IoError)
  /-- A certificate or key file holds nothing usable. -/
  | certificate (path reason : Text)
  /-- The TLS library rejects the material. -/
  | tls (reason : Text)
  deriving DecidableEq, Repr

namespace ProxyError

/-- The wording of a failure. -/
def message : ProxyError → Text
  | .config reason => "invalid configuration: ".toList ++ reason
  | .io e => "I/O error: ".toList ++ e.message
  | .unreadable path e => "failed to read ".toList ++ path ++ ": ".toList ++ e.message
  | .certificate path reason =>
    "invalid certificate material in ".toList ++ path ++ ": ".toList ++ reason
  | .tls reason => "TLS configuration error: ".toList ++ reason

/-- The wording of the failure behind this one. -/
def source? : ProxyError → Option Text
  | .io e => some e.message
  | .unreadable _ e => some e.message
  | .tls reason => some reason
  | _ => none

/-- The wording with those of all failures behind it. -/
def chain (e : ProxyError) : Text :=
  match e.source? with
  | some source => e.message ++ ": ".toList ++ source
  | none => e.message

end ProxyError

/-- Why there is no channel to a destination. -/
inductive PoolError where
  /-- The destination forms no URI. -/
  | invalidDestination (destination reason : Text)
  /-- Dialing, or the TLS handshake after it, failed. -/
  | connect (destination reason : Text)
  deriving DecidableEq, Repr

namespace PoolError

/-- The wording of a failure. -/
def message : PoolError → Text
  | .invalidDestination destination reason =>
    "invalid destination ".toList ++ destination ++ ": ".toList ++ reason
  | .connect destination reason =>
    "failed to connect to ".toList ++ destination ++ ": ".toList ++ reason

end PoolError

/-- Why an outbound proxy opened no tunnel. -/
inductive TunnelError where
  | refused (proxy target status : Text)
  | headersTooLarge (limit : Nat)
  | unexpectedEof
  | malformed (reason : Text)
  deriving DecidableEq, Repr

namespace TunnelError

/-- The wording of a failure. -/
def message : TunnelError → Text
  | .refused proxy target status =>
    "upstream proxy ".toList ++ proxy ++ " refused CONNECT to ".toList ++ target ++ ": ".toList
      ++ status
  | .headersTooLarge limit =>
    "upstream proxy response headers exceed ".toList ++ Text.ofNat limit ++ " bytes".toList
  | .unexpectedEof => "upstream proxy closed the connection during CONNECT".toList
  | .malformed reason => "malformed upstream proxy response: ".toList ++ reason

/-- The failure as one of the connection. -/
def toIoError (e : TunnelError) : IoError :=
  let kind := match e with
    | .unexpectedEof => .unexpectedEof
    | .refused _ _ _ => .connectionRefused
    | _ => .invalidData
  ⟨kind, e.message⟩

end TunnelError

end InterceptingProxy
