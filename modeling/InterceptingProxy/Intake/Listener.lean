import InterceptingProxy.Connection

set_option autoImplicit false

/-! # The listener

Connections are accepted in the order in which they arrive, whether a client made them to the
proxy itself (`Listener.arrive`) or they come out of a tunnel (`Listener.redirect`) and are tagged
with the host that the client asked for. Once the listener is closed, nothing arrives any more. -/

namespace InterceptingProxy

/-- The connections that wait to be accepted. -/
structure Listener where
  isOpen : Bool := true
  waiting : List Connection := []
  deriving DecidableEq, Repr

/-- A connection that comes out of a tunnel to `host`; `tls` tells whether the tunnel was opened
    over TLS. -/
def Connection.tunnelled (stream : Connection) (host : Text) (tls : Bool) : Connection :=
  stream.tag (some host) tls

namespace Listener

/-- The listener is gone. -/
def closedError : IoError := ⟨.connectionAborted, "listener closed".toList⟩

/-- Queues a connection that a client made to the proxy itself. -/
def arrive (stream : Connection) (l : Listener) : Listener :=
  if l.isOpen then { l with waiting := l.waiting ++ [stream.direct] } else l

/-- Queues what comes out of a tunnel. -/
def redirect (stream : Connection) (host : Text) (tls : Bool) (l : Listener) :
    Except IoError Listener :=
  if l.isOpen then .ok { l with waiting := l.waiting ++ [stream.tunnelled host tls] }
  else .error closedError

/-- The next connection. -/
def accept (l : Listener) : Option (Connection × Listener) :=
  match l.waiting with
  | [] => none
  | client :: rest => some (client, { l with waiting := rest })

/-- Closes the listener; what still waits is lost. -/
def close (_ : Listener) : Listener := { isOpen := false }

end Listener

end InterceptingProxy
