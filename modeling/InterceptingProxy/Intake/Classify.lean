import InterceptingProxy.Certificate.Coverage
import InterceptingProxy.Intake.Outbound
import InterceptingProxy.Sniff

set_option autoImplicit false

/-! # Classifying connections

Every connection is looked at once: one that starts with a TLS handshake goes to the TLS branch if
TLS can be terminated for it, and is relayed untouched otherwise; any other goes to the plaintext
branch. So does one that is too short to tell, for the HTTP side to decide. `Fate` is what is
decided, `classify` decides it, and `Fate.carryOut` does it. -/

namespace InterceptingProxy

/-- Where a classified connection is served. -/
inductive Branch where
  | plain
  | tls
  deriving DecidableEq, Repr

/-- What is decided about a connection. -/
inductive Fate where
  | serve (branch : Branch) (client : Connection)
  /-- Relay the encrypted bytes. -/
  | passThrough (destination : Text) (client : Connection)
  /-- The connection failed while it was looked at. -/
  | drop (error : IoError)
  deriving DecidableEq, Repr

/-- Decides about a connection. -/
def classify (certificate : Option Coverage) (client : Connection) : Fate :=
  match client.forPeeking.peek tlsPeekSize isTlsHandshake with
  | (.ok true, client) =>
    match routeTls client.destination certificate with
    | .intercept => .serve .tls client
    | .passThrough destination => .passThrough destination client
  | (.ok false, client) => .serve .plain client
  | (.error (.shortRead _ _), client) => .serve .plain client
  | (.error e, _) => .drop e.toIoError

/-- What became of a connection. -/
inductive Classified where
  | served (branch : Branch) (client : Connection)
  | relayed (relayed : Outbound.Relayed)
  | dropped (error : IoError)

/-- Does what was decided. -/
def Fate.carryOut (fate : Fate) (o : Outbound) : Classified × Outbound :=
  match fate with
  | .serve branch client => (.served branch client, o)
  | .drop e => (.dropped e, o)
  | .passThrough destination client =>
    match o.dial destination with
    | (.error e, o) => (.dropped e, o)
    | (.ok (), o) =>
      let (relayed, o) := o.relay client false
      (.relayed relayed, o)

end InterceptingProxy
