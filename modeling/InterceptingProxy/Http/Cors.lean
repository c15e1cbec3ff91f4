import InterceptingProxy.Http.Message
import InterceptingProxy.Http.Request

set_option autoImplicit false

/-! # Cross-origin requests

Browsers may call from any origin and with credentials: the origin, the method and the fields that
a request asks for are granted by sending them back. A preflight is answered at once; any other
response gets the fields on top of its own. -/

namespace InterceptingProxy.Cors

/-- How long a grant may be kept, in seconds. -/
def maxAge : Nat := 86400

/-- The request fields that the grants depend on. -/
def varyingNames : Bytes :=
  ascii "origin, access-control-request-method, access-control-request-headers"

/-- The response fields that scripts may read. -/
def exposedNames : Bytes := ascii "grpc-status,grpc-message,grpc-status-details-bin"

/-- A field of the request sent back under another name, if it is there. -/
def granted (r : Request) (name : String) (asked : String) : List (Text × Bytes) :=
  ((r.headers.get? asked.toList).map fun value => (name.toList, value)).toList

/-- Fields of every response but `vary`. -/
def common (r : Request) : List (Text × Bytes) :=
  ("access-control-allow-credentials".toList, ascii "true")
    :: granted r "access-control-allow-origin" "origin"

/-- The name of the field that tells what a response depends on. -/
def varyName : Text := "vary".toList

/-- The answer to a preflight. -/
def preflight (r : Request) : Response :=
  { headers := Headers.ofList (common r
      ++ granted r "access-control-allow-methods" "access-control-request-method"
      ++ granted r "access-control-allow-headers" "access-control-request-headers"
      ++ [("access-control-max-age".toList, Bytes.ofLatin (Text.ofNat maxAge)),
        (varyName, varyingNames)]) }

/-- Adds the fields to a response. -/
def grant (r : Request) (response : Response) : Response :=
  let exposed := ("access-control-expose-headers".toList, exposedNames)
  { response with
    headers := (response.headers.append varyName varyingNames).extend
      (Headers.ofList (common r ++ [exposed])) }

/-- Answers preflights, and adds the fields to all other responses of a service. -/
def around {m : Type → Type} [Monad m] (service : Request → RequestBody → m Response)
    (r : Request) (body : RequestBody) : m Response := do
  if r.method = "OPTIONS".toList then return preflight r
  else return grant r (← service r body)

end InterceptingProxy.Cors
