import InterceptingProxy.Connection
import InterceptingProxy.Grpc.Web
import InterceptingProxy.Http.Cors
import InterceptingProxy.Http.ReverseProxy

set_option autoImplicit false

/-! # Routing requests

The router serves the requests of one connection. A `CONNECT` request turns the connection into a
tunnel, which is fed back to where connections come in, tagged by the host it asked for. Calls go
through the interceptors to the handler; gRPC-Web calls change their form on the way and get
the fields for cross-origin requests. All other requests go to the reverse proxy. A request on a
connection that was secured by TLS gets the HTTPS marker first. -/

namespace InterceptingProxy

/-- What the router knows about a connection. -/
structure RoutedConnection where
  tls : Bool
  /-- Whether the client connected to the proxy itself. -/
  direct : Bool
  deriving DecidableEq, Repr

/-- What the router notes about a connection when it takes it over. -/
def RoutedConnection.of (c : Connection) : RoutedConnection :=
  { tls := c.isTls, direct := c.destination.isNone }

/-- Where requests go. -/
structure Router where
  interceptors : List (Interceptor Surroundings) := []
  handler : Handler
  fetch : ReverseProxy.Outgoing → Option Response

/-- What becomes of a request. -/
inductive Routed where
  | response (r : Response)
  /-- The connection becomes a tunnel to the given authority. -/
  | tunnel (authority : Text) (tls : Bool)

namespace Router

/-- The request with the marker it gets from its connection. -/
def marked (conn : RoutedConnection) (r : Request) : Request :=
  if conn.tls then { r with headers := r.headers.addHttpsMarker } else r

/-- Opens a tunnel. Only HTTP/1 connections can become one. -/
def connect (conn : RoutedConnection) (r : Request) : Routed :=
  if r.version = .http2 ∨ r.version = .http3 then .response (.ofStatus 405)
  else match r.authority? with
    | none => .response (.ofStatus 400)
    | some authority => .tunnel authority conn.tls

/-- What a call knows about its connection: on one to the proxy itself no authority counts. -/
def origin (conn : RoutedConnection) (r : Request) : Grpc.Origin :=
  { authority := if conn.direct then none else r.authority?, tls := conn.tls }

/-- Serves a call in any form; `handle` is where it arrives unless an interceptor answers it. -/
def serveCall (router : Router) (handle : Rest Surroundings) (conn : RoutedConnection) (r : Request)
    (body : RequestBody) : StateM Surroundings Response :=
  let native := Grpc.serve (runChain handle router.interceptors) (origin conn r)
  if r.isGrpcWeb then Cors.around (Grpc.Web.around native) r body else native r body

/-- Serves a request, with calls that arrive at `handle`. -/
def routeTo (router : Router) (handle : Rest Surroundings) (conn : RoutedConnection) (r : Request)
    (body : RequestBody) : StateM Surroundings Routed := do
  let r := marked conn r
  match r.route with
  | .connect => return connect conn r
  | .grpc => return .response (← router.serveCall handle conn r body)
  | .reverseProxy => return .response (ReverseProxy.forward router.fetch r body)

/-- Serves a request. -/
def route (router : Router) :
    RoutedConnection → Request → RequestBody → StateM Surroundings Routed :=
  router.routeTo (router.handler.handle {})

end Router

end InterceptingProxy
