import InterceptingProxy.Header.Forwarded
import InterceptingProxy.Header.HopByHop
import InterceptingProxy.Http.Message
import InterceptingProxy.Http.Request

set_option autoImplicit false

/-! # The reverse proxy

Requests that are no calls are sent to the host they name: that of the `host` field, or else that
of the target. They go over `https` if they carry the HTTPS marker. Fields that concern one
connection only are dropped in both directions. -/

namespace InterceptingProxy.ReverseProxy

/-- A request as it is sent on. -/
structure Outgoing where
  method : Text
  url : Text
  headers : Headers
  body : RequestBody

/-- The host that a request names. -/
def host? (r : Request) : Option Text :=
  ((r.headers.text? "host".toList).or r.uri.authority).filter (!·.isEmpty)

/-- The URL that a request is sent to. -/
def url? (r : Request) : Option Text :=
  (host? r).map fun host =>
    let scheme := if r.headers.mentionsHttps then "https://".toList else "http://".toList
    scheme ++ host ++ ((r.uri.pathAndQuery?.map (·.toText)).getD ['/'])

/-- The fields that are sent on. -/
def requestHeaders (h : Headers) : Headers :=
  h.removeHttpsMarker.stripHopByHop.remove "host".toList

/-- The request that is sent on; none if it names no host. -/
def outgoing? (r : Request) (body : RequestBody) : Option Outgoing :=
  (url? r).map fun url => { method := r.method, url, headers := requestHeaders r.headers, body }

/-- The response that is passed back. -/
def passBack (response : Response) : Response :=
  { response with headers := response.headers.stripHopByHop }

/-- Sends a request on by `fetch`, which gives nothing if the host is out of reach. -/
def forward (fetch : Outgoing → Option Response) (r : Request) (body : RequestBody) : Response :=
  match outgoing? r body with
  | none => .ofStatus 400
  | some o =>
    match fetch o with
    | some response => passBack response
    | none => .ofStatus 502

end InterceptingProxy.ReverseProxy
