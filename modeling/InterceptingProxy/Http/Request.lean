import InterceptingProxy.Address.Uri
import InterceptingProxy.Header

set_option autoImplicit false

/-! # HTTP requests and where they go

`Request.route` sends a request to one of three places: `CONNECT` opens a tunnel, gRPC in its
native and its Web form goes to the call relay, and everything else to the reverse proxy. Native
gRPC needs HTTP/2. A CORS preflight counts as gRPC-Web when the browser asks for the field
`x-grpc-web`. -/

namespace InterceptingProxy

/-- The version of HTTP that a request uses. -/
inductive HttpVersion where
  | http09 | http10 | http11 | http2 | http3
  deriving DecidableEq, Repr

/-- The head of a request. -/
structure Request where
  method : Text
  version : HttpVersion := .http11
  uri : Uri
  headers : Headers := {}
  deriving DecidableEq, Repr

/-- The three places a request may go to. -/
inductive Route where
  | connect
  | grpc
  | reverseProxy
  deriving DecidableEq, Repr

/-- The start of every native gRPC content type. -/
def grpcContentType : Text := "application/grpc".toList

/-- The start of every gRPC-Web content type. -/
def grpcWebContentType : Text := "application/grpc-web".toList

/-- The field that gRPC-Web clients send. -/
def grpcWebField : Text := "x-grpc-web".toList

namespace Request

/-- The content type; empty if there is none or it is not text. -/
def contentType (r : Request) : Text := (r.headers.text? "content-type".toList).getD []

/-- The fields that a CORS preflight asks for. -/
def preflightFields (r : Request) : List Text :=
  (r.headers.texts "access-control-request-headers".toList).flatMap listItems

/-- A CORS preflight for a gRPC-Web call. -/
def isGrpcWebPreflight (r : Request) : Bool :=
  r.method == "OPTIONS".toList && r.preflightFields.any (Text.lower · == grpcWebField)

/-- A gRPC-Web call or the preflight for one. -/
def isGrpcWeb (r : Request) : Bool :=
  grpcWebContentType.isPrefixOf r.contentType || r.isGrpcWebPreflight

/-- A gRPC call in any form, or the preflight for one. -/
def isGrpc (r : Request) : Bool :=
  r.isGrpcWeb || (r.version == .http2 && grpcContentType.isPrefixOf r.contentType)

/-- Where the request goes. -/
def route (r : Request) : Route :=
  if r.method = "CONNECT".toList then .connect
  else if r.isGrpc then .grpc
  else .reverseProxy

/-- The authority that the request names: in its target, else in its `host` field. -/
def authority? (r : Request) : Option Text :=
  (r.uri.authority.or (r.headers.text? "host".toList)).filter (!·.isEmpty)

end Request

end InterceptingProxy
