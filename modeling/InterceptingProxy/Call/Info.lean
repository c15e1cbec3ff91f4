import InterceptingProxy.Address.HostPort
import InterceptingProxy.Header.Forwarded
import InterceptingProxy.Header.HopByHop
import InterceptingProxy.Status

set_option autoImplicit false

/-! # What is known about a call

`CallInfo` describes a call to the interceptors. From it follow the destination
(`CallInfo.destination`) and the metadata sent there (`Headers.forOutboundCall`); of the answer's
metadata, `Headers.forCaller` is passed back. Both drop the fields that belong to one connection
and those that negotiate the encoding of messages, which is done on each leg on its own. -/

namespace InterceptingProxy

/-- Describes a call on its way through the proxy. -/
structure CallInfo where
  /-- The path of the method, such as `/pkg.Service/Method`. -/
  method : Text
  /-- The request metadata, the proxy's own markers included. -/
  metadata : Headers := {}
  /-- The destination that the call names, if the client came through a tunnel. -/
  authority : Option Text := none
  /-- Whether the call arrived over TLS. -/
  tls : Bool := false
  deriving DecidableEq, Repr

namespace CallInfo

/-- The metadata as the client sent it. -/
def externalMetadata (info : CallInfo) : Headers := info.metadata.removeHttpsMarker

/-- Where the call goes: to the authority it names, else to the configured destination. -/
def destination (configured : Option Text) (info : CallInfo) : Except Status Text :=
  match info.authority.filter (!·.isEmpty), configured.filter (!·.isEmpty) with
  | some authority, _ => .ok (withDefaultPort authority info.metadata.isMarkedHttps)
  | none, some destination => .ok destination
  | none, none => .error (.unimplemented "no proxy destination configured".toList)

end CallInfo

/-! ## Metadata on both sides -/

/-- Fields that negotiate how messages are encoded. -/
def encodingNames : List Text := ["grpc-encoding", "grpc-accept-encoding"].map String.toList

/-- The length of a body, which is not that of the body sent on. -/
def contentLengthName : Text := "content-length".toList

/-- The field that names the host of a request. -/
def hostName : Text := "host".toList

namespace Headers

/-- The metadata sent to the destination. -/
def forOutboundCall (inbound : Headers) : Headers :=
  inbound.removeHttpsMarker.stripHopByHop.removeAll
    (hostName :: contentLengthName :: encodingNames)

/-- The metadata of an answer that is passed back to the caller. -/
def forCaller (head : Headers) : Headers :=
  head.stripHopByHop.removeAll (contentLengthName :: encodingNames)

/-- Trailers other than the status become a last item for the caller; none if there are none. -/
def trailerStatus? (trailers : Headers) : Option Status :=
  let metadata := trailers.removeAll Status.fieldNames
  if metadata.fields.isEmpty then none else some { code := .ok, metadata }

end Headers

end InterceptingProxy
