import InterceptingProxy.Call.Interceptor
import InterceptingProxy.Http.Message
import InterceptingProxy.Http.Request

set_option autoImplicit false

/-! # gRPC calls over HTTP

A request becomes a call: its path is the method, its fields are the metadata, its body holds the
messages. What the call comes to becomes the response: an answer is streamed and ends with the
status in the trailers, a failure has the status in its head and no body. -/

namespace InterceptingProxy.Grpc

/-- The messages of a request body. -/
def inbound (e : Encoding) (body : RequestBody) : MessageStream :=
  let (messages, ending) := readFrames e body.pieces.flatten
  let failed (s : Status) : MessageStream := MessageStream.ofMessages messages ++ [.item (.error s)]
  match ending, body.ending with
  | .fault f, _ => failed (f.toStatus .request)
  | _, .broken s => if s.code = .cancelled then MessageStream.ofMessages messages else failed s
  | .inside, .plain => failed (FrameFault.truncated.toStatus .request)
  | _, _ => MessageStream.ofMessages messages

/-- The content type of every response. -/
def responseType : Bytes := Bytes.ofLatin grpcContentType

/-- The name of the field for the content type. -/
def contentTypeName : Text := "content-type".toList

/-- The response to a failed call. -/
def failureResponse (s : Status) : Response :=
  { headers := (Headers.ofList [(contentTypeName, responseType)]).extend s.toHeaders }

/-- The pieces and the trailers that items become: the first failure ends them. -/
def encodeItems (gzip : Bool) : List Item → List Bytes × Status
  | [] => ([], { code := .ok })
  | .error s :: _ => ([], s)
  | .ok m :: rest =>
    let (pieces, s) := encodeItems gzip rest
    (frame gzip m :: pieces, s)

/-- The response to an answered call. -/
def answerResponse (gzip : Bool) (a : Answer) : Response :=
  let (body, status) := encodeItems gzip a.stream.items
  let headers := (a.headers.removeAll Status.reservedNames).insert contentTypeName responseType
  { headers := if gzip then headers.insert Encoding.fieldName (ascii "gzip") else headers
    body, trailers := some status.toHeaders, streamed := true }

/-- What is known about the connection and the target of a request. -/
structure Origin where
  authority : Option Text
  tls : Bool
  deriving DecidableEq, Repr

/-- The call that a request makes. -/
def callOf (origin : Origin) (e : Encoding) (r : Request) (body : RequestBody) : Call :=
  { info := { method := r.uri.path, metadata := r.headers, authority := origin.authority,
              tls := origin.tls }
    inbound := inbound e body }

/-- Serves a request by running the call it makes. -/
def serve (run : Rest Surroundings) (origin : Origin) (r : Request) (body : RequestBody) :
    StateM Surroundings Response := do
  match Encoding.ofHeaders r.headers with
  | .error s => return failureResponse s
  | .ok e =>
    match ← run (callOf origin e r body) with
    | .error s => return failureResponse s
    | .ok a =>
      let a := { a with stream := a.stream.untilFailure }
      modify (·.note a.stream.allNotes)
      return answerResponse (Encoding.acceptsGzip r.headers) a

end InterceptingProxy.Grpc
