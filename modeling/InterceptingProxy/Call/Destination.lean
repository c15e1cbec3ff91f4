import InterceptingProxy.Call.Info
import InterceptingProxy.Grpc.Frame

set_option autoImplicit false

/-! # What a destination answers

An `HttpAnswer` is the response as it comes over the wire. `HttpAnswer.toReply` says what it means
for the call: the call fails at once, or it is answered by headers, messages and an ending. A
status in the headers counts before everything else; without any status, the HTTP status
decides. -/

namespace InterceptingProxy

/-- How a destination ends the stream of its messages. -/
inductive Ending where
  /-- All is well. -/
  | finished (trailers : Headers)
  | failed (status : Status)
  /-- The end never comes. -/
  | never

/-- What a destination's answer means for a call. -/
inductive Reply where
  /-- There is no answer. -/
  | silent
  | failed (status : Status)
  | answered (headers : Headers) (messages : List Bytes) (ending : Ending)

/-- How the body of a response ends. -/
inductive BodyEnd where
  | trailers (fields : Headers)
  /-- Without trailers. -/
  | bare
  /-- The peer resets the stream. -/
  | reset
  /-- The body stays open. -/
  | never

/-- A response over HTTP. -/
structure HttpAnswer where
  status : Nat := 200
  headers : Headers := {}
  body : Bytes := []
  ending : BodyEnd := .bare

/-- The failure of a call whose stream was reset. -/
def resetStatus : Status := .internal "h2 protocol error: http2 error".toList

namespace HttpAnswer

/-- Whether the headers already say that all is well; then no status is looked for in the end. -/
def settled (a : HttpAnswer) : Bool := ((Status.ofHeaders? a.headers).map (·.code)) == some .ok

/-- The status that the end of the body brings: that of the trailers, else the one that the HTTP
    status stands for. -/
def finalStatus? (a : HttpAnswer) (trailers : Option Headers) : Option Status :=
  match trailers.bind Status.ofHeaders? with
  | some s => if s.code = .ok then none else some s
  | none => Status.ofHttpStatus? a.status

/-- How a body ends whose messages are complete. -/
def endingWith (a : HttpAnswer) (trailers : Option Headers) : Ending :=
  match if a.settled then none else a.finalStatus? trailers with
  | some s => .failed s
  | none => .finished (trailers.getD {})

/-- How the messages end. A message that is cut off by trailers is dropped; one that is cut off by
    the end of the body is a fault. -/
def endingOf (a : HttpAnswer) (messages : Grpc.FrameEnd) : Ending :=
  let body : Grpc.Body := if a.settled then .request else .response a.status
  match messages, a.ending with
  | .fault f, _ => .failed (f.toStatus body)
  | .inside, .bare => .failed (Grpc.FrameFault.truncated.toStatus body)
  | _, .trailers t => a.endingWith (some t)
  | _, .bare => a.endingWith none
  | _, .reset => .failed resetStatus
  | _, .never => .never

/-- What the response means for the call. -/
def toReply (a : HttpAnswer) : Reply :=
  match Grpc.Encoding.ofHeaders a.headers with
  | .error s => .failed s
  | .ok encoding =>
    match Status.ofHeaders? a.headers with
    | some ⟨.ok, _, _, _⟩ | none =>
      let (messages, ending) := Grpc.readFrames encoding a.body
      .answered a.headers messages (a.endingOf ending)
    | some s => .failed s

end HttpAnswer

/-- How a destination reacts to a request: it waits for so many messages of it, or for its end, and
    then answers to what it has read. -/
structure Reaction where
  waitsFor : Option Nat := none
  reply : List Bytes → Reply

end InterceptingProxy
