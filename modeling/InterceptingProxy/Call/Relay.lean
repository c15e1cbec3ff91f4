import InterceptingProxy.Call.Destination
import InterceptingProxy.Call.MessageStream

set_option autoImplicit false

/-! # Relaying a call

Once a channel to the destination is there, a call is relayed by parties that run at the same time
and share bounded channels:

* the *forwarder* takes items from the caller's stream and puts messages into the outbound channel;
  a failure it puts into the failure channel, and then it returns. When the forwarder is gone, the
  outbound channel ends, and so does the request that the destination sees;
* the *backward* task takes messages from the destination and puts them into the response channel;
  how the destination ended goes into the conclusion channel;
* the *arbiter* waits for a failure, a conclusion or the caller's leaving, whichever it happens to
  see first. It may put one last item into the response channel, and then it returns, by which the
  other two are aborted;
* the *caller* reads from the response channel, or leaves.

`CallRelay.step?` is one step of one party. The parties may take their steps in any order; `run`
takes them in one order that depends on what caller and destination are waiting for. -/

namespace InterceptingProxy

/-- How a destination's stream ended, as the backward task reports it. -/
inductive Conclusion where
  | finished (trailers : Headers)
  | failed (status : Status)
  | callerGone

/-- The state of the forwarder. -/
inductive Forwarder where
  | idle
  /-- A message waits for room in the outbound channel. -/
  | holding (message : Bytes)
  /-- The caller's stream failed, which is yet to be reported. -/
  | reporting (status : Status)
  | returned
  | aborted

/-- The state of the backward task. -/
inductive Backward where
  /-- The destination has not answered yet. -/
  | absent
  | idle
  /-- A message waits for room in the response channel. -/
  | holding (message : Bytes)
  | concluding (conclusion : Conclusion)
  | returned
  | aborted

/-- The state of the arbiter. -/
inductive Arbiter where
  /-- The destination has not answered yet. -/
  | absent
  | waiting
  /-- The last item waits for room in the response channel. -/
  | announcing (status : Status)
  | returned

/-- The exchange with the destination. -/
inductive Exchange where
  | running
  /-- The destination has ended its answer. -/
  | over
  /-- The proxy has let go of it. -/
  | cancelled
  deriving DecidableEq, Repr

/-- What one call has come to on its way. -/
structure CallRelay where
  /-- What the caller's stream has left. -/
  inbound : List Item
  /-- How the destination answers to what it has received. -/
  reply : List Bytes → Reply
  forwarder : Forwarder := .idle
  /-- How many items were taken from the caller's stream. -/
  polled : Nat := 0
  /-- Whether the caller's stream has ended. -/
  exhausted : Bool := false
  outbound : List Bytes := []
  failure : Option Status := none
  exchange : Exchange := .running
  /-- The messages that the destination has received. -/
  received : List Bytes := []
  /-- Whether the destination has seen the end of the request. -/
  halfClosed : Bool := false
  /-- How the call is answered: headers, or a failure. -/
  answer : Option (Except Status Headers) := none
  /-- What the destination is still going to send. -/
  coming : List Bytes := []
  ending : Ending := .never
  backward : Backward := .absent
  conclusion : Option Conclusion := none
  arbiter : Arbiter := .absent
  responses : List Item := []
  /-- What the caller has read. -/
  read : List Item := []
  callerGone : Bool := false

/-- A step of one of the parties. -/
inductive RelayStep where
  /-- The forwarder takes the next item of the caller's stream. -/
  | poll
  /-- The forwarder puts its message into the outbound channel. -/
  | push
  /-- The forwarder finds that nobody reads from the outbound channel any more. -/
  | refuse
  /-- The forwarder reports the failure of the caller's stream. -/
  | report
  /-- A message reaches the destination. -/
  | transmit
  /-- The destination sees the end of the request. -/
  | halfClose
  /-- The destination answers. -/
  | answer
  /-- The call fails because the caller's stream failed before there was an answer. -/
  | giveUp
  /-- The backward task takes what comes next from the destination. -/
  | receive
  /-- The backward task puts its message into the response channel. -/
  | deliver
  /-- The backward task reports how the destination ended. -/
  | conclude
  /-- The arbiter sees the failure of the caller's stream. -/
  | heedFailure
  /-- The arbiter sees how the destination ended. -/
  | heedConclusion
  /-- The arbiter sees that the caller has left. -/
  | heedCaller
  /-- The arbiter puts the last item into the response channel. -/
  | announce
  /-- The forwarder is aborted after the arbiter's return. -/
  | abortForwarder
  /-- The backward task is aborted after the arbiter's return. -/
  | abortBackward
  /-- The caller reads an item. -/
  | read
  /-- The caller leaves. -/
  | leave
  deriving DecidableEq, Repr

namespace CallRelay

/-- Most messages in the outbound channel, and most items in the response channel. -/
def capacity : Nat := 16

/-- The failure that a caller sees when its own stream failed. -/
def callerFailure (s : Status) : Status := .internal ("failed proxying c2s: ".toList ++ s.message)

/-- Whether the forwarder still holds the sending side of the outbound channel. -/
def sending (r : CallRelay) : Bool :=
  match r.forwarder with
  | .idle | .holding _ | .reporting _ => true
  | .returned | .aborted => false

/-- Whether somebody still holds a sending side of the response channel. -/
def responding (r : CallRelay) : Bool :=
  match r.arbiter, r.backward with
  | .waiting, _ | .announcing _, _ => true
  | _, .idle | _, .holding _ | _, .concluding _ => true
  | _, _ => false

/-- The call fails before there is an answer. -/
def fail (r : CallRelay) (exchange : Exchange) (s : Status) : CallRelay :=
  { r with answer := some (.error s), forwarder := .aborted, exchange }

/-- The item that the arbiter adds when the destination has ended. -/
def lastStatus? : Conclusion → Option Status
  | .finished trailers => trailers.trailerStatus?
  | .failed s => some s
  | .callerGone => none

/-- One step; `none` if it cannot be taken now. -/
def step? (r : CallRelay) : RelayStep → Option CallRelay
  | .poll =>
    match r.forwarder, r.inbound with
    | .idle, [] => some { r with forwarder := .returned, exhausted := true }
    | .idle, .ok m :: rest =>
      some { r with forwarder := .holding m, inbound := rest, polled := r.polled + 1 }
    | .idle, .error s :: rest =>
      some { r with forwarder := .reporting s, inbound := rest, polled := r.polled + 1 }
    | _, _ => none
  | .push =>
    match r.forwarder with
    | .holding m =>
      if r.outbound.length < capacity then
        some { r with forwarder := .idle, outbound := r.outbound ++ [m] }
      else none
    | _ => none
  | .refuse =>
    match r.forwarder with
    | .holding _ =>
      if r.exchange ≠ .running then some { r with forwarder := .returned } else none
    | _ => none
  | .report =>
    match r.forwarder with
    | .reporting s => some { r with forwarder := .returned, failure := some s }
    | _ => none
  | .transmit =>
    match r.exchange, r.outbound with
    | .running, m :: rest => some { r with outbound := rest, received := r.received ++ [m] }
    | _, _ => none
  | .halfClose =>
    if r.exchange = .running ∧ r.outbound.isEmpty ∧ !r.sending ∧ !r.halfClosed then
      some { r with halfClosed := true }
    else none
  | .answer =>
    match r.answer, r.exchange with
    | none, .running =>
      match r.reply r.received with
      | .silent => none
      | .failed s => some (r.fail .over s)
      | .answered headers messages ending =>
        some { r with answer := some (.ok headers), coming := messages, ending, backward := .idle,
                      arbiter := .waiting }
    | _, _ => none
  | .giveUp =>
    match r.answer, r.exchange, r.failure with
    | none, .running, some s => some (r.fail .cancelled (callerFailure s))
    | _, _, _ => none
  | .receive =>
    match r.backward, r.coming, r.ending with
    | .idle, m :: rest, _ => some { r with backward := .holding m, coming := rest }
    | .idle, [], .finished trailers => some { r with backward := .concluding (.finished trailers) }
    | .idle, [], .failed s => some { r with backward := .concluding (.failed s) }
    | _, _, _ => none
  | .deliver =>
    match r.backward with
    | .holding m =>
      if r.callerGone then some { r with backward := .concluding .callerGone }
      else if r.responses.length < capacity then
        some { r with backward := .idle, responses := r.responses ++ [.ok m] }
      else none
    | _ => none
  | .conclude =>
    match r.backward with
    | .concluding c =>
      let exchange : Exchange := match c with
        | .callerGone => .cancelled
        | _ => .over
      some { r with backward := .returned, conclusion := some c, exchange }
    | _ => none
  | .heedFailure =>
    match r.arbiter, r.failure with
    | .waiting, some s => some { r with arbiter := .announcing (callerFailure s), failure := none }
    | _, _ => none
  | .heedConclusion =>
    match r.arbiter, r.conclusion with
    | .waiting, some c =>
      match lastStatus? c with
      | some s => some { r with arbiter := .announcing s, conclusion := none }
      | none => some { r with arbiter := .returned, conclusion := none }
    | _, _ => none
  | .heedCaller =>
    match r.arbiter with
    | .waiting => if r.callerGone then some { r with arbiter := .returned } else none
    | _ => none
  | .announce =>
    match r.arbiter with
    | .announcing s =>
      if r.callerGone then some { r with arbiter := .returned }
      else if r.responses.length < capacity then
        some { r with arbiter := .returned, responses := r.responses ++ [.error s] }
      else none
    | _ => none
  | .abortForwarder =>
    match r.arbiter with
    | .returned => if r.sending then some { r with forwarder := .aborted } else none
    | _ => none
  | .abortBackward =>
    match r.arbiter, r.backward with
    | .returned, .idle | .returned, .holding _ | .returned, .concluding _ =>
      some { r with
        backward := .aborted
        exchange := if r.exchange = .running then .cancelled else r.exchange }
    | _, _ => none
  | .read =>
    match r.callerGone, r.responses with
    | false, i :: rest => some { r with responses := rest, read := r.read ++ [i] }
    | _, _ => none
  | .leave =>
    if r.callerGone then none
    else match r.answer with
      | some _ => some { r with callerGone := true }
      | none =>
        some { r with callerGone := true, forwarder := .aborted, exchange := .cancelled }

/-- Whether the caller has read everything and sees the end of the response stream. -/
def ended (r : CallRelay) : Bool := r.responses.isEmpty && !r.responding

/-! ## One order of the steps -/

/-- What the caller waits for before it goes on sending. -/
inductive Gate where
  /-- It has read so many items of this call. -/
  | afterResponses (n : Nat)
  /-- Destinations have got hold of so many requests. -/
  | afterRequests (n : Nat)
  deriving DecidableEq, Repr

/-- How caller and destination behave during a call. -/
structure Plan where
  /-- What must have happened before the item of the given position is sent. -/
  gates : List (Nat × Gate) := []
  /-- How many items the caller reads before it leaves; all if not given. -/
  takes : Option Nat := none
  /-- How many messages the destination reads before it answers; all if not given. -/
  waitsFor : Option Nat := none
  /-- How many requests destinations got hold of before this one. -/
  earlier : Nat := 0

namespace Plan

/-- Whether the destination has read what it waits for. -/
def heard (p : Plan) (r : CallRelay) : Bool :=
  r.halfClosed || p.waitsFor.any (· ≤ r.received.length)

/-- Whether a gate is open. -/
def isOpen (p : Plan) (r : CallRelay) : Gate → Bool
  | .afterResponses n => n ≤ r.read.length
  | .afterRequests n => n ≤ p.earlier + (p.heard r).toNat

/-- Whether the caller has read all it wants. -/
def satisfied (p : Plan) (r : CallRelay) : Bool := p.takes.any (· ≤ r.read.length)

/-- Whether a step fits the behaviour of caller and destination. -/
def allows (p : Plan) (r : CallRelay) : RelayStep → Bool
  | .poll => p.gates.all fun (position, gate) => position ≠ r.polled || p.isOpen r gate
  | .answer => p.heard r
  | .read => !p.satisfied r
  | .leave => r.answer.isSome && p.satisfied r
  | _ => true

end Plan

/-- The steps in the order of their urgency. -/
def urgency : List RelayStep :=
  [.transmit, .poll, .refuse, .push, .report, .halfClose, .giveUp, .heedFailure, .answer, .receive,
    .deliver, .conclude, .heedConclusion, .announce, .abortForwarder, .abortBackward, .read,
    .leave, .heedCaller]

/-- The most urgent step that is possible. -/
def next? (p : Plan) (r : CallRelay) : Option CallRelay :=
  urgency.findSome? fun s => if p.allows r s then r.step? s else none

/-- So many steps, or as many as there are. -/
def runFor (p : Plan) : Nat → CallRelay → CallRelay
  | 0, r => r
  | n + 1, r =>
    match r.next? p with
    | some r => runFor p n r
    | none => r

/-- A bound for the number of steps: every item and every message makes five of them at most, and
    all else happens once. -/
def fuel (p : Plan) (r : CallRelay) : Nat :=
  let replies := match r.reply (r.inbound.filterMap Except.toOption) with
    | .answered _ messages _ => messages.length
    | _ => 0
  5 * (r.inbound.length + replies + p.takes.getD 0 + urgency.length)

/-- Runs a call as far as it goes. -/
def run (p : Plan) (r : CallRelay) : CallRelay := runFor p (r.fuel p) r

end CallRelay

end InterceptingProxy
