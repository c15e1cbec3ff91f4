import InterceptingProxy.Call.Handler

set_option autoImplicit false

/-! # Interceptors

An interceptor sees a call before it reaches its destination. It may run the rest of the chain, as
often as it likes and with a changed call, change what the rest returns, answer by itself, fail or
panic. `runChain` runs the interceptors in order and ends at the handler. Each of them is isolated:
a panic fails the call it happens in, and the interceptors before see that failure. -/

namespace InterceptingProxy

/-- What interceptors run: a call that may change the state of type `σ`. -/
abbrev Rest (σ : Type) := Call → StateM σ CallResult

/-- Gets a call and the rest of the chain. -/
abbrev Interceptor (σ : Type) := Call → Rest σ → StateM σ Outcome

/-- Runs a call through interceptors and at last through the handler. -/
def runChain {σ : Type} (handler : Rest σ) : List (Interceptor σ) → Rest σ
  | [] => handler
  | i :: rest => fun call => do return (← i call (runChain handler rest)).isolate

/-! ## Changing streams -/

namespace MessageStream

/-- Puts polls in place of every item, which is given by its position and what it is. -/
def replaceItems (f : Nat → Item → MessageStream) : Nat → MessageStream → MessageStream
  | _, [] => []
  | n, .item i :: rest => f n i ++ replaceItems f (n + 1) rest
  | n, poll :: rest => poll :: replaceItems f n rest

/-- The polls up to the first failure, which is as far as a stream is read that is sent on. -/
def untilFailure : MessageStream → MessageStream
  | [] => []
  | .item (.error s) :: _ => [.item (.error s)]
  | poll :: rest => poll :: untilFailure rest

end MessageStream

/-- A change of a stream. -/
inductive StreamChange where
  | keep
  /-- Adds bytes to the end of every message. -/
  | append (suffix : Bytes)
  /-- The item of the given position panics. -/
  | panic (position : Nat)
  /-- The item of the given position becomes a failure. -/
  | fail (position : Nat) (status : Status)
  /-- Notes every item. -/
  | log

namespace StreamChange

/-- The text of the panic. -/
def panicText : Text := "stream exploded".toList

/-- The changed stream; `entry` is how an item is noted. -/
def apply (entry : Item → Entry) : StreamChange → MessageStream → MessageStream
  | .keep => id
  | .append suffix => MessageStream.replaceItems (fun _ i => [.item (i.map (· ++ suffix))]) 0
  | .panic position =>
    MessageStream.replaceItems
      (fun n i => if n = position then [.panic (.literal panicText)] else [.item i]) 0
  | .fail position s =>
    MessageStream.replaceItems (fun n i => [.item (if n = position then .error s else i)]) 0
  | .log => MessageStream.replaceItems (fun _ i => [.note (entry i), .item i]) 0

end StreamChange

/-! ## Interceptors for common ends -/

namespace Interceptor

variable {σ : Type}

/-- Runs the rest and changes neither call nor result. -/
def pass : Interceptor σ := fun call rest => do return .returned (← rest call)

/-- Fails every call. -/
def deny (s : Status) : Interceptor σ := fun _ _ => return .returned (.error s)

/-- Panics at every call. -/
def panic (p : Panic) : Interceptor σ := fun _ _ => return .panicked p

/-- Answers every call by itself. -/
def reply (a : Answer) : Interceptor σ := fun _ _ => return .returned (.ok a)

/-- Runs the rest with a changed description of the call. -/
def changeInfo (f : CallInfo → CallInfo) : Interceptor σ := fun call rest => do
  return .returned (← rest { call with info := f call.info })

/-- Runs the rest once more, without messages, if it fails. -/
def retry : Interceptor σ := fun call rest => do
  match ← rest call with
  | .ok a => return .returned (.ok a)
  | .error _ => return .returned (← rest { call with inbound := [] })

/-- Puts another failure in place of the rest's. -/
def changeFailure (f : Status → Status) : Interceptor σ := fun call rest => do
  match ← rest call with
  | .ok a => return .returned (.ok a)
  | .error s => return .returned (.error (f s))

/-- Changes the streams of a call in both directions. -/
def streams (inward outward : StreamChange) : Interceptor σ := fun call rest => do
  match ← rest { call with inbound := inward.apply .sent call.inbound } with
  | .ok a => return .returned (.ok { a with stream := outward.apply .received a.stream })
  | .error s => return .returned (.error s)

/-- Notes every call and what the rest makes of it. -/
def record (name : Text) : Interceptor Surroundings := fun call rest => do
  modify (·.note [.called name call.info])
  let result ← rest call
  modify (·.note [match result with
    | .ok a => .answered name a.headers
    | .error s => .failed name s])
  return .returned result

end Interceptor

end InterceptingProxy
