import InterceptingProxy.Call.Info

set_option autoImplicit false

/-! # Message streams and their isolation

The messages of a call travel in a stream that is polled. `MessageStream` lists what the polls
bring, one after the other; after the last one every poll says "end". A failure in the middle does
not end a stream, and neither does a panic: who polls on gets what comes next.

`guard` makes a stream safe to poll: the first panic becomes one failure, and after it the stream
has ended for ever. `Outcome.isolate` does the same for a whole call, so that a call that panics
fails, and nothing else. -/

namespace InterceptingProxy

/-- The payload of a panic. -/
inductive Panic where
  | literal (message : Text)
  | formatted (message : Text)
  /-- A payload that is no text. -/
  | other
  deriving DecidableEq, Repr

namespace Panic

/-- The text of a panic. -/
def message : Panic → Text
  | .literal m => m
  | .formatted m => m
  | .other => "unknown panic".toList

/-- The failure that a caller sees in place of a panic. -/
def toStatus (p : Panic) : Status := .internal ("proxy error: ".toList ++ p.message)

end Panic

/-- A message, or a failure in its place. -/
abbrev Item := Except Status Bytes

/-- Something an interceptor notes down while a call goes on. -/
inductive Entry where
  /-- A call was seen by the interceptor of the given name. -/
  | called (name : Text) (info : CallInfo)
  /-- The rest of the chain answered with these headers. -/
  | answered (name : Text) (headers : Headers)
  /-- The rest of the chain failed. -/
  | failed (name : Text) (status : Status)
  /-- An item on the way to the destination. -/
  | sent (item : Item)
  /-- An item on the way to the caller. -/
  | received (item : Item)

/-- What a poll brings. A `note` is made on the way: the same poll goes on after it. -/
inductive Poll where
  | item (i : Item)
  | panic (p : Panic)
  | note (e : Entry)

/-- What the polls of a stream bring, in order. -/
abbrev MessageStream := List Poll

namespace MessageStream

/-- A stream of messages that ends well. -/
def ofMessages (messages : List Bytes) : MessageStream := messages.map fun m => .item (.ok m)

/-- A stream of items. -/
def ofItems (items : List Item) : MessageStream := items.map .item

/-- A panic becomes one failure, after which the stream has ended. -/
def guard : MessageStream → MessageStream
  | [] => []
  | .panic p :: _ => [.item (.error p.toStatus)]
  | poll :: rest => poll :: guard rest

/-- The items of a stream, one per poll, up to its end or the first panic. -/
def items : MessageStream → List Item
  | [] => []
  | .item i :: rest => i :: items rest
  | .note _ :: rest => items rest
  | .panic _ :: _ => []

/-- What is noted down by polls that bring the first `n` items, or by all polls if there are fewer
    items than that. The notes behind the last item belong to the poll that says "end". -/
def notes : Nat → MessageStream → List Entry
  | _, [] => []
  | 0, _ => []
  | n + 1, .item _ :: rest => notes n rest
  | n + 1, .panic _ :: rest => notes n rest
  | n + 1, .note e :: rest => e :: notes (n + 1) rest

/-- Everything noted down while a stream is read to its end. -/
def allNotes : MessageStream → List Entry
  | [] => []
  | .note e :: rest => e :: allNotes rest
  | _ :: rest => allNotes rest

end MessageStream

/-- The answer to a call: its headers and the stream of its messages. -/
structure Answer where
  headers : Headers := {}
  stream : MessageStream := []

/-- What a call comes to: an answer, or a failure. -/
abbrev CallResult := Except Status Answer

/-- What becomes of a call that may panic. -/
inductive Outcome where
  | returned (result : CallResult)
  | panicked (p : Panic)

/-- Turns a panic of a call, and a panic of the stream it answers with, into a failure. -/
def Outcome.isolate : Outcome → CallResult
  | .returned (.ok a) => .ok { a with stream := a.stream.guard }
  | .returned (.error s) => .error s
  | .panicked p => .error p.toStatus

end InterceptingProxy
