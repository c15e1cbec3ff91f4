import InterceptingProxy.Connection

set_option autoImplicit false

/-! # Raw relay

Passes bytes between two connections in both directions until both have ended. The end of one side
shuts the writing half of the other; so does a read failure, which is then reported. A write failure
ends its direction at once. The directions do not influence each other: each uses the reading half
of one stream and the writing half of the other. -/

namespace InterceptingProxy.Relay

/-- Most bytes passed on at once. -/
def bufferSize : Nat := 8192

/-- Copies `reader` to `writer`, up to `rounds` reads; the result is the number of bytes copied. -/
def copyWithin (rounds : Nat) (reader : Connection) (writer : Sink) (total : Nat) :
    Except IoError Nat × Connection × Sink :=
  match rounds with
  | 0 => (.ok total, reader, writer)
  | rounds + 1 =>
    match reader.read bufferSize with
    | (.error e, reader) => (.error e, reader, writer.shutdown.2)
    | (.ok [], reader) =>
      match writer.shutdown with
      | (.ok (), writer) => (.ok total, reader, writer)
      | (.error e, writer) => (.error e, reader, writer)
    | (.ok bytes, reader) =>
      match writer.writeAll bytes with
      | (.ok (), writer) => copyWithin rounds reader writer (total + bytes.length)
      | (.error e, writer) => (.error e, reader, writer)

/-- A bound on the reads that empty a connection: one for each byte and each chunk, and the end. -/
def readBound (c : Connection) : Nat :=
  let sizes := c.stream.source.chunks.map fun
    | .data bytes => bytes.length + 1
    | .failure _ => 1
  c.held.length + sizes.foldl (· + ·) 0 + 1

/-- Copies one direction to its end. -/
def copy (reader : Connection) (writer : Sink) : Except IoError Nat × Connection × Sink :=
  copyWithin (readBound reader) reader writer 0

/-- What a finished relay reports: the bytes passed each way. -/
structure Counts where
  aToB : Nat
  bToA : Nat
  deriving DecidableEq, Repr

/-- What the ends of both directions come to. A failure of the first direction is reported before
    one of the second. -/
def outcome (forth back : Except IoError Nat) : Except IoError Counts :=
  match forth, back with
  | .ok aToB, .ok bToA => .ok ⟨aToB, bToA⟩
  | .error e, _ => .error e
  | _, .error e => .error e

/-- Runs both directions to their ends. -/
def run (a b : Connection) : Except IoError Counts × Connection × Connection :=
  let (forth, a', bSink) := copy a b.stream.sink
  let (back, b', aSink) := copy b a.stream.sink
  (outcome forth back, a'.withSink aSink, b'.withSink bSink)

end InterceptingProxy.Relay
