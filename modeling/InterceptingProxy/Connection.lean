import InterceptingProxy.Stream

set_option autoImplicit false

/-! # Connections

A `Connection` is a byte stream inside any number of wrappers. A *tag* records where the client
meant to go and whether it came over TLS. A *peek buffer* holds bytes that were looked at and not
yet handed to a reader. Reading takes the buffered bytes first, outermost buffer first; what is
written is handed from wrapper to wrapper until it gets to the stream itself. The tags that count
are the outermost ones. -/

namespace InterceptingProxy

/-- Bytes that a peek or a replay holds back, and how many of them have gone to a reader. -/
structure PeekBuffer where
  bytes : Bytes := []
  position : Nat := 0
  deriving DecidableEq, Repr

namespace PeekBuffer

/-- The bytes that have not gone to a reader yet. -/
def rest (b : PeekBuffer) : Bytes := b.bytes.drop b.position

/-- Hands out at most `n` bytes. A buffer that is used up is let go of. -/
def take (n : Nat) (b : PeekBuffer) : Bytes × PeekBuffer :=
  let count := min (b.bytes.length - b.position) n
  let position := b.position + count
  (b.rest.take count,
    if position = b.bytes.length then {} else { b with position })

end PeekBuffer

/-- A byte stream inside its wrappers. -/
inductive Connection where
  /-- The stream itself, which knows no destination. -/
  | raw (stream : ByteStream)
  /-- A connection with the destination and TLS flag of the client. -/
  | tagged (inner : Connection) (destination : Option Text) (tls : Bool)
  /-- A connection with bytes that are read before it; `peeked` once a peek is no longer
      allowed. -/
  | peekable (inner : Connection) (peeked : Bool) (buffer : PeekBuffer)
  deriving DecidableEq, Repr

/-- Why a peek failed. -/
inductive PeekError where
  | alreadyPeeked
  /-- The connection ended before enough bytes arrived. -/
  | shortRead (wanted got : Nat)
  | io (error : IoError)
  deriving DecidableEq, Repr

namespace PeekError

/-- The wording of a failed peek. -/
def message : PeekError → Text
  | .alreadyPeeked => "have already peeked at this connection".toList
  | .shortRead wanted got =>
    "short read while peeking: wanted ".toList ++ Text.ofNat wanted ++ " bytes, got ".toList
      ++ Text.ofNat got
  | .io e => "peek failed: ".toList ++ e.message

/-- The failure as one of the stream: its own failures stay what they are. -/
def toIoError : PeekError → IoError
  | .io e => e
  | .shortRead wanted got => ⟨.unexpectedEof, message (.shortRead wanted got)⟩
  | .alreadyPeeked => ⟨.other, message .alreadyPeeked⟩

end PeekError

namespace Connection

/-! ## Wrapping -/

/-- Tags a connection; an empty destination is none. -/
def tag (inner : Connection) (destination : Option Text) (tls : Bool) : Connection :=
  .tagged inner (destination.filter (!·.isEmpty)) tls

/-- A connection made straight to the proxy's own address. -/
def direct (inner : Connection) : Connection := inner.tag none false

/-- A connection that may be peeked at once. -/
def forPeeking (inner : Connection) : Connection := .peekable inner false {}

/-- A connection that first replays bytes that someone else read from it. -/
def withPrefix (inner : Connection) (replayed : Bytes) : Connection :=
  .peekable inner true { bytes := replayed }

/-- The connection inside the outermost wrapper. -/
def unwrap : Connection → Connection
  | .raw s => .raw s
  | .tagged inner _ _ => inner
  | .peekable inner _ _ => inner

/-! ## Tags -/

/-- The `host:port` the client meant to reach; none for a connection made to the proxy itself. -/
def destination : Connection → Option Text
  | .raw _ => none
  | .tagged _ d _ => d
  | .peekable inner _ _ => inner.destination

/-- Whether the client came over TLS. -/
def isTls : Connection → Bool
  | .raw _ => false
  | .tagged _ _ tls => tls
  | .peekable inner _ _ => inner.isTls

/-! ## The stream inside -/

/-- The stream itself. -/
def stream : Connection → ByteStream
  | .raw s => s
  | .tagged inner _ _ => inner.stream
  | .peekable inner _ _ => inner.stream

/-- The same wrappers around a stream with another writing half. -/
def withSink (c : Connection) (sink : Sink) : Connection :=
  match c with
  | .raw s => .raw { s with sink }
  | .tagged inner d tls => .tagged (inner.withSink sink) d tls
  | .peekable inner peeked buffer => .peekable (inner.withSink sink) peeked buffer

/-- The bytes that the outermost wrapper holds back. -/
def buffered : Connection → Bytes
  | .peekable _ _ buffer => buffer.rest
  | _ => []

/-- The bytes that all wrappers hold back, in the order in which they are read. -/
def held : Connection → Bytes
  | .raw _ => []
  | .tagged inner _ _ => inner.held
  | .peekable inner _ buffer => buffer.rest ++ inner.held

/-! ## Reading -/

/-- One read into a buffer of `n` bytes. -/
def read (n : Nat) : Connection → Except IoError Bytes × Connection
  | .raw s =>
    let (result, source) := s.source.read n
    (result, .raw { s with source })
  | .tagged inner d tls =>
    let (result, inner) := inner.read n
    (result, .tagged inner d tls)
  | .peekable inner peeked buffer =>
    if buffer.position < buffer.bytes.length then
      let (bytes, buffer) := buffer.take n
      (.ok bytes, .peekable inner peeked buffer)
    else
      let (result, inner) := inner.read n
      (result, .peekable inner peeked buffer)

/-- Reads to the end: what was read, and the failure that stopped it. -/
def readAll : Connection → Bytes × Option IoError × Connection
  | .raw s =>
    let (bytes, failed, source) := s.source.readAll
    (bytes, failed, .raw { s with source })
  | .tagged inner d tls =>
    let (bytes, failed, inner) := inner.readAll
    (bytes, failed, .tagged inner d tls)
  | .peekable inner peeked buffer =>
    let (bytes, failed, inner) := inner.readAll
    (buffer.rest ++ bytes, failed, .peekable inner peeked {})

/-- How filling a buffer ended. -/
inductive Fill where
  | full
  | ended
  | failed (error : IoError)
  deriving DecidableEq, Repr

/-- Reads until `need` bytes are there, the connection ends or fails. Every read that goes on
    brings at least one byte, so `need` reads are enough; `reads` counts them down. -/
def fill (reads need : Nat) (c : Connection) : Bytes × Fill × Connection :=
  match reads, need with
  | _, 0 => ([], .full, c)
  | 0, _ => ([], .full, c)
  | reads + 1, need =>
    match c.read need with
    | (.error e, c) => ([], .failed e, c)
    | (.ok [], c) => ([], .ended, c)
    | (.ok bytes, c) =>
      let (more, outcome, c) := fill reads (need - bytes.length) c
      (bytes ++ more, outcome, c)

/-- Looks at exactly `n` bytes and tests them. The bytes stay in the buffer whatever comes of it.
    A wrapper allows one peek. -/
def peek (n : Nat) (test : Bytes → Bool) : Connection → Except PeekError Bool × Connection
  | .peekable inner false buffer =>
    let (bytes, outcome, inner) := inner.fill n n
    (match outcome with
      | .full => .ok (test bytes)
      | .ended => .error (.shortRead n bytes.length)
      | .failed e => .error (.io e),
      .peekable inner true { buffer with bytes })
  | c => (.error .alreadyPeeked, c)

/-! ## Writing -/

/-- An operation of the writing half: every wrapper hands it to the connection inside. -/
def onSink {α : Type} (f : Sink → α × Sink) : Connection → α × Connection
  | .raw s =>
    let (result, sink) := f s.sink
    (result, .raw { s with sink })
  | .tagged inner d tls =>
    let (result, inner) := inner.onSink f
    (result, .tagged inner d tls)
  | .peekable inner peeked buffer =>
    let (result, inner) := inner.onSink f
    (result, .peekable inner peeked buffer)

/-- One write. -/
def write (bytes : Bytes) : Connection → Except IoError Nat × Connection :=
  onSink (Sink.write bytes)

/-- Whether one write may take several slices: a tag asks the connection inside, a peek buffer
    never does. -/
def isVectored : Connection → Bool
  | .raw s => s.sink.vectored
  | .tagged inner _ _ => inner.isVectored
  | .peekable _ _ _ => false

/-- One write of several slices: a tag hands all of them on, a peek buffer only the first that is
    not empty. -/
def writeVectored (parts : List Bytes) : Connection → Except IoError Nat × Connection
  | .raw s =>
    let (result, sink) := s.sink.writeVectored parts
    (result, .raw { s with sink })
  | .tagged inner d tls =>
    let (result, inner) := inner.writeVectored parts
    (result, .tagged inner d tls)
  | c => c.write ((parts.find? (!·.isEmpty)).getD [])

/-- Writes until everything is taken; a write that takes nothing is a failure. `fuel` bounds the
    number of writes, each of which takes at least one byte. -/
def writeAllWithin (fuel : Nat) (bytes : Bytes) (c : Connection) :
    Except IoError Unit × Connection :=
  match fuel, bytes with
  | _, [] => (.ok (), c)
  | 0, _ => (.error .writeZero, c)
  | fuel + 1, bytes =>
    match c.write bytes with
    | (.error e, c) => (.error e, c)
    | (.ok 0, c) => (.error .writeZero, c)
    | (.ok n, c) => writeAllWithin fuel (bytes.drop n) c

/-- Writes all bytes. -/
def writeAll (bytes : Bytes) (c : Connection) : Except IoError Unit × Connection :=
  c.writeAllWithin (bytes.length + 1) bytes

/-- Passes buffered bytes on. -/
def flush : Connection → Except IoError Unit × Connection := onSink Sink.flush

/-- Ends the writing half. -/
def shutdown : Connection → Except IoError Unit × Connection := onSink Sink.shutdown

end Connection

end InterceptingProxy
