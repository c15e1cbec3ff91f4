import InterceptingProxy.IoError

set_option autoImplicit false

/-! # Byte streams

A `ByteStream` is the raw end of a connection as the proxy sees it. Its `Source` hands out chunks:
each read returns at most one chunk, or the part of it that fits, a failing chunk makes one read
fail, and after the last chunk comes the end. Its `Sink` accepts bytes under limits (so many per
write, so many in all) and records what it took and every write call, answered or failed. The two
halves do not know each other. -/

namespace InterceptingProxy

/-- What one read of a source can meet. -/
inductive Chunk where
  | data (bytes : Bytes)
  | failure (error : IoError)
  deriving DecidableEq, Repr

/-- The reading half: the chunks that are still to come. -/
structure Source where
  chunks : List Chunk := []
  deriving DecidableEq, Repr

namespace Source

/-- One read into a buffer of `n` bytes; no bytes mean the end, unless the buffer is empty. -/
def readChunks (n : Nat) : List Chunk → Except IoError Bytes × List Chunk
  | [] => (.ok [], [])
  | .failure e :: rest => (.error e, rest)
  | .data [] :: rest => readChunks n rest
  | .data bytes :: rest =>
    (.ok (bytes.take n),
      match bytes.drop n with
      | [] => rest
      | left => .data left :: rest)

/-- One read into a buffer of `n` bytes. A read into an empty buffer touches nothing. -/
def read (n : Nat) (s : Source) : Except IoError Bytes × Source :=
  if n = 0 then (.ok [], s)
  else
    let (result, chunks) := readChunks n s.chunks
    (result, ⟨chunks⟩)

/-- Everything up to the end, or up to a failure other than an interruption. -/
def readAllChunks : List Chunk → Bytes × Option IoError × List Chunk
  | [] => ([], none, [])
  | .data bytes :: rest =>
    let (more, failed, left) := readAllChunks rest
    (bytes ++ more, failed, left)
  | .failure e :: rest =>
    if e.kind = .interrupted then readAllChunks rest else ([], some e, rest)

/-- Reads to the end. The result is what was read, with the failure that stopped it. -/
def readAll (s : Source) : Bytes × Option IoError × Source :=
  let (bytes, failed, left) := readAllChunks s.chunks
  (bytes, failed, ⟨left⟩)

/-- The bytes before the end or the first failure. -/
def available : List Chunk → Bytes
  | .data bytes :: rest => bytes ++ available rest
  | _ => []

/-- The failure that comes before the end, if there is one. -/
def failure? : List Chunk → Option IoError
  | [] => none
  | .data _ :: rest => failure? rest
  | .failure e :: _ => some e

end Source

/-- What a write call comes to: how many bytes are taken, or why it fails. -/
inductive WriteAnswer where
  | took (count : Nat)
  | failed (error : IoError)
  deriving DecidableEq, Repr

/-- How many bytes were taken by a write that succeeded. -/
def WriteAnswer.count? : WriteAnswer → Option Nat
  | .took count => some count
  | .failed _ => none

/-- One write call: the slices that it was made with and the answer it got. -/
structure WriteCall where
  slices : List Bytes
  answer : WriteAnswer
  deriving DecidableEq, Repr

/-- The writing half: its limits, and what it has taken so far. -/
structure Sink where
  /-- Most bytes that one write takes. -/
  maxWrite : Option Nat := none
  /-- Most bytes that each of the next writes takes, where that is less. -/
  portions : List {n : Nat // 0 < n} := []
  /-- Most bytes taken in all, and the failure of every write after that. -/
  limit : Option (Nat × IoError) := none
  /-- The failure of every shutdown. -/
  shutdownError : Option IoError := none
  /-- Whether one write may take several slices. -/
  vectored : Bool := false
  written : Bytes := []
  /-- Every write call so far. -/
  writes : List WriteCall := []
  flushes : Nat := 0
  shutdowns : Nat := 0
  deriving DecidableEq, Repr

namespace Sink

/-- How many bytes each successful write took. -/
def calls (s : Sink) : List Nat := s.writes.filterMap (·.answer.count?)

/-- How many bytes of `n` the next write takes as long as the total is not limited. -/
def portion (s : Sink) (n : Nat) : Nat :=
  match s.maxWrite, s.portions with
  | some most, next :: _ => min n (min most next.val)
  | some most, [] => min n most
  | none, next :: _ => min n next.val
  | none, [] => n

/-- How many bytes of `n` the next write takes, or why it fails. -/
def accepts (s : Sink) (n : Nat) : Except IoError Nat :=
  let n := s.portion n
  match s.limit with
  | some (most, e) =>
    if most ≤ s.written.length then .error e else .ok (min n (most - s.written.length))
  | none => .ok n

/-- The sink once it has taken the first `n` bytes of what it is given. -/
def advance (s : Sink) (bytes : Bytes) (n : Nat) : Sink :=
  { s with
    written := s.written ++ bytes.take n
    portions := s.portions.tail }

/-- The sink with one more call on record. -/
def record (s : Sink) (slices : List Bytes) (answer : WriteAnswer) : Sink :=
  { s with writes := s.writes ++ [⟨slices, answer⟩] }

/-- One write call that offers `bytes` out of the slices that it is made with. -/
def offer (slices : List Bytes) (bytes : Bytes) (s : Sink) : Except IoError Nat × Sink :=
  match s.accepts bytes.length with
  | .error e => (.error e, s.record slices (.failed e))
  | .ok n => (.ok n, (s.advance bytes n).record slices (.took n))

/-- One write. -/
def write (bytes : Bytes) (s : Sink) : Except IoError Nat × Sink := s.offer [bytes] bytes

/-- One write of several slices: all of them joined, or only the first that is not empty. -/
def writeVectored (parts : List Bytes) (s : Sink) : Except IoError Nat × Sink :=
  s.offer parts (if s.vectored then parts.flatten else (parts.find? (!·.isEmpty)).getD [])

/-- Writes until everything is taken; a write that takes nothing is a failure. `fuel` bounds the
    number of writes, each of which takes at least one byte. -/
def writeAllWithin (fuel : Nat) (bytes : Bytes) (s : Sink) : Except IoError Unit × Sink :=
  match fuel, bytes with
  | _, [] => (.ok (), s)
  | 0, _ => (.error .writeZero, s)
  | fuel + 1, bytes =>
    match s.write bytes with
    | (.error e, s) => (.error e, s)
    | (.ok 0, s) => (.error .writeZero, s)
    | (.ok n, s) => writeAllWithin fuel (bytes.drop n) s

/-- Writes all bytes. -/
def writeAll (bytes : Bytes) (s : Sink) : Except IoError Unit × Sink :=
  writeAllWithin (bytes.length + 1) bytes s

/-- Passes buffered bytes on. -/
def flush (s : Sink) : Except IoError Unit × Sink := (.ok (), { s with flushes := s.flushes + 1 })

/-- Ends the writing half. -/
def shutdown (s : Sink) : Except IoError Unit × Sink :=
  (match s.shutdownError with
    | some e => .error e
    | none => .ok (),
    { s with shutdowns := s.shutdowns + 1 })

end Sink

/-- A stream that can be read and written. -/
structure ByteStream where
  source : Source := {}
  sink : Sink := {}
  deriving DecidableEq, Repr

end InterceptingProxy
