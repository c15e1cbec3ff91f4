import Mathlib.Tactic.Common
import InterceptingProxy.Connection

set_option autoImplicit false

/-! # Peeking keeps every byte

What a reader gets from a connection is what its wrappers hold back, outermost first, and then what
the stream inside has not been asked for yet (`Connection.remaining`). A read takes its bytes off
the front of that and leaves the rest (`Connection.read_handed_append_remaining`); a peek only moves
bytes from the stream inside into the buffer outside, so it leaves all of it
(`Connection.peek_remaining`). The second fact needs that a wrapper which may still be peeked at has
an empty buffer, because a peek overwrites the buffer. `Connection.Sound` says so for every wrapper
of a stack, and every operation keeps it.

`PeekSession` follows one connection through any number of peeks, reads and new wrappers, together
with the stream that its reader is to see. The main statement is
`PeekSession.run_keeps_every_byte`. -/

namespace InterceptingProxy

/-! ## What is still to be read -/

/-- The bytes of a chunk. -/
def Chunk.bytes : Chunk → Bytes
  | .data bytes => bytes
  | .failure _ => []

/-- The bytes that a source has not handed out. Failures between them take none away. -/
def Source.unread (s : Source) : Bytes := s.chunks.flatMap Chunk.bytes

/-- The bytes that a read hands out. -/
def handedOut (result : Except IoError Bytes) : Bytes := result.toOption.getD []

@[simp] theorem handedOut_ok (bytes : Bytes) : handedOut (.ok bytes) = bytes := rfl

@[simp] theorem handedOut_error (e : IoError) : handedOut (.error e) = [] := rfl

theorem Source.readChunks_handed_append (n : Nat) (chunks : List Chunk) :
    handedOut (readChunks n chunks).1 ++ (readChunks n chunks).2.flatMap Chunk.bytes
      = chunks.flatMap Chunk.bytes := by
  fun_induction readChunks n chunks with
  | case1 => rfl
  | case2 e rest => simp [Chunk.bytes]
  | case3 rest ih => simpa [Chunk.bytes] using ih
  | case4 bytes rest hne =>
      have hsplit : bytes.take n ++ bytes.drop n = bytes := List.take_append_drop n bytes
      cases hleft : bytes.drop n with
      | nil =>
          rw [hleft, List.append_nil] at hsplit
          simp [Chunk.bytes, hsplit]
      | cons b left =>
          rw [hleft] at hsplit
          simp only [handedOut_ok, List.flatMap_cons, Chunk.bytes]
          rw [← List.append_assoc, hsplit]

theorem Source.read_handed_append (n : Nat) (s : Source) :
    handedOut (s.read n).1 ++ (s.read n).2.unread = s.unread := by
  unfold Source.read
  split
  · rfl
  · exact Source.readChunks_handed_append n s.chunks

namespace Connection

/-- Everything that a reader of a connection has not got yet, in the order in which it will. -/
def remaining (c : Connection) : Bytes := c.held ++ c.stream.source.unread

@[simp] theorem remaining_raw (s : ByteStream) : (Connection.raw s).remaining = s.source.unread :=
  rfl

@[simp] theorem remaining_tagged (inner : Connection) (d : Option Text) (tls : Bool) :
    (Connection.tagged inner d tls).remaining = inner.remaining := rfl

@[simp] theorem remaining_peekable (inner : Connection) (peeked : Bool) (buffer : PeekBuffer) :
    (Connection.peekable inner peeked buffer).remaining = buffer.rest ++ inner.remaining :=
  List.append_assoc ..

end Connection

/-! ## Buffers -/

namespace PeekBuffer

theorem rest_eq_nil_iff (b : PeekBuffer) : b.rest = [] ↔ ¬ b.position < b.bytes.length := by
  rw [rest, List.drop_eq_nil_iff, Nat.not_lt]

/-- What a buffer hands out are the first of its bytes, as many as fit. -/
theorem take_fst (n : Nat) (b : PeekBuffer) : (b.take n).1 = b.rest.take n := by
  simp only [take]
  exact List.take_eq_take_iff.2 (by simp [rest]; omega)

/-- After handing out, a buffer holds the others. -/
theorem take_snd_rest (n : Nat) (b : PeekBuffer) : (b.take n).2.rest = b.rest.drop n := by
  have hcount : b.rest.drop n = b.rest.drop (min (b.bytes.length - b.position) n) :=
    List.drop_eq_drop_iff.2 (by simp [rest]; omega)
  rw [hcount]
  simp only [take]
  -- a buffer that is used up is put away
  split
  · next hend =>
      simp only [rest, List.drop_drop]
      exact (List.drop_eq_nil_of_le (Nat.le_of_eq hend.symm)).symm
  · simp only [rest, List.drop_drop]

end PeekBuffer

/-! ## Stacks of wrappers -/

namespace Connection

/-- Every wrapper has handed out at most what it holds, and one that may still be peeked at holds
    nothing. -/
def Sound : Connection → Prop
  | .raw _ => True
  | .tagged inner _ _ => inner.Sound
  | .peekable inner peeked buffer =>
    inner.Sound ∧ buffer.position ≤ buffer.bytes.length ∧ (peeked = false → buffer = {})

theorem sound_take (n : Nat) (b : PeekBuffer) (h : b.position ≤ b.bytes.length) :
    (b.take n).2.position ≤ (b.take n).2.bytes.length := by
  simp only [PeekBuffer.take]
  split
  · exact Nat.le_refl _
  · simp only
    omega

/-- A read takes its bytes off the front of what remains. -/
theorem read_handed_append_remaining (n : Nat) (c : Connection) :
    handedOut (c.read n).1 ++ (c.read n).2.remaining = c.remaining := by
  induction c with
  | raw s => simpa [Connection.read] using s.source.read_handed_append n
  | tagged inner d tls ih => simpa [Connection.read] using ih
  | peekable inner peeked buffer ih =>
      rw [Connection.read]
      split
      · simp only [handedOut_ok, remaining_peekable]
        rw [PeekBuffer.take_fst, PeekBuffer.take_snd_rest, ← List.append_assoc,
          List.take_append_drop]
      · next hused =>
          have hempty : buffer.rest = [] := buffer.rest_eq_nil_iff.2 hused
          simpa [hempty] using ih

theorem read_sound (n : Nat) (c : Connection) (h : c.Sound) : (c.read n).2.Sound := by
  induction c with
  | raw s => trivial
  | tagged inner d tls ih => exact ih h
  | peekable inner peeked buffer ih =>
      obtain ⟨hinner, hposition, hunpeeked⟩ := h
      rw [Connection.read]
      split
      · next hleft =>
          refine ⟨hinner, sound_take n buffer hposition, fun hp => ?_⟩
          -- a wrapper with something left in its buffer has been peeked at
          rw [hunpeeked hp] at hleft
          exact absurd hleft (Nat.lt_irrefl 0)
      · exact ⟨ih hinner, hposition, hunpeeked⟩

/-! ## Peeking -/

theorem fill_append_remaining (reads need : Nat) (c : Connection) :
    (c.fill reads need).1 ++ (c.fill reads need).2.2.remaining = c.remaining := by
  fun_induction Connection.fill reads need c with
  | case1 => rfl
  | case2 => rfl
  | case3 c reads need hneed e c' hread =>
      simpa [hread] using read_handed_append_remaining need c
  | case4 c reads need hneed c' hread =>
      simpa [hread] using read_handed_append_remaining need c
  | case5 c reads need hneed bytes c' hbytes hread more outcome c'' hfill ih =>
      rw [hfill] at ih
      rw [List.append_assoc, ih]
      simpa [hread] using read_handed_append_remaining need c

theorem fill_sound (reads need : Nat) (c : Connection) (h : c.Sound) :
    (c.fill reads need).2.2.Sound := by
  fun_induction Connection.fill reads need c with
  | case1 => exact h
  | case2 => exact h
  | case3 c reads need hneed e c' hread => simpa [hread] using read_sound need c h
  | case4 c reads need hneed c' hread => simpa [hread] using read_sound need c h
  | case5 c reads need hneed bytes c' hbytes hread more outcome c'' hfill ih =>
      rw [hfill] at ih
      exact ih (by simpa [hread] using read_sound need c h)

/-- A peek moves bytes from the connection inside to the buffer, and no others. -/
theorem peek_remaining (n : Nat) (test : Bytes → Bool) (c : Connection) (h : c.Sound) :
    (c.peek n test).2.remaining = c.remaining := by
  match c, h with
  | .raw s, _ => rfl
  | .tagged inner d tls, _ => rfl
  | .peekable inner true buffer, _ => rfl
  | .peekable inner false buffer, ⟨_, _, hunpeeked⟩ =>
      -- the buffer is empty, so what it is filled with comes first
      obtain rfl := hunpeeked rfl
      simp only [Connection.peek, remaining_peekable, PeekBuffer.rest, List.drop_zero,
        List.nil_append]
      exact fill_append_remaining n n inner

theorem peek_sound (n : Nat) (test : Bytes → Bool) (c : Connection) (h : c.Sound) :
    (c.peek n test).2.Sound := by
  match c, h with
  | .raw s, h => exact h
  | .tagged inner d tls, h => exact h
  | .peekable inner true buffer, h => exact h
  | .peekable inner false buffer, ⟨hinner, _, hunpeeked⟩ =>
      obtain rfl := hunpeeked rfl
      exact ⟨fill_sound n n inner hinner, Nat.zero_le _, fun hp => Bool.noConfusion hp⟩

/-! ## The outermost buffer -/

/-- A read hands out what the outermost buffer holds before anything else. -/
theorem read_buffered (n : Nat) (c : Connection) :
    (c.read n).2.buffered = c.buffered.drop (handedOut (c.read n).1).length := by
  match c with
  | .raw s => simp [Connection.read, buffered]
  | .tagged inner d tls => simp [Connection.read, buffered]
  | .peekable inner peeked buffer =>
      rw [Connection.read]
      split
      · simp only [buffered, handedOut_ok, PeekBuffer.take_fst, PeekBuffer.take_snd_rest]
        exact List.drop_eq_drop_iff.2 (by simp)
      · next hused =>
          have hempty : buffer.rest = [] := buffer.rest_eq_nil_iff.2 hused
          simp [buffered, hempty]

/-- The bytes that `before` had and `after` has no longer. -/
def taken (before after : Connection) : Bytes :=
  before.remaining.take (before.remaining.length - after.remaining.length)

/-- A peek leaves in the outermost buffer what it took from the connection inside. -/
theorem peek_buffered (n : Nat) (test : Bytes → Bool) (c : Connection) (h : c.Sound) :
    (c.peek n test).2.buffered = c.buffered ++ taken c.unwrap (c.peek n test).2.unwrap := by
  match c, h with
  | .raw s, _ => simp [Connection.peek, taken]
  | .tagged inner d tls, _ => simp [Connection.peek, taken]
  | .peekable inner true buffer, _ => simp [Connection.peek, taken]
  | .peekable inner false buffer, ⟨_, _, hunpeeked⟩ =>
      obtain rfl := hunpeeked rfl
      have hfill := fill_append_remaining n n inner
      simp only [Connection.peek, buffered, unwrap, taken, PeekBuffer.rest, List.drop_zero,
        List.nil_append]
      rw [← hfill]
      simp

end Connection

/-! ## Sessions -/

/-- What the owner of a connection may do with it. -/
inductive PeekStep where
  | peek (n : Nat) (test : Bytes → Bool)
  /-- One read into a buffer of `n` bytes. -/
  | read (n : Nat)
  | wrap
  | wrapPrefix (replayed : Bytes)
  | tag (destination : Option Text) (tls : Bool)

/-- A connection in use, with what its reader got and is to get. `own` are the bytes that entered
    the outermost buffer and `delivered` says how many of them went to the reader. -/
structure PeekSession where
  connection : Connection
  handed : Bytes := []
  expected : Bytes
  own : Bytes := []
  delivered : Nat := 0

namespace PeekSession

/-- A stream that nothing wraps yet: its reader is to get what it has. -/
def start (stream : ByteStream) : PeekSession :=
  { connection := .raw stream, expected := stream.source.unread }

/-- Only a prefix changes what the reader is to get: it comes at the reader's position. -/
def step (s : PeekSession) : PeekStep → PeekSession
  | .peek n test =>
    let after := (s.connection.peek n test).2
    { s with
      connection := after
      own := s.own ++ Connection.taken s.connection.unwrap after.unwrap }
  | .read n =>
    let (result, after) := s.connection.read n
    { s with
      connection := after
      handed := s.handed ++ handedOut result
      delivered := min s.own.length (s.delivered + (handedOut result).length) }
  | .wrap => { s with connection := s.connection.forPeeking, own := [], delivered := 0 }
  | .wrapPrefix replayed =>
    { connection := s.connection.withPrefix replayed
      handed := s.handed
      expected :=
        s.expected.take s.handed.length ++ replayed ++ s.expected.drop s.handed.length
      own := replayed
      delivered := 0 }
  | .tag destination tls =>
    { s with connection := s.connection.tag destination tls, own := [], delivered := 0 }

def run (s : PeekSession) (steps : List PeekStep) : PeekSession := steps.foldl step s

/-- What every step of a session keeps. -/
structure Exact (s : PeekSession) : Prop where
  sound : s.connection.Sound
  stream : s.handed ++ s.connection.remaining = s.expected
  buffered : s.connection.buffered = s.own.drop s.delivered
  delivered_le : s.delivered ≤ s.own.length

theorem start_exact (stream : ByteStream) : (start stream).Exact where
  sound := trivial
  stream := rfl
  buffered := rfl
  delivered_le := Nat.le_refl 0

theorem Exact.peek {s : PeekSession} (h : s.Exact) (n : Nat) (test : Bytes → Bool) :
    (s.step (.peek n test)).Exact where
  sound := Connection.peek_sound n test s.connection h.sound
  stream := by
    simp only [step]
    rw [Connection.peek_remaining n test s.connection h.sound]
    exact h.stream
  buffered := by
    simp only [step]
    rw [Connection.peek_buffered n test s.connection h.sound, h.buffered,
      List.drop_append_of_le_length h.delivered_le]
  delivered_le := by
    simp only [step, List.length_append]
    exact Nat.le_add_right_of_le h.delivered_le

theorem Exact.read {s : PeekSession} (h : s.Exact) (n : Nat) : (s.step (.read n)).Exact where
  sound := Connection.read_sound n s.connection h.sound
  stream := by
    simp only [step]
    rw [List.append_assoc, Connection.read_handed_append_remaining]
    exact h.stream
  buffered := by
    simp only [step]
    rw [Connection.read_buffered, h.buffered, List.drop_drop]
    exact List.drop_eq_drop_iff.2 (by omega)
  delivered_le := Nat.min_le_left ..

theorem Exact.wrap {s : PeekSession} (h : s.Exact) : (s.step .wrap).Exact where
  sound := ⟨h.sound, Nat.le_refl 0, fun _ => rfl⟩
  stream := h.stream
  buffered := rfl
  delivered_le := Nat.le_refl 0

theorem Exact.wrapPrefix {s : PeekSession} (h : s.Exact) (replayed : Bytes) :
    (s.step (.wrapPrefix replayed)).Exact where
  sound := ⟨h.sound, Nat.zero_le _, fun hp => Bool.noConfusion hp⟩
  stream := by
    simp only [step, Connection.withPrefix, Connection.remaining_peekable, PeekBuffer.rest,
      List.drop_zero]
    rw [← h.stream, List.take_left, List.drop_left, List.append_assoc]
  buffered := rfl
  delivered_le := Nat.zero_le _

theorem Exact.tag {s : PeekSession} (h : s.Exact) (destination : Option Text) (tls : Bool) :
    (s.step (.tag destination tls)).Exact where
  sound := h.sound
  stream := h.stream
  buffered := rfl
  delivered_le := Nat.le_refl 0

theorem Exact.step {s : PeekSession} (h : s.Exact) (e : PeekStep) : (s.step e).Exact := by
  cases e with
  | peek n test => exact h.peek n test
  | read n => exact h.read n
  | wrap => exact h.wrap
  | wrapPrefix replayed => exact h.wrapPrefix replayed
  | tag destination tls => exact h.tag destination tls

theorem Exact.run {s : PeekSession} (h : s.Exact) (steps : List PeekStep) :
    (s.run steps).Exact := by
  induction steps generalizing s with
  | nil => exact h
  | cons e rest ih => exact ih (h.step e)

/-- **No byte is lost, doubled or moved.** Whatever is done with a connection, what its reader got,
    then what its wrappers hold back from the outermost inwards, then what the stream still has is
    what the reader is to get; and the outermost buffer holds what entered it, less what the reader
    got of that. -/
theorem run_keeps_every_byte (stream : ByteStream) (steps : List PeekStep) :
    let s := (start stream).run steps
    s.handed ++ s.connection.held ++ s.connection.stream.source.unread = s.expected ∧
      s.connection.buffered = s.own.drop s.delivered := by
  have h : ((start stream).run steps).Exact := (start_exact stream).run steps
  refine ⟨?_, h.buffered⟩
  rw [List.append_assoc]
  exact h.stream

end PeekSession

end InterceptingProxy
