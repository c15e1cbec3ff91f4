import Mathlib.Tactic.Common
import InterceptingProxy.Connection

set_option autoImplicit false

/-! # Wrappers are transparent for writing

What is done with the writing half is handed from wrapper to wrapper, so in the end it is done with
the writing half of the stream inside, and nothing else changes (`Connection.onSink_eq`). Reads and
peeks do not depend on the writing half and leave it alone (`Connection.read_withSink`,
`Connection.peek_withSink`). So whatever is done with a connection falls into two sides that know
nothing of each other: `wrappers_are_transparent` is the main statement. A write of several slices
gets to the stream as it is only if no wrapper is a peek buffer (`Connection.OnlyTags`). -/

namespace InterceptingProxy

namespace Connection

/-! ## The writing half -/

@[simp] theorem stream_withSink (c : Connection) (s : Sink) :
    (c.withSink s).stream = { c.stream with sink := s } := by
  induction c with
  | raw stream => rfl
  | tagged inner d tls ih => exact ih
  | peekable inner peeked buffer ih => exact ih

@[simp] theorem withSink_withSink (c : Connection) (s s' : Sink) :
    (c.withSink s).withSink s' = c.withSink s' := by
  induction c with
  | raw stream => rfl
  | tagged inner d tls ih => simp only [withSink, ih]
  | peekable inner peeked buffer ih => simp only [withSink, ih]

@[simp] theorem withSink_self (c : Connection) : c.withSink c.stream.sink = c := by
  induction c with
  | raw stream => rfl
  | tagged inner d tls ih => simp only [withSink, stream, ih]
  | peekable inner peeked buffer ih => simp only [withSink, stream, ih]

/-- What the wrappers hand on from one to the next is done with the stream. -/
theorem onSink_eq {α : Type} (f : Sink → α × Sink) (c : Connection) :
    c.onSink f = ((f c.stream.sink).1, c.withSink (f c.stream.sink).2) := by
  induction c with
  | raw stream => rfl
  | tagged inner d tls ih => simp only [onSink, ih, withSink, stream]
  | peekable inner peeked buffer ih => simp only [onSink, ih, withSink, stream]

theorem writeAllWithin_eq (fuel : Nat) (bytes : Bytes) (c : Connection) :
    c.writeAllWithin fuel bytes = c.onSink (Sink.writeAllWithin fuel bytes) := by
  rw [onSink_eq]
  induction fuel generalizing bytes c with
  | zero => cases bytes <;> simp [writeAllWithin, Sink.writeAllWithin]
  | succ fuel ih =>
      cases bytes with
      | nil => simp [writeAllWithin, Sink.writeAllWithin]
      | cons b rest =>
          rw [writeAllWithin, Sink.writeAllWithin, write, onSink_eq]
          · rcases c.stream.sink.write (b :: rest) with ⟨e | n, sink⟩
            · rfl
            · cases n with
              | zero => rfl
              | succ n => simp [ih]
          · simp
          · simp

/-- Writing everything through the wrappers is writing everything to the stream. -/
theorem writeAll_eq (bytes : Bytes) (c : Connection) :
    c.writeAll bytes = c.onSink (Sink.writeAll bytes) :=
  writeAllWithin_eq (bytes.length + 1) bytes c

/-! ## The reading half -/

/-- A read leaves the writing half alone, and does not depend on it. -/
theorem read_withSink (n : Nat) (c : Connection) (s : Sink) :
    (c.withSink s).read n = ((c.read n).1, (c.read n).2.withSink s) := by
  induction c with
  | raw stream => rfl
  | tagged inner d tls ih => simp only [withSink, read, ih]
  | peekable inner peeked buffer ih =>
      simp only [withSink, read, ih]
      split <;> rfl

theorem fill_withSink (reads need : Nat) (c : Connection) (s : Sink) :
    (c.withSink s).fill reads need =
      ((c.fill reads need).1, (c.fill reads need).2.1, (c.fill reads need).2.2.withSink s) := by
  induction reads generalizing need c with
  | zero => cases need <;> rfl
  | succ reads ih =>
      cases need with
      | zero => rfl
      | succ need =>
          rw [fill, fill, read_withSink]
          · rcases c.read (need + 1) with ⟨e | bytes, c'⟩
            · rfl
            · cases bytes with
              | nil => rfl
              | cons b rest => simp only [ih]
          · exact Nat.succ_ne_zero need
          · exact Nat.succ_ne_zero need

/-- A peek leaves the writing half alone, and does not depend on it. -/
theorem peek_withSink (n : Nat) (test : Bytes → Bool) (c : Connection) (s : Sink) :
    (c.withSink s).peek n test = ((c.peek n test).1, (c.peek n test).2.withSink s) := by
  match c with
  | .raw stream => rfl
  | .tagged inner d tls => rfl
  | .peekable inner true buffer => rfl
  | .peekable inner false buffer => simp only [withSink, peek, fill_withSink]

/-! ## Stacks of tags -/

/-- A stream inside tags, the first of them outermost. -/
def taggedWith (stream : ByteStream) : List (Option Text × Bool) → Connection
  | [] => .raw stream
  | (destination, tls) :: tags => (taggedWith stream tags).tag destination tls

/-- No wrapper is a peek buffer. -/
def OnlyTags : Connection → Prop
  | .raw _ => True
  | .tagged inner _ _ => inner.OnlyTags
  | .peekable _ _ _ => False

theorem onlyTags_taggedWith (stream : ByteStream) (tags : List (Option Text × Bool)) :
    (taggedWith stream tags).OnlyTags := by
  induction tags with
  | nil => trivial
  | cons tag tags ih => exact ih

theorem stream_taggedWith (stream : ByteStream) (tags : List (Option Text × Bool)) :
    (taggedWith stream tags).stream = stream := by
  induction tags with
  | nil => rfl
  | cons tag tags ih => exact ih

namespace OnlyTags

variable {c : Connection}

theorem withSink (h : c.OnlyTags) (s : Sink) : (c.withSink s).OnlyTags := by
  induction c with
  | raw stream => trivial
  | tagged inner d tls ih => exact ih h
  | peekable inner peeked buffer ih => cases h

theorem peek (h : c.OnlyTags) (n : Nat) (test : Bytes → Bool) : (c.peek n test).2.OnlyTags := by
  cases c with
  | raw stream => trivial
  | tagged inner d tls => exact h
  | peekable inner peeked buffer => cases h

theorem unwrap (h : c.OnlyTags) : c.unwrap.OnlyTags := by
  cases c with
  | raw stream => trivial
  | tagged inner d tls => exact h
  | peekable inner peeked buffer => cases h

theorem read (h : c.OnlyTags) (n : Nat) : (c.read n).2.OnlyTags := by
  induction c with
  | raw stream => trivial
  | tagged inner d tls ih => exact ih h
  | peekable inner peeked buffer ih => cases h

/-- Tags hand several slices on as they are. -/
theorem writeVectored (h : c.OnlyTags) (parts : List Bytes) :
    c.writeVectored parts = c.onSink (Sink.writeVectored parts) := by
  induction c with
  | raw stream => rfl
  | tagged inner d tls ih => simp only [Connection.writeVectored, onSink, ih h]
  | peekable inner peeked buffer ih => cases h

end OnlyTags

end Connection

/-! ## The steps of two sides -/

section Sides

variable {σ τ υ α β γ δ : Type}

/-- Takes steps one after the other, and lists what they return. -/
def runSteps (step : α → σ → β × σ) : List α → σ → List β × σ
  | [], s => ([], s)
  | a :: rest, s =>
    let (result, s) := step a s
    let (results, s) := runSteps step rest s
    (result :: results, s)

/-- A step of one side or of the other. -/
def eitherStep (left : α → σ → β × σ) (right : γ → σ → δ × σ) : α ⊕ γ → σ → (β ⊕ δ) × σ
  | .inl a, s => (left a s).map .inl id
  | .inr c, s => (right c s).map .inr id

/-- If steps of each side are what they are without the other side, and leave the other side alone,
    then so are all steps of that side, however the two are mixed. `made s t u` says that `s` has
    the sides `t` and `u`. -/
theorem runSteps_eitherStep {left : α → σ → β × σ} {right : γ → σ → δ × σ}
    {leftAlone : α → τ → β × τ} {rightAlone : γ → υ → δ × υ} (made : σ → τ → υ → Prop)
    (hleft : ∀ a s t u, made s t u →
      (left a s).1 = (leftAlone a t).1 ∧ made (left a s).2 (leftAlone a t).2 u)
    (hright : ∀ c s t u, made s t u →
      (right c s).1 = (rightAlone c u).1 ∧ made (right c s).2 t (rightAlone c u).2)
    (steps : List (α ⊕ γ)) {s : σ} {t : τ} {u : υ} (h : made s t u) :
    let both := runSteps (eitherStep left right) steps s
    let lefts := runSteps leftAlone (steps.filterMap Sum.getLeft?) t
    let rights := runSteps rightAlone (steps.filterMap Sum.getRight?) u
    both.1.filterMap Sum.getLeft? = lefts.1 ∧ both.1.filterMap Sum.getRight? = rights.1 ∧
      made both.2 lefts.2 rights.2 := by
  induction steps generalizing s t u with
  | nil => exact ⟨rfl, rfl, h⟩
  | cons step rest ih =>
      cases step with
      | inl a =>
          obtain ⟨hresult, hmade⟩ := hleft a s t u h
          obtain ⟨hlefts, hrights, hlast⟩ := ih hmade
          refine ⟨?_, hrights, hlast⟩
          exact List.cons_eq_cons.2 ⟨hresult, hlefts⟩
      | inr c =>
          obtain ⟨hresult, hmade⟩ := hright c s t u h
          obtain ⟨hlefts, hrights, hlast⟩ := ih hmade
          refine ⟨hlefts, ?_, hlast⟩
          exact List.cons_eq_cons.2 ⟨hresult, hrights⟩

end Sides

/-! ## Writing and reading -/

/-- What can be done with the writing half. -/
inductive WriteStep where
  | write (bytes : Bytes)
  | writeAll (bytes : Bytes)
  | flush
  | shutdown

/-- The answer of the writing half: how much it took, or only whether all went well. -/
inductive WriteResult where
  | took (result : Except IoError Nat)
  | done (result : Except IoError Unit)

/-- What can be done with the reading half. -/
inductive ReadStep where
  | peek (n : Nat) (test : Bytes → Bool)
  /-- One read into a buffer of `n` bytes. -/
  | read (n : Nat)

/-- The answer of the reading half. -/
inductive ReadResult where
  | matched (result : Except PeekError Bool)
  | handed (result : Except IoError Bytes)

/-- A step of the writing half that may also be a write of several slices. -/
inductive SliceStep where
  | writeVectored (parts : List Bytes)
  | other (step : WriteStep)

/-- What can be done with the reading half and the tags of a tagged stream. -/
inductive TagStep where
  | read (step : ReadStep)
  | tag (destination : Option Text) (tls : Bool)
  | unwrap

namespace WriteStep

/-- A step on a bare stream. -/
def onSink : WriteStep → Sink → WriteResult × Sink
  | .write bytes, s => (s.write bytes).map .took id
  | .writeAll bytes, s => (s.writeAll bytes).map .done id
  | .flush, s => s.flush.map .done id
  | .shutdown, s => s.shutdown.map .done id

/-- A step on a stream inside its wrappers. -/
def onConnection : WriteStep → Connection → WriteResult × Connection
  | .write bytes, c => (c.write bytes).map .took id
  | .writeAll bytes, c => (c.writeAll bytes).map .done id
  | .flush, c => c.flush.map .done id
  | .shutdown, c => c.shutdown.map .done id

end WriteStep

namespace SliceStep

def onSink : SliceStep → Sink → WriteResult × Sink
  | .writeVectored parts, s => (s.writeVectored parts).map .took id
  | .other step, s => step.onSink s

def onConnection : SliceStep → Connection → WriteResult × Connection
  | .writeVectored parts, c => (c.writeVectored parts).map .took id
  | .other step, c => step.onConnection c

end SliceStep

def ReadStep.onConnection : ReadStep → Connection → ReadResult × Connection
  | .peek n test, c => (c.peek n test).map .matched id
  | .read n, c => (c.read n).map .handed id

/-- Only a read or a peek has an answer. -/
def TagStep.onConnection : TagStep → Connection → Option ReadResult × Connection
  | .read step, c => (step.onConnection c).map some id
  | .tag destination tls, c => (none, c.tag destination tls)
  | .unwrap, c => (none, c.unwrap)

/-- A step on the writing half is the step on the stream inside. -/
theorem WriteStep.onConnection_eq (step : WriteStep) (c : Connection) :
    step.onConnection c =
      ((step.onSink c.stream.sink).1, c.withSink (step.onSink c.stream.sink).2) := by
  cases step with
  | write bytes => simp [onConnection, onSink, Connection.write, Connection.onSink_eq]
  | writeAll bytes =>
      simp [onConnection, onSink, Connection.writeAll_eq, Connection.onSink_eq]
  | flush => simp [onConnection, onSink, Connection.flush, Connection.onSink_eq]
  | shutdown => simp [onConnection, onSink, Connection.shutdown, Connection.onSink_eq]

theorem WriteStep.onConnection_withSink (step : WriteStep) (c : Connection) (s : Sink) :
    step.onConnection (c.withSink s) = ((step.onSink s).1, c.withSink (step.onSink s).2) := by
  rw [onConnection_eq, Connection.stream_withSink, Connection.withSink_withSink]

theorem ReadStep.onConnection_withSink (step : ReadStep) (c : Connection) (s : Sink) :
    step.onConnection (c.withSink s) =
      ((step.onConnection c).1, (step.onConnection c).2.withSink s) := by
  cases step with
  | peek n test => simp [onConnection, Connection.peek_withSink]
  | read n => simp [onConnection, Connection.read_withSink]

theorem TagStep.onlyTags (step : TagStep) {c : Connection} (h : c.OnlyTags) :
    (step.onConnection c).2.OnlyTags := by
  cases step with
  | read step =>
      cases step with
      | peek n test => exact h.peek n test
      | read n => exact h.read n
  | tag destination tls => exact h
  | unwrap => exact h.unwrap

theorem TagStep.onConnection_withSink (step : TagStep) (c : Connection) (s : Sink) :
    step.onConnection (c.withSink s) =
      ((step.onConnection c).1, (step.onConnection c).2.withSink s) := by
  cases step with
  | read step => simp [onConnection, step.onConnection_withSink]
  | tag destination tls => rfl
  | unwrap => cases c <;> rfl

theorem SliceStep.onConnection_withSink (step : SliceStep) {c : Connection} (h : c.OnlyTags)
    (s : Sink) :
    step.onConnection (c.withSink s) = ((step.onSink s).1, c.withSink (step.onSink s).2) := by
  cases step with
  | writeVectored parts =>
      simp [onConnection, onSink, (h.withSink s).writeVectored, Connection.onSink_eq]
  | other step => exact step.onConnection_withSink c s

/-! ## Both sides -/

/-- A connection read and written is the one that is only read, with the writing half that is only
    written. -/
theorem reading_beside_writing (c : Connection) (steps : List (WriteStep ⊕ ReadStep)) :
    let mixed := runSteps (eitherStep WriteStep.onConnection ReadStep.onConnection) steps c
    let writes := runSteps WriteStep.onSink (steps.filterMap Sum.getLeft?) c.stream.sink
    let reads := runSteps ReadStep.onConnection (steps.filterMap Sum.getRight?) c
    mixed.1.filterMap Sum.getLeft? = writes.1 ∧ mixed.1.filterMap Sum.getRight? = reads.1 ∧
      mixed.2 = reads.2.withSink writes.2 := by
  let made (both : Connection) (sink : Sink) (reader : Connection) := both = reader.withSink sink
  refine runSteps_eitherStep made ?_ ?_ steps c.withSink_self.symm
  · rintro step _ sink reader rfl
    exact Prod.mk.inj (step.onConnection_withSink reader sink)
  · rintro step _ sink reader rfl
    exact Prod.mk.inj (step.onConnection_withSink reader sink)

/-- The same with writes of several slices, if there are tags only. -/
theorem tagging_beside_writing (stream : ByteStream) (tags : List (Option Text × Bool))
    (steps : List (SliceStep ⊕ TagStep)) :
    let c := Connection.taggedWith stream tags
    let mixed := runSteps (eitherStep SliceStep.onConnection TagStep.onConnection) steps c
    let writes := runSteps SliceStep.onSink (steps.filterMap Sum.getLeft?) stream.sink
    let reads := runSteps TagStep.onConnection (steps.filterMap Sum.getRight?) c
    mixed.1.filterMap Sum.getLeft? = writes.1 ∧ mixed.1.filterMap Sum.getRight? = reads.1 ∧
      mixed.2 = reads.2.withSink writes.2 := by
  intro c mixed writes reads
  -- what tags are put on or taken off, none is a peek buffer
  let made (both : Connection) (sink : Sink) (reader : Connection) :=
    both = reader.withSink sink ∧ reader.OnlyTags
  have hstart : made c stream.sink c := by
    refine ⟨?_, Connection.onlyTags_taggedWith stream tags⟩
    have hself := c.withSink_self
    rw [Connection.stream_taggedWith] at hself
    exact hself.symm
  have hmixed : mixed.1.filterMap Sum.getLeft? = writes.1 ∧
      mixed.1.filterMap Sum.getRight? = reads.1 ∧ made mixed.2 writes.2 reads.2 := by
    refine runSteps_eitherStep made ?_ ?_ steps hstart
    · rintro step _ sink reader ⟨rfl, h⟩
      obtain ⟨hresult, hafter⟩ := Prod.mk.inj (step.onConnection_withSink h sink)
      exact ⟨hresult, hafter, h⟩
    · rintro step _ sink reader ⟨rfl, h⟩
      obtain ⟨hresult, hafter⟩ := Prod.mk.inj (step.onConnection_withSink reader sink)
      exact ⟨hresult, hafter, step.onlyTags h⟩
  obtain ⟨hwrites, hreads, hmade, -⟩ := hmixed
  exact ⟨hwrites, hreads, hmade⟩

/-- **Wrappers are transparent for writing.** However it is mixed with reads and peeks, what is
    written gets the answers of the bare stream and does to it what it does without the wrappers and
    the reading; and the reads and peeks get the answers that they get without the writing. The
    stream has every call on record, so no wrapper repeats a write that failed. Through tags this
    holds of writes of several slices too, which arrive with the slices that they were made with,
    whichever tags are put on or taken off in between. -/
theorem wrappers_are_transparent :
    (∀ (c : Connection) (steps : List (WriteStep ⊕ ReadStep)),
      let mixed := runSteps (eitherStep WriteStep.onConnection ReadStep.onConnection) steps c
      let writes := runSteps WriteStep.onSink (steps.filterMap Sum.getLeft?) c.stream.sink
      let reads := runSteps ReadStep.onConnection (steps.filterMap Sum.getRight?) c
      mixed.1.filterMap Sum.getLeft? = writes.1 ∧ mixed.2.stream.sink = writes.2 ∧
        mixed.1.filterMap Sum.getRight? = reads.1) ∧
    ∀ (stream : ByteStream) (tags : List (Option Text × Bool)) (steps : List (SliceStep ⊕ TagStep)),
      let mixed := runSteps (eitherStep SliceStep.onConnection TagStep.onConnection) steps
        (Connection.taggedWith stream tags)
      let writes := runSteps SliceStep.onSink (steps.filterMap Sum.getLeft?) stream.sink
      mixed.1.filterMap Sum.getLeft? = writes.1 ∧ mixed.2.stream.sink = writes.2 := by
  refine ⟨fun c steps => ?_, fun stream tags steps => ?_⟩
  · obtain ⟨hwrites, hreads, hafter⟩ := reading_beside_writing c steps
    exact ⟨hwrites, by rw [hafter, Connection.stream_withSink], hreads⟩
  · obtain ⟨hwrites, -, hafter⟩ := tagging_beside_writing stream tags steps
    exact ⟨hwrites, by rw [hafter, Connection.stream_withSink]⟩

end InterceptingProxy
