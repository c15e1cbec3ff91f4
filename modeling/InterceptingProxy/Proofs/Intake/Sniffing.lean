import Mathlib.Tactic.Common
import InterceptingProxy.Proofs.Peeking
import InterceptingProxy.Proofs.Wrapping
import InterceptingProxy.Sniff

set_option autoImplicit false

/-! # What a look at a connection sees

A reader of a connection gets `Connection.arriving`: what its wrappers hold back and then what the
stream brings before its end or first failure (`Connection.failure?`). Neither depends on how the
stream is cut into chunks, and a look at the first `n` bytes depends on nothing else, whatever the
wrappers underneath: `peek_of_le`, `peek_of_ended` and `peek_of_failed` say what comes of it.

Whoever has the connection afterwards has the same connection (`Connection.Intact`): all its bytes
are still to come, and it ends, answers and takes bytes as before. -/

namespace InterceptingProxy

/-! ## What arrives -/

namespace Connection

/-- The bytes that a reader gets before the end or the first failure. -/
def arriving (c : Connection) : Bytes := c.held ++ Source.available c.stream.source.chunks

/-- The failure that stops a reader, if it comes before the end. -/
def failure? (c : Connection) : Option IoError := Source.failure? c.stream.source.chunks

@[simp] theorem arriving_tagged (inner : Connection) (d : Option Text) (tls : Bool) :
    (Connection.tagged inner d tls).arriving = inner.arriving := rfl

@[simp] theorem arriving_peekable (inner : Connection) (peeked : Bool) (buffer : PeekBuffer) :
    (Connection.peekable inner peeked buffer).arriving = buffer.rest ++ inner.arriving :=
  List.append_assoc ..

@[simp] theorem failure?_tagged (inner : Connection) (d : Option Text) (tls : Bool) :
    (Connection.tagged inner d tls).failure? = inner.failure? := rfl

@[simp] theorem failure?_peekable (inner : Connection) (peeked : Bool) (buffer : PeekBuffer) :
    (Connection.peekable inner peeked buffer).failure? = inner.failure? := rfl

end Connection

/-! ## One read -/

/-- How a read into a buffer of `n` bytes meets what arrives: it fails or ends only where nothing
    does, and what it hands out comes off the front. -/
def ReadOff (n : Nat) (result : Except IoError Bytes) (before after : Bytes × Option IoError) :
    Prop :=
  match result with
  | .error e => before = ([], some e)
  | .ok bytes =>
    bytes.length ≤ n ∧ before = (bytes ++ after.1, after.2) ∧ (bytes = [] → before = ([], none))

theorem Source.readChunks_readOff {n : Nat} (hn : n ≠ 0) (chunks : List Chunk) :
    ReadOff n (readChunks n chunks).1 (available chunks, failure? chunks)
      (available (readChunks n chunks).2, failure? (readChunks n chunks).2) := by
  fun_induction readChunks n chunks with
  | case1 => exact ⟨Nat.zero_le n, rfl, fun _ => rfl⟩
  | case2 e rest => rfl
  | case3 rest ih => exact ih
  | case4 bytes rest hne =>
      have hsplit : bytes.take n ++ bytes.drop n = bytes := List.take_append_drop n bytes
      refine ⟨List.length_take_le n bytes, ?_, fun hnone => ?_⟩
      · cases hleft : bytes.drop n with
        | nil =>
            rw [hleft, List.append_nil] at hsplit
            simp only [available, failure?, hsplit]
        | cons b left =>
            rw [hleft] at hsplit
            simp only [available, failure?]
            rw [← List.append_assoc, hsplit]
      · -- a chunk with bytes never looks like the end
        rcases List.take_eq_nil_iff.1 hnone with hzero | hempty
        · exact absurd hzero hn
        · exact absurd hempty (by simpa using hne)

namespace Connection

theorem read_readOff {n : Nat} (hn : n ≠ 0) (c : Connection) :
    ReadOff n (c.read n).1 (c.arriving, c.failure?) ((c.read n).2.arriving, (c.read n).2.failure?)
    := by
  induction c with
  | raw s =>
      simp only [Connection.read, Source.read, if_neg hn]
      exact Source.readChunks_readOff hn s.source.chunks
  | tagged inner d tls ih => exact ih
  | peekable inner peeked buffer ih =>
      rw [Connection.read]
      split
      · next hleft =>
          have hrest : buffer.rest ≠ [] := fun h => buffer.rest_eq_nil_iff.1 h hleft
          simp only [arriving_peekable, failure?_peekable, PeekBuffer.take_fst,
            PeekBuffer.take_snd_rest]
          refine ⟨List.length_take_le n _, ?_, fun hnone => ?_⟩
          · rw [← List.append_assoc, List.take_append_drop]
          · rcases List.take_eq_nil_iff.1 hnone with hzero | hempty
            · exact absurd hzero hn
            · exact absurd hempty hrest
      · next hused =>
          have hempty : buffer.rest = [] := buffer.rest_eq_nil_iff.2 hused
          simpa [hempty] using ih

/-- A read fails or ends where nothing arrives, and else takes bytes off the front. -/
theorem read_cases {n : Nat} (hn : n ≠ 0) (c : Connection) :
    (∃ e c', c.read n = (.error e, c') ∧ c.arriving = [] ∧ c.failure? = some e) ∨
    (∃ c', c.read n = (.ok [], c') ∧ c.arriving = [] ∧ c.failure? = none) ∨
    ∃ bytes c', c.read n = (.ok bytes, c') ∧ bytes ≠ [] ∧ c.arriving = bytes ++ c'.arriving ∧
      c.failure? = c'.failure? := by
  have hoff := read_readOff hn c
  rcases hread : c.read n with ⟨_ | bytes, c'⟩
  · simp only [hread, ReadOff, Prod.mk.injEq] at hoff
    exact .inl ⟨_, _, rfl, hoff⟩
  · simp only [hread, ReadOff, Prod.mk.injEq] at hoff
    obtain ⟨_, ⟨harriving, hfailure⟩, hend⟩ := hoff
    by_cases hbytes : bytes = []
    · subst hbytes
      exact .inr (.inl ⟨_, rfl, hend rfl⟩)
    · exact .inr (.inr ⟨_, _, rfl, hbytes, harriving, hfailure⟩)

/-- Reading changes neither the tags nor the writing half. -/
theorem read_frame (n : Nat) (c : Connection) :
    (c.read n).2.destination = c.destination ∧ (c.read n).2.isTls = c.isTls ∧
      (c.read n).2.stream.sink = c.stream.sink := by
  induction c with
  | raw s => exact ⟨rfl, rfl, rfl⟩
  | tagged inner d tls ih => exact ⟨rfl, rfl, ih.2.2⟩
  | peekable inner peeked buffer ih =>
      rw [Connection.read]
      split
      · exact ⟨rfl, rfl, rfl⟩
      · exact ih

/-! ## The writing half -/

theorem arriving_withSink (c : Connection) (s : Sink) : (c.withSink s).arriving = c.arriving := by
  have hheld : (c.withSink s).held = c.held := by
    induction c with
    | raw stream => rfl
    | tagged inner d tls ih => exact ih
    | peekable inner peeked buffer ih => exact congrArg (buffer.rest ++ ·) ih
  rw [arriving, arriving, hheld, stream_withSink]

theorem failure?_withSink (c : Connection) (s : Sink) : (c.withSink s).failure? = c.failure? := by
  rw [failure?, failure?, stream_withSink]

/-- Writing takes nothing from what a reader gets. -/
theorem writeAll_reading {bytes : Bytes} {result : Except IoError Unit} {c c' : Connection}
    (h : c.writeAll bytes = (result, c')) :
    c'.arriving = c.arriving ∧ c'.failure? = c.failure? := by
  rw [writeAll_eq, onSink_eq] at h
  obtain ⟨-, rfl⟩ := Prod.mk.inj h
  exact ⟨arriving_withSink c _, failure?_withSink c _⟩

/-! ## Any number of reads -/

/-- A read into an empty buffer touches nothing. -/
theorem read_zero (c : Connection) : c.read 0 = (.ok [], c) := by
  induction c with
  | raw s => rfl
  | tagged inner d tls ih => simp only [Connection.read, ih]
  | peekable inner peeked buffer ih =>
      rw [Connection.read]
      split
      · next hleft =>
          have hcount : ¬ buffer.position = buffer.bytes.length := Nat.ne_of_lt hleft
          simp [PeekBuffer.take, hcount]
      · simp only [ih]

/-- A read of a connection that does not fail hands out bytes off the front, and at least one into a
    buffer that is not empty, if there is one. -/
theorem read_of_failure?_eq_none {c : Connection} (h : c.failure? = none) (n : Nat) :
    ∃ bytes c', c.read n = (.ok bytes, c') ∧ c.arriving = bytes ++ c'.arriving ∧
      c'.failure? = none ∧ (n ≠ 0 → bytes = [] → c.arriving = []) := by
  by_cases hn : n = 0
  · rw [hn]
    exact ⟨[], c, read_zero c, rfl, h, fun hzero => absurd rfl hzero⟩
  · have hoff := read_readOff hn c
    rcases hread : c.read n with ⟨e | bytes, c'⟩
    · simp only [hread, ReadOff, h, Prod.mk.injEq, reduceCtorEq, and_false] at hoff
    · simp only [hread, ReadOff, h, Prod.mk.injEq] at hoff
      obtain ⟨-, ⟨harriving, hfailure⟩, hend⟩ := hoff
      exact ⟨bytes, c', rfl, harriving, hfailure.symm, fun _ hnone => (hend hnone).1⟩

/-- What reads into buffers of the given sizes hand out, one after the other. -/
def readInto (c : Connection) : List Nat → Bytes × Connection
  | [] => ([], c)
  | n :: sizes =>
    let (result, c) := c.read n
    let (more, c) := c.readInto sizes
    (handedOut result ++ more, c)

/-- A reader gets these bytes and then the end: however it reads, the next read hands out the bytes
    that come next, and none only when all of them have been handed out. -/
def Delivers (c : Connection) (bytes : Bytes) : Prop :=
  ∀ sizes n, n ≠ 0 →
    let (handed, c') := c.readInto sizes
    ∃ next, (c'.read n).1 = .ok next ∧ handed ++ next <+: bytes ∧ (next = [] ↔ handed = bytes)

theorem readInto_of_failure?_eq_none {c : Connection} (h : c.failure? = none) (sizes : List Nat) :
    (c.readInto sizes).1 ++ (c.readInto sizes).2.arriving = c.arriving ∧
      (c.readInto sizes).2.failure? = none := by
  induction sizes generalizing c with
  | nil => exact ⟨rfl, h⟩
  | cons n sizes ih =>
      obtain ⟨bytes, c', hread, harriving, hfailure, -⟩ := read_of_failure?_eq_none h n
      obtain ⟨hmore, hend⟩ := ih hfailure
      simp only [readInto, hread, handedOut_ok]
      rw [List.append_assoc, hmore]
      exact ⟨harriving.symm, hend⟩

/-- A connection that does not fail delivers what arrives. -/
theorem delivers_arriving {c : Connection} (h : c.failure? = none) : c.Delivers c.arriving := by
  intro sizes n hn
  obtain ⟨hhanded, hend⟩ := readInto_of_failure?_eq_none h sizes
  generalize c.readInto sizes = reads at hhanded hend ⊢
  obtain ⟨handed, c'⟩ := reads
  obtain ⟨next, c'', hread, harriving, -, hlast⟩ := read_of_failure?_eq_none hend n
  refine ⟨next, by rw [hread], ⟨c''.arriving, ?_⟩, fun hnext => ?_, fun hall => ?_⟩
  · rw [List.append_assoc, ← harriving, hhanded]
  · rw [hlast hn hnext, List.append_nil] at hhanded
    exact hhanded
  · have hnothing : c'.arriving = [] := by
      rw [hall] at hhanded
      simpa using hhanded
    rw [hnothing] at harriving
    exact (List.append_eq_nil_iff.1 harriving.symm).1

/-! ## Filling a buffer -/

/-- How filling a buffer of `need` bytes ends. -/
def Fill.of (need : Nat) (arriving : Bytes) (failure : Option IoError) : Fill :=
  if need ≤ arriving.length then .full
  else match failure with
    | none => .ended
    | some e => .failed e

/-- **Filling a buffer takes the first bytes that arrive**, whatever the chunks, and it comes to
    the end or to a failure only if there are too few. -/
theorem fill_eq (reads need : Nat) (c : Connection) (h : need ≤ reads) :
    (c.fill reads need).1 = c.arriving.take need ∧
    (c.fill reads need).2.1 = Fill.of need c.arriving c.failure? ∧
    ((need ≤ c.arriving.length ∨ c.failure? = none) →
      (c.fill reads need).2.2.arriving = c.arriving.drop need ∧
      (c.fill reads need).2.2.failure? = c.failure?) := by
  -- a failed read uses the failure up, so what follows is told only where none is met
  fun_induction Connection.fill reads need c with
  | case1 => simp [Fill.of]
  | case2 need c hneed => exact absurd (Nat.le_zero.1 h) hneed
  | case3 c reads need hneed e c' hread =>
      have hoff := read_readOff hneed c
      simp only [hread, ReadOff, Prod.mk.injEq] at hoff
      have hpos : ¬ need ≤ 0 := fun hle => hneed (Nat.le_zero.1 hle)
      simp [Fill.of, hoff, hpos]
  | case4 c reads need hneed c' hread =>
      have hoff := read_readOff hneed c
      simp only [hread, ReadOff, Prod.mk.injEq, List.nil_append, true_implies] at hoff
      obtain ⟨_, ⟨harriving, hfailure⟩, hnothing, hend⟩ := hoff
      have hpos : ¬ need ≤ 0 := fun hle => hneed (Nat.le_zero.1 hle)
      rw [hnothing] at harriving
      rw [hend] at hfailure
      simp [Fill.of, hnothing, hend, hpos, ← harriving, ← hfailure]
  | case5 c reads need hneed bytes c' hbytes hread more outcome c'' hfill ih =>
      have hoff := read_readOff hneed c
      simp only [hread, ReadOff, Prod.mk.injEq] at hoff
      obtain ⟨hlength, ⟨harriving, hfailure⟩, _⟩ := hoff
      have hsome : 0 < bytes.length := List.length_pos_iff.2 (by simpa using hbytes)
      obtain ⟨hmore, houtcome, hafter⟩ := ih (by omega)
      rw [hfill] at hmore houtcome hafter
      simp only at hmore houtcome hafter
      have hfits : need - bytes.length ≤ c'.arriving.length ↔ need ≤ c.arriving.length := by
        rw [harriving, List.length_append]
        omega
      refine ⟨?_, ?_, fun hgood => ?_⟩
      · rw [harriving, List.take_append, List.take_of_length_le hlength, ← hmore]
      · rw [houtcome, hfailure]
        simp only [Fill.of, hfits]
      · rw [hfailure] at hgood ⊢
        rw [harriving, List.drop_append, List.drop_of_length_le hlength, List.nil_append]
        exact hafter (by rwa [hfits])

theorem fill_frame (reads need : Nat) (c : Connection) :
    (c.fill reads need).2.2.destination = c.destination ∧
      (c.fill reads need).2.2.isTls = c.isTls ∧
      (c.fill reads need).2.2.stream.sink = c.stream.sink := by
  fun_induction Connection.fill reads need c with
  | case1 => exact ⟨rfl, rfl, rfl⟩
  | case2 => exact ⟨rfl, rfl, rfl⟩
  | case3 c reads need hneed e c' hread => simpa [hread] using read_frame need c
  | case4 c reads need hneed c' hread => simpa [hread] using read_frame need c
  | case5 c reads need hneed bytes c' hbytes hread more outcome c'' hfill ih =>
      have hfirst := read_frame need c
      rw [hread] at hfirst
      rw [hfill] at ih
      exact ⟨ih.1.trans hfirst.1, ih.2.1.trans hfirst.2.1, ih.2.2.trans hfirst.2.2⟩

/-! ## A look -/

/-- `held` is the connection that `client` was, for whoever reads it, writes to it or asks where it
    meant to go. -/
structure Intact (held client : Connection) : Prop where
  arriving : held.arriving = client.arriving
  failure : held.failure? = client.failure?
  remaining : held.remaining = client.remaining
  destination : held.destination = client.destination
  isTls : held.isTls = client.isTls
  sink : held.stream.sink = client.stream.sink

theorem Intact.refl (c : Connection) : c.Intact c := ⟨rfl, rfl, rfl, rfl, rfl, rfl⟩

theorem Intact.trans {held between client : Connection} (h : held.Intact between)
    (h' : between.Intact client) : held.Intact client where
  arriving := h.arriving.trans h'.arriving
  failure := h.failure.trans h'.failure
  remaining := h.remaining.trans h'.remaining
  destination := h.destination.trans h'.destination
  isTls := h.isTls.trans h'.isTls
  sink := h.sink.trans h'.sink

variable {n : Nat} (test : Bytes → Bool) {c : Connection}

/-- A look that meets no failure leaves the connection as it was. -/
theorem intact_peek_forPeeking (h : n ≤ c.arriving.length ∨ c.failure? = none) :
    (c.forPeeking.peek n test).2.Intact c := by
  obtain ⟨hbytes, _, hafter⟩ := fill_eq n n c (Nat.le_refl n)
  obtain ⟨harriving, hfailure⟩ := hafter h
  obtain ⟨hdestination, htls, hsink⟩ := fill_frame n n c
  refine ⟨?_, hfailure, ?_, hdestination, htls, hsink⟩
  · simp only [forPeeking, peek, arriving_peekable, PeekBuffer.rest, List.drop_zero, hbytes,
      harriving]
    exact List.take_append_drop n c.arriving
  · simp only [forPeeking, peek, remaining_peekable, PeekBuffer.rest, List.drop_zero]
    exact fill_append_remaining n n c

/-- **A look sees the first bytes that arrive**, and tests them. -/
theorem peek_of_le (h : n ≤ c.arriving.length) :
    ∃ held : Connection, c.forPeeking.peek n test = (.ok (test (c.arriving.take n)), held) ∧
      held.Intact c := by
  obtain ⟨hbytes, houtcome, _⟩ := fill_eq n n c (Nat.le_refl n)
  refine ⟨_, Prod.ext ?_ rfl, intact_peek_forPeeking test (.inl h)⟩
  simp only [forPeeking, peek, hbytes, houtcome, Fill.of, if_pos h]

/-- A look at a connection that ends too early fails, and takes nothing away. -/
theorem peek_of_ended (h : c.arriving.length < n) (hend : c.failure? = none) :
    ∃ held : Connection,
      c.forPeeking.peek n test = (.error (.shortRead n c.arriving.length), held) ∧
      held.Intact c := by
  obtain ⟨hbytes, houtcome, _⟩ := fill_eq n n c (Nat.le_refl n)
  refine ⟨_, Prod.ext ?_ rfl, intact_peek_forPeeking test (.inr hend)⟩
  rw [List.take_of_length_le (Nat.le_of_lt h)] at hbytes
  simp only [forPeeking, peek, hbytes, houtcome, Fill.of, if_neg (Nat.not_le.2 h), hend]

/-- A look at a connection that fails too early fails in the same way. -/
theorem peek_of_failed {e : IoError} (h : c.arriving.length < n) (he : c.failure? = some e) :
    ∃ held : Connection, c.forPeeking.peek n test = (.error (.io e), held) := by
  obtain ⟨_, houtcome, _⟩ := fill_eq n n c (Nat.le_refl n)
  refine ⟨_, Prod.ext ?_ rfl⟩
  simp only [forPeeking, peek, houtcome, Fill.of, if_neg (Nat.not_le.2 h), he]

end Connection

/-! ## What the first bytes tell -/

/-- The bytes open with a handshake record of TLS 1.0 to 1.3. -/
def OpensTls (s : Bytes) : Prop := ∃ minor ≤ 3, [0x16, 0x03, minor] <+: s

/-- The bytes open like a request that the router serves. -/
def OpensHttp (s : Bytes) : Prop := ∃ start ∈ httpPrefixes, start <+: s

theorem isTlsHandshake_take_iff (s : Bytes) :
    isTlsHandshake (s.take tlsPeekSize) = true ↔ OpensTls s := by
  match s with
  | [] | [_] | [_, _] => simp [tlsPeekSize, isTlsHandshake, OpensTls]
  | first :: major :: minor :: rest =>
      have htake : (first :: major :: minor :: rest).take tlsPeekSize = [first, major, minor] := rfl
      simp only [htake, isTlsHandshake, OpensTls, Bool.and_eq_true, beq_iff_eq, decide_eq_true_eq,
        List.cons_prefix_cons, List.nil_prefix, and_true]
      constructor
      · rintro ⟨⟨rfl, rfl⟩, hminor⟩
        exact ⟨minor, hminor, rfl, rfl, rfl⟩
      · rintro ⟨_, hminor, rfl, rfl, rfl⟩
        exact ⟨⟨rfl, rfl⟩, hminor⟩

theorem OpensTls.length_le {s : Bytes} (h : OpensTls s) : tlsPeekSize ≤ s.length := by
  obtain ⟨minor, _, hprefix⟩ := h
  exact hprefix.length_le

theorem httpPrefixes_length_le : ∀ start ∈ httpPrefixes, start.length ≤ httpPeekSize := by
  decide +kernel

/-- No request is longer than what is looked at. -/
theorem isProxiedHttp_take_iff (s : Bytes) :
    isProxiedHttp (s.take httpPeekSize) = true ↔ OpensHttp s := by
  simp only [isProxiedHttp, List.any_eq_true, List.isPrefixOf_iff_prefix, OpensHttp]
  refine exists_congr fun start => and_congr_right fun hstart => ?_
  rw [List.prefix_take_iff]
  exact and_iff_left (httpPrefixes_length_le start hstart)

end InterceptingProxy
