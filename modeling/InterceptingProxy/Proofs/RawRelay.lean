import Mathlib.Tactic.Common
import InterceptingProxy.Intake.Outbound
import InterceptingProxy.Proofs.Intake.Sniffing
import InterceptingProxy.Proofs.Writing

set_option autoImplicit false

/-! # What a raw relay passes on

A direction of a relay reads until nothing arrives any more, and its writer takes what it has room
for. If all that arrives finds room, then the writer gets it and is shut down, once; otherwise the
writer gets as much as it has room for and is left open (`Relay.copy_ended`). Every read brings at
least one byte, so the number of bytes that arrive bounds the reads.

A destination has room for everything, so it gets all that arrives on the client, and a failure that
ends the client's stream is what the relay reports (`Outbound.relay_delivered`). -/

namespace InterceptingProxy

namespace Relay

/-! ## One direction -/

/-- What a direction reports that has passed `count` bytes on: the failure that ended what arrived,
    or else that of the shutdown. -/
def report (failure shutdownError : Option IoError) (count : Nat) : Except IoError Nat :=
  match failure, shutdownError with
  | some e, _ => .error e
  | none, some e => .error e
  | none, none => .ok count

/-- How a direction ends on which `bytes` arrive, and then the end or a failure. -/
structure Ended (bytes : Bytes) (failure : Option IoError) (before : Sink)
    (result : Except IoError Nat) (after : Sink) : Prop where
  /-- Without room for all bytes, the writer gets those that it has room for and is left open. -/
  overflow : ∀ w e, before.room? = some (w, e) → w < bytes.length →
    result = .error e ∧ after.written = before.written ++ bytes.take w ∧
      after.shutdowns = before.shutdowns
  /-- With room for all bytes, the writer gets them and is shut down once. -/
  whole : (∀ w e, before.room? = some (w, e) → bytes.length ≤ w) →
    result = report failure before.shutdownError bytes.length ∧
      after.written = before.written ++ bytes ∧ after.shutdowns = before.shutdowns + 1

/-- What comes of a read, for the rest of a direction. -/
theorem copyWithin_cases (rounds : Nat) (reader : Connection) (writer : Sink) (total : Nat) :
    (reader.arriving = [] ∧ ∃ reader', copyWithin (rounds + 1) reader writer total =
      (report reader.failure? writer.shutdownError total, reader', writer.shutdown.2)) ∨
    ∃ bytes reader', bytes ≠ [] ∧ reader.arriving = bytes ++ reader'.arriving ∧
      reader.failure? = reader'.failure? ∧
      (∀ writer', writer.writeAll bytes = (.ok (), writer') →
        copyWithin (rounds + 1) reader writer total =
          copyWithin rounds reader' writer' (total + bytes.length)) ∧
      ∀ e writer', writer.writeAll bytes = (.error e, writer') →
        copyWithin (rounds + 1) reader writer total = (.error e, reader', writer') := by
  rw [copyWithin]
  obtain ⟨e, reader', hread, hnothing, hfailure⟩ | ⟨reader', hread, hnothing, hfailure⟩ |
    ⟨bytes, reader', hread, hbytes, harriving, hfailure⟩ :=
    Connection.read_cases (n := bufferSize) (by decide) reader
  · refine .inl ⟨hnothing, reader', ?_⟩
    simp only [hread, hfailure, report]
  · refine .inl ⟨hnothing, reader', ?_⟩
    simp only [hread, hfailure]
    cases herror : writer.shutdownError <;> simp [Sink.shutdown, herror, report]
  · obtain ⟨b, rest, rfl⟩ := List.exists_cons_of_ne_nil hbytes
    refine .inr ⟨b :: rest, reader', hbytes, harriving, hfailure, fun writer' hwrite => ?_,
      fun e writer' hwrite => ?_⟩
    · simp only [hread, hwrite]
    · simp only [hread, hwrite]

variable {writer : Sink} {rounds w : Nat} {e : IoError}

theorem copyWithin_of_fits (reader : Connection) (total : Nat)
    (hrounds : reader.arriving.length < rounds) (hfits : writer.Fits reader.arriving.length) :
    ∃ last, writer.Took reader.arriving last ∧
      (copyWithin rounds reader writer total).1 =
        report reader.failure? writer.shutdownError (total + reader.arriving.length) ∧
      (copyWithin rounds reader writer total).2.2 = last.shutdown.2 := by
  induction rounds generalizing reader writer total with
  | zero => exact absurd hrounds (Nat.not_lt_zero _)
  | succ rounds ih =>
      obtain ⟨hnothing, reader', hcopy⟩ | ⟨bytes, reader', hbytes, harriving, hfailure, hcopy, _⟩ :=
        copyWithin_cases rounds reader writer total
      · rw [hcopy, hnothing]
        exact ⟨writer, .refl writer, rfl, rfl⟩
      · have hsome : 0 < bytes.length := List.length_pos_iff.2 hbytes
        have hlength : reader.arriving.length = bytes.length + reader'.arriving.length := by
          rw [harriving, List.length_append]
        rw [hlength] at hrounds hfits
        have hfirst : writer.Fits bytes.length := hfits.mono (Nat.le_add_right _ _)
        obtain ⟨writer', hwrite, htook⟩ := Sink.writeAll_of_fits hfirst
        obtain ⟨last, hlast, hresult, hafter⟩ :=
          ih reader' (total + bytes.length) (by omega) ((htook.fits_iff hfirst).2 hfits)
        rw [hcopy writer' hwrite, hresult, hafter, htook.shutdownError, hfailure, hlength,
          harriving, Nat.add_assoc]
        exact ⟨last, htook.trans hlast, rfl, rfl⟩

theorem copyWithin_of_room_lt (reader : Connection) (total : Nat)
    (hrounds : reader.arriving.length < rounds) (hroom : writer.room? = some (w, e))
    (hw : w < reader.arriving.length) :
    (copyWithin rounds reader writer total).1 = .error e ∧
      writer.Took (reader.arriving.take w) (copyWithin rounds reader writer total).2.2 := by
  induction rounds generalizing reader writer total w with
  | zero => exact absurd hrounds (Nat.not_lt_zero _)
  | succ rounds ih =>
      obtain ⟨hnothing, _⟩ | ⟨bytes, reader', hbytes, harriving, _, hcopy, hstop⟩ :=
        copyWithin_cases rounds reader writer total
      · rw [hnothing] at hw
        exact absurd hw (Nat.not_lt_zero w)
      · have hsome : 0 < bytes.length := List.length_pos_iff.2 hbytes
        have hlength : reader.arriving.length = bytes.length + reader'.arriving.length := by
          rw [harriving, List.length_append]
        rcases Nat.lt_or_ge w bytes.length with hnow | hlater
        · obtain ⟨writer', hwrite, htook⟩ := Sink.writeAll_of_room_lt hroom hnow
          rw [hstop e writer' hwrite, harriving, List.take_append_of_le_length (Nat.le_of_lt hnow)]
          exact ⟨rfl, htook⟩
        · obtain ⟨writer', hwrite, htook⟩ :=
            Sink.writeAll_of_fits ((Sink.fits_of_room hroom).2 hlater)
          obtain ⟨hresult, hrest⟩ :=
            ih reader' (total + bytes.length) (by omega) (htook.room_eq hroom) (by omega)
          rw [hcopy writer' hwrite, harriving, List.take_append, List.take_of_length_le hlater]
          exact ⟨hresult, htook.trans hrest⟩

theorem available_length_le {size : Chunk → Nat}
    (hsize : ∀ bytes : Bytes, bytes.length ≤ size (.data bytes)) (chunks : List Chunk)
    (count : Nat) :
    count + (Source.available chunks).length ≤ (chunks.map size).foldl (· + ·) count := by
  induction chunks generalizing count with
  | nil => exact Nat.le_refl count
  | cons chunk rest ih =>
      have hrest := ih (count + size chunk)
      rw [List.map_cons, List.foldl_cons]
      refine Nat.le_trans ?_ hrest
      cases chunk with
      | data bytes =>
          have hfirst := hsize bytes
          rw [Source.available, List.length_append]
          omega
      | failure e => exact Nat.le_add_right_of_le (Nat.le_add_right count (size (.failure e)))

theorem arriving_length_lt_readBound (c : Connection) : c.arriving.length < readBound c := by
  rw [readBound, Connection.arriving, List.length_append]
  refine Nat.lt_succ_of_le (Nat.add_le_add_left ?_ c.held.length)
  refine Nat.le_trans (Nat.le_add_left _ 0) ?_
  exact available_length_le (fun bytes => Nat.le_succ bytes.length) c.stream.source.chunks 0

/-- **A direction passes on all that arrives, or all that its writer has room for.** -/
theorem copy_ended (reader : Connection) (writer : Sink) :
    Ended reader.arriving reader.failure? writer (copy reader writer).1
      (copy reader writer).2.2 where
  overflow w e hroom hw := by
    obtain ⟨hresult, htook⟩ :=
      copyWithin_of_room_lt reader 0 (arriving_length_lt_readBound reader) hroom hw
    exact ⟨hresult, htook.written, htook.shutdowns⟩
  whole hfits := by
    obtain ⟨last, htook, hresult, hafter⟩ :=
      copyWithin_of_fits reader 0 (arriving_length_lt_readBound reader) hfits
    rw [Nat.zero_add] at hresult
    refine ⟨hresult, ?_, ?_⟩
    · rw [copy, hafter]
      exact htook.written
    · rw [copy, hafter]
      exact congrArg (· + 1) htook.shutdowns

end Relay

/-! ## Towards a destination -/

namespace Outbound

/-- A relay has brought a destination all that arrives on the client, up to the end or the failure
    that it reports. -/
structure Delivered (client : Connection) (tls : Bool) (o o' : Outbound) (relayed : Relayed) :
    Prop where
  received : o'.received = o.received ++ [⟨tls, client.arriving⟩]
  failed : ∀ e, client.failure? = some e → relayed.result = .error e

theorem Delivered.of_intact {client held : Connection} {tls : Bool} {o o' : Outbound}
    {relayed : Relayed} (h : Delivered held tls o o' relayed) (hi : held.Intact client) :
    Delivered client tls o o' relayed where
  received := by rw [h.received, hi.arriving]
  failed := by rw [← hi.failure]; exact h.failed

theorem relay_delivered (client : Connection) (tls : Bool) (o : Outbound) :
    Delivered client tls o (o.relay client tls).2 (o.relay client tls).1 where
  received := by
    obtain ⟨_, hwritten, _⟩ := (Relay.copy_ended client {}).whole nofun
    simp only [relay, hwritten, List.nil_append]
  failed e he := by
    -- the way back has no say in what a failed way forth reports
    have hforth : (Relay.copy client {}).1 = .error e := by
      rw [((Relay.copy_ended client {}).whole nofun).1, he]
      rfl
    simp only [relay, Relay.run, Relay.outcome, Connection.stream, hforth]

end Outbound

end InterceptingProxy
