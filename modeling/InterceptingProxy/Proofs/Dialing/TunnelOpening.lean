import InterceptingProxy.Dialing.Tunnel
import InterceptingProxy.Proofs.Http.HeadPrefixes
import InterceptingProxy.Proofs.Intake.Sniffing

set_option autoImplicit false

/-! # What opening a tunnel depends on

The answer of an outbound proxy is read in pieces of any size, and the limit for its head is tested
only between two reads, when up to `readSize` bytes too many may be there. Still the outcome is that
of the bytes: of the first `maxResponseHead` of them, and of whether there are more
(`Awaited`, `awaitHead_awaited`). Only the wording of a failure may differ, as a fault that lies
behind the limit is noticed if it came with the same read. -/

namespace InterceptingProxy

open Http

/-! ## Waiting for the head -/

/-- How waiting for a head ends when these bytes arrive, and then the end or a failure. -/
def Awaited (arriving : Bytes) (failure : Option IoError)
    (result : Except IoError (ResponseHead × Bytes × Connection)) : Prop :=
  match ResponseHead.parse (arriving.take maxResponseHead) with
  | .complete head rest =>
    ∃ left c, result = .ok (head, left, c) ∧
      left ++ c.arriving = rest ++ arriving.drop maxResponseHead ∧ c.failure? = failure
  | .malformed _ => ∃ e, result = .error e ∧ e.kind = .invalidData
  | .incomplete =>
    if maxResponseHead < arriving.length then ∃ e, result = .error e ∧ e.kind = .invalidData
    else result = .error (failure.getD TunnelError.unexpectedEof.toIoError)

variable {received more rest : Bytes} {failure : Option IoError} {head : ResponseHead}

/-- The bytes within the limit, where the first of them are a head. -/
theorem parse_take_of_complete (h : ResponseHead.parse received = .complete head rest)
    (hfew : received.length - rest.length ≤ maxResponseHead) (more : Bytes) :
    ∃ rest', ResponseHead.parse ((received ++ more).take maxResponseHead) = .complete head rest' ∧
      rest' ++ (received ++ more).drop maxResponseHead = rest ++ more := by
  obtain ⟨read, rfl, hhead⟩ := exists_head_of_feed h
  have hread : read.length ≤ maxResponseHead := by
    rw [List.length_append] at hfew
    omega
  refine ⟨(rest ++ more).take (maxResponseHead - read.length), ?_, ?_⟩
  · rw [List.append_assoc, List.take_append, List.take_of_length_le hread]
    exact feed_append_of_complete hhead _
  · rw [List.append_assoc, List.drop_append, List.drop_of_length_le hread, List.nil_append,
      List.take_append_drop]

/-- The bytes within the limit, where the head goes beyond it. -/
theorem parse_take_of_long_head (h : ResponseHead.parse received = .complete head rest)
    (hmany : maxResponseHead < received.length - rest.length) :
    ResponseHead.parse ((received ++ more).take maxResponseHead) = .incomplete := by
  obtain ⟨read, rfl, hhead⟩ := exists_head_of_feed h
  rw [List.length_append, Nat.add_sub_cancel] at hmany
  have hpart : ((read ++ rest ++ more).take maxResponseHead) <+: read := by
    rw [List.append_assoc, List.take_append_of_le_length (Nat.le_of_lt hmany)]
    exact List.take_prefix _ _
  exact feed_of_part hpart (Nat.lt_of_le_of_lt (List.length_take_le _ _) hmany) hhead

theorem awaited_of_malformed {f : HeadFault} {e : IoError}
    (h : ResponseHead.parse received = .malformed f) (he : e.kind = .invalidData) :
    Awaited (received ++ more) failure (.error e) := by
  have hall : ResponseHead.parse (received ++ more) = .malformed f :=
    feed_append_of_malformed h more
  unfold Awaited
  split
  · next head rest hcomplete =>
      -- a head within the limit would be one with all the bytes
      have hstill := feed_append_of_complete hcomplete ((received ++ more).drop maxResponseHead)
      rw [List.take_append_drop] at hstill
      rw [show ResponseHead.parse (received ++ more) = _ from hstill] at hall
      cases hall
  · exact ⟨e, rfl, he⟩
  · next hincomplete =>
      have hmany : maxResponseHead < (received ++ more).length := by
        by_contra hfew
        rw [List.take_of_length_le (Nat.not_lt.1 hfew), hall] at hincomplete
        cases hincomplete
      rw [if_pos hmany]
      exact ⟨e, rfl, he⟩

theorem awaited_of_long_head {e : IoError} (h : ResponseHead.parse received = .complete head rest)
    (hmany : maxResponseHead < received.length - rest.length) (he : e.kind = .invalidData) :
    Awaited (received ++ more) failure (.error e) := by
  have hlength : maxResponseHead < (received ++ more).length := by
    rw [List.length_append]
    omega
  simp only [Awaited, parse_take_of_long_head h hmany, if_pos hlength]
  exact ⟨e, rfl, he⟩

theorem awaited_of_many {e : IoError} (h : ResponseHead.parse received = .incomplete)
    (hmany : maxResponseHead < received.length) (he : e.kind = .invalidData) :
    Awaited (received ++ more) failure (.error e) := by
  have hlength : maxResponseHead < (received ++ more).length := by
    rw [List.length_append]
    omega
  have hparse : ResponseHead.parse ((received ++ more).take maxResponseHead) = .incomplete := by
    rw [List.take_append_of_le_length (Nat.le_of_lt hmany)]
    exact feed_of_prefix (List.take_prefix _ _) h
  simp only [Awaited, hparse, if_pos hlength]
  exact ⟨e, rfl, he⟩

theorem awaited_of_end (h : ResponseHead.parse received = .incomplete)
    (hfew : received.length ≤ maxResponseHead) :
    Awaited received failure (.error (failure.getD TunnelError.unexpectedEof.toIoError)) := by
  simp only [Awaited, List.take_of_length_le hfew, h, if_neg (Nat.not_lt.2 hfew)]

/-- **Waiting for a head ends as the bytes say**, however they come in. -/
theorem awaitHead_awaited {reads : Nat} {c : Connection}
    (h : ResponseHead.parse received = .incomplete) (hfew : received.length ≤ maxResponseHead)
    (hreads : maxResponseHead < received.length + reads) :
    Awaited (received ++ c.arriving) c.failure? (awaitHead reads received c) := by
  induction reads generalizing received c with
  | zero => exact absurd hfew (Nat.not_le.2 hreads)
  | succ reads ih =>
      rw [awaitHead]
      obtain ⟨e, c', hread, hnothing, hfailure⟩ | ⟨c', hread, hnothing, hfailure⟩ |
        ⟨bytes, c', hread, hbytes, harriving, hfailure⟩ :=
          Connection.read_cases (n := readSize) (by decide) c
      · simp only [hread, hnothing, List.append_nil, hfailure]
        exact awaited_of_end h hfew
      · simp only [hread, hnothing, List.append_nil, hfailure]
        exact awaited_of_end h hfew
      · have hsome : 0 < bytes.length := List.length_pos_iff.2 hbytes
        obtain ⟨b, left, rfl⟩ := List.exists_cons_of_ne_nil hbytes
        simp only [hread, harriving, hfailure, ← List.append_assoc]
        generalize hreceived : received ++ b :: left = received'
        have hlength : received'.length = received.length + (b :: left).length := by
          rw [← hreceived, List.length_append]
        cases hparse : ResponseHead.parse received' with
        | malformed f => exact awaited_of_malformed hparse rfl
        | complete head rest =>
            by_cases hmany : received'.length - rest.length > maxResponseHead
            · simp only [if_pos hmany]
              exact awaited_of_long_head hparse hmany rfl
            · simp only [if_neg hmany]
              obtain ⟨rest', htake, hrest⟩ :=
                parse_take_of_complete hparse (Nat.not_lt.1 hmany) c'.arriving
              simp only [Awaited, htake]
              exact ⟨rest, c', rfl, hrest.symm, rfl⟩
        | incomplete =>
            by_cases hmany : received'.length > maxResponseHead
            · simp only [if_pos hmany]
              exact awaited_of_many hparse hmany rfl
            · simp only [if_neg hmany]
              exact ih hparse (Nat.not_lt.1 hmany) (by omega)

/-! ## Opening a tunnel -/

section Opening

variable {proxy : HttpProxy} {target : Text} {c asked : Connection}

/-- Without a head there is no tunnel. -/
theorem openTunnel_of_error {e : IoError}
    (hasked : c.writeAll (proxy.connectRequest target).utf8 = (.ok (), asked))
    (hresult : awaitHead (maxResponseHead + 1) [] asked = .error e) :
    openTunnel proxy target c = .error e := by
  simp only [openTunnel, hasked, bind, Except.bind, pure, Except.pure, hresult]

/-- The code of the head decides. -/
theorem openTunnel_of_head {tunnel : Connection}
    (hasked : c.writeAll (proxy.connectRequest target).utf8 = (.ok (), asked))
    (hresult : awaitHead (maxResponseHead + 1) [] asked = .ok (head, rest, tunnel)) :
    openTunnel proxy target c =
      if 200 ≤ head.code ∧ head.code < 300 then .ok (tunnel.withPrefix rest)
      else .error (TunnelError.refused proxy.address target
        (Text.ofNat head.code ++ ' ' :: head.reason)).toIoError := by
  simp only [openTunnel, hasked, bind, Except.bind, pure, Except.pure, hresult]
  rfl

section Outcomes

variable (hasked : c.writeAll (proxy.connectRequest target).utf8 = (.ok (), asked))
  (hend : c.failure? = none)

include hasked hend

theorem awaited_of_asked :
    Awaited c.arriving none (awaitHead (maxResponseHead + 1) [] asked) := by
  obtain ⟨harriving, hfailure⟩ := Connection.writeAll_reading hasked
  rw [← harriving, ← hend, ← hfailure]
  have hfuel : maxResponseHead < ([] : Bytes).length + (maxResponseHead + 1) := by simp
  exact awaitHead_awaited rfl (Nat.zero_le _) hfuel

theorem openTunnel_of_opensWith {length : Nat} (hhead : OpensWith c.arriving length head)
    (hle : length ≤ maxResponseHead) :
    (200 ≤ head.code ∧ head.code < 300 →
      ∃ tunnel, openTunnel proxy target c = .ok tunnel ∧
        tunnel.Delivers (c.arriving.drop length)) ∧
    (¬ (200 ≤ head.code ∧ head.code < 300) →
      ∃ e, openTunnel proxy target c = .error e ∧ e.kind = .connectionRefused) := by
  obtain ⟨hlength, hparse⟩ := opensWith_iff.1 hhead
  have hwithin : c.arriving.length - (c.arriving.drop length).length ≤ maxResponseHead := by
    rw [List.length_drop]
    omega
  obtain ⟨rest', htake, hrest⟩ := parse_take_of_complete hparse hwithin []
  rw [List.append_nil] at htake hrest
  have hawaited := awaited_of_asked hasked hend
  simp only [Awaited, htake] at hawaited
  obtain ⟨left, tunnel, hresult, hleft, htunnel⟩ := hawaited
  rw [hrest, List.append_nil] at hleft
  have hopen := openTunnel_of_head hasked hresult
  refine ⟨fun hcode => ?_, fun hcode => ?_⟩
  · rw [if_pos hcode] at hopen
    refine ⟨_, hopen, ?_⟩
    rw [← hleft]
    have hdelivers := Connection.delivers_arriving (c := tunnel.withPrefix left) htunnel
    rwa [Connection.withPrefix, Connection.arriving_peekable] at hdelivers
  · rw [if_neg hcode] at hopen
    exact ⟨_, hopen, rfl⟩

theorem openTunnel_of_invalid
    (hinvalid : (∃ n ≤ maxResponseHead, ∃ f,
        ResponseHead.parse (c.arriving.take n) = .malformed f) ∨
      (maxResponseHead < c.arriving.length ∧
        ∀ length head, OpensWith c.arriving length head → maxResponseHead < length)) :
    ∃ e, openTunnel proxy target c = .error e ∧ e.kind = .invalidData := by
  have hawaited := awaited_of_asked hasked hend
  unfold Awaited at hawaited
  split at hawaited
  · next head rest htake =>
      obtain ⟨hhead, hle⟩ := (OpensWith.of_parse htake).of_take
      rcases hinvalid with ⟨n, hn, f, hf⟩ | ⟨-, hlong⟩
      · rw [parse_take_of_malformed hn hf] at htake
        cases htake
      · exact absurd hle (Nat.not_le.2 (hlong _ head hhead))
  · obtain ⟨e, hresult, he⟩ := hawaited
    exact ⟨e, openTunnel_of_error hasked hresult, he⟩
  · next htake =>
      rcases hinvalid with ⟨n, hn, f, hf⟩ | ⟨hmany, -⟩
      · rw [parse_take_of_malformed hn hf] at htake
        cases htake
      · rw [if_pos hmany] at hawaited
        obtain ⟨e, hresult, he⟩ := hawaited
        exact ⟨e, openTunnel_of_error hasked hresult, he⟩

theorem openTunnel_of_early_end (hfew : c.arriving.length ≤ maxResponseHead)
    (hnone : ∀ length head, ¬ OpensWith c.arriving length head)
    (hfine : ∀ n f, ResponseHead.parse (c.arriving.take n) ≠ .malformed f) :
    openTunnel proxy target c = .error TunnelError.unexpectedEof.toIoError := by
  have hawaited := awaited_of_asked hasked hend
  unfold Awaited at hawaited
  split at hawaited
  · next head rest htake => exact absurd (OpensWith.of_parse htake).of_take.1 (hnone _ head)
  · next f htake => exact absurd htake (hfine maxResponseHead f)
  · rw [if_neg (Nat.not_lt.2 hfew)] at hawaited
    exact openTunnel_of_error hasked hawaited

end Outcomes

/-- **Whether and how a tunnel opens depends on the bytes that the proxy answers with, and not on
    how they are parted.** A head within the limit opens it if its code is one of success, and then
    exactly what follows the head is to be read from the tunnel; any other code refuses it. Bytes
    that become malformed within the limit, or go beyond it without a head, are invalid, and fewer
    bytes end too early. -/
theorem tunnel_of_bytes
    (hasked : c.writeAll (proxy.connectRequest target).utf8 = (.ok (), asked))
    (hend : c.failure? = none) :
    (∀ length head, OpensWith c.arriving length head → length ≤ maxResponseHead →
      (200 ≤ head.code ∧ head.code < 300 →
        ∃ tunnel, openTunnel proxy target c = .ok tunnel ∧
          tunnel.Delivers (c.arriving.drop length)) ∧
      (¬ (200 ≤ head.code ∧ head.code < 300) →
        ∃ e, openTunnel proxy target c = .error e ∧ e.kind = .connectionRefused)) ∧
    ((∃ n ≤ maxResponseHead, ∃ f, ResponseHead.parse (c.arriving.take n) = .malformed f) ∨
        (maxResponseHead < c.arriving.length ∧
          ∀ length head, OpensWith c.arriving length head → maxResponseHead < length) →
      ∃ e, openTunnel proxy target c = .error e ∧ e.kind = .invalidData) ∧
    (c.arriving.length ≤ maxResponseHead →
      (∀ length head, ¬ OpensWith c.arriving length head) →
      (∀ n f, ResponseHead.parse (c.arriving.take n) ≠ .malformed f) →
      ∃ e, openTunnel proxy target c = .error e ∧ e.kind = .unexpectedEof) := by
  refine ⟨fun length head hhead hle => openTunnel_of_opensWith hasked hend hhead hle,
    openTunnel_of_invalid hasked hend, fun hfew hnone hfine => ?_⟩
  exact ⟨_, openTunnel_of_early_end hasked hend hfew hnone hfine, rfl⟩

end Opening

/-- A proxy that opens the tunnel, one that refuses it, and one that breaks off within its head. The
    pieces part the heads where they like. -/
def answering (pieces : List String) : Connection :=
  .raw { source := { chunks := pieces.map fun piece => .data (ascii piece) } }

theorem tunnel_of_bytes_in_pieces :
    let proxy : HttpProxy := { address := "p:80".toList }
    let target := "a:1".toList
    (∃ tunnel,
      openTunnel proxy target (answering ["HTTP/1.1 200 O", "K\r\n\r", "\nhel", "lo"]) =
        .ok tunnel ∧
        tunnel.Delivers (ascii "hello")) ∧
    (∃ e, openTunnel proxy target (answering ["HTTP/1.1 403 No\r\nvia: x\r\n", "\r\n"]) = .error e ∧
      e.kind = .connectionRefused) ∧
    (∃ e, openTunnel proxy target (answering ["HTTP/1.1 20", "0 OK\r\nvia"]) = .error e ∧
      e.kind = .unexpectedEof) ∧
    ∃ e, openTunnel proxy target (answering ["SSH", "-2.0"]) = .error e ∧
      e.kind = .invalidData := by
  intro proxy target
  have hasked : ∀ pieces, ∃ asked, (answering pieces).writeAll
      (proxy.connectRequest target).utf8 = (.ok (), asked) := fun pieces => ⟨_, rfl⟩
  refine ⟨?_, ?_, ?_, ?_⟩
  · obtain ⟨asked, h⟩ := hasked ["HTTP/1.1 200 O", "K\r\n\r", "\nhel", "lo"]
    have hhead : OpensWith (answering ["HTTP/1.1 200 O", "K\r\n\r", "\nhel", "lo"]).arriving 19
        ⟨200, "OK".toList, {}⟩ := opensWith_iff.2 ⟨by decide +kernel, by decide +kernel⟩
    exact ((tunnel_of_bytes h rfl).1 19 _ hhead (by decide)).1 (by decide)
  · obtain ⟨asked, h⟩ := hasked ["HTTP/1.1 403 No\r\nvia: x\r\n", "\r\n"]
    have hhead : OpensWith (answering ["HTTP/1.1 403 No\r\nvia: x\r\n", "\r\n"]).arriving 27
        ⟨403, "No".toList, ⟨[("via".toList, ascii "x")]⟩⟩ :=
      opensWith_iff.2 ⟨by decide +kernel, by decide +kernel⟩
    exact ((tunnel_of_bytes h rfl).1 27 _ hhead (by decide)).2 (by decide)
  · obtain ⟨asked, h⟩ := hasked ["HTTP/1.1 20", "0 OK\r\nvia"]
    have hparse : ResponseHead.parse (answering ["HTTP/1.1 20", "0 OK\r\nvia"]).arriving =
        .incomplete := by decide +kernel
    refine (tunnel_of_bytes h rfl).2.2 (by decide +kernel) (fun n head hhead => ?_)
      (fun n f hf => ?_)
    · rw [(opensWith_iff.1 hhead).2] at hparse
      cases hparse
    · have hpart : ResponseHead.parse _ = .incomplete :=
        feed_of_prefix (List.take_prefix n _) hparse
      rw [hpart] at hf
      cases hf
  · obtain ⟨asked, h⟩ := hasked ["SSH", "-2.0"]
    exact (tunnel_of_bytes h rfl).2.1 (.inl ⟨1, by decide, .version, by decide +kernel⟩)

end InterceptingProxy
