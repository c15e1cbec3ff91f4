import Mathlib.Tactic.Common
import InterceptingProxy.Http.Head

set_option autoImplicit false

/-! # Where a head ends

A machine that reads a head one byte at a time has made up its mind for good once it has: more bytes
change neither a complete head nor a malformed one, and any part of a head is incomplete. So the
bytes that open with a head do so in one way (`OpensWith`), and reading them finds this head with
what follows it (`opensWith_iff`). -/

namespace InterceptingProxy.Http

/-! ## More and fewer bytes -/

/-- What is known when more bytes follow. -/
def Parsed.followedBy {α : Type} (more : Bytes) : Parsed α → Parsed α
  | .incomplete => .incomplete
  | .malformed f => .malformed f
  | .complete head rest => .complete head (rest ++ more)

section Feed

variable {σ α : Type} {step : σ → UInt8 → Progress σ α} {s : σ} {head : α} {bytes rest : Bytes}

/-- Once a machine has finished it does not look at what follows. -/
theorem feed_append (h : feed step s bytes ≠ .incomplete) (more : Bytes) :
    feed step s (bytes ++ more) = (feed step s bytes).followedBy more := by
  induction bytes generalizing s with
  | nil => exact absurd rfl h
  | cons b bytes ih =>
      rw [List.cons_append]
      unfold feed at h ⊢
      cases hstep : step s b with
      | more next =>
          simp only [hstep] at h ⊢
          exact ih h
      | done result => rfl
      | fault f => rfl

theorem feed_append_of_complete (h : feed step s bytes = .complete head rest) (more : Bytes) :
    feed step s (bytes ++ more) = .complete head (rest ++ more) := by
  rw [feed_append (by rw [h]; exact nofun), h, Parsed.followedBy]

theorem feed_append_of_malformed {f : HeadFault} (h : feed step s bytes = .malformed f)
    (more : Bytes) : feed step s (bytes ++ more) = .malformed f := by
  rw [feed_append (by rw [h]; exact nofun), h, Parsed.followedBy]

/-- The bytes before the rest are a head on their own. -/
theorem exists_head_of_feed (h : feed step s bytes = .complete head rest) :
    ∃ read, bytes = read ++ rest ∧ feed step s read = .complete head [] := by
  induction bytes generalizing s with
  | nil => cases h
  | cons b bytes ih =>
      unfold feed at h
      cases hstep : step s b with
      | more next =>
          simp only [hstep] at h
          obtain ⟨read, hread, hhead⟩ := ih h
          refine ⟨b :: read, congrArg (b :: ·) hread, ?_⟩
          simp only [feed, hstep, hhead]
      | done result =>
          simp only [hstep] at h
          cases h
          refine ⟨[b], rfl, ?_⟩
          simp only [feed, hstep]
      | fault f =>
          simp only [hstep] at h
          cases h

/-- What is not known after some bytes is not known after fewer. -/
theorem feed_of_prefix {part : Bytes} (hpart : part <+: bytes)
    (h : feed step s bytes = .incomplete) : feed step s part = .incomplete := by
  obtain ⟨more, rfl⟩ := hpart
  by_contra hknown
  rw [feed_append hknown] at h
  cases hpart : feed step s part with
  | incomplete => exact hknown hpart
  | malformed f =>
      rw [hpart] at h
      cases h
  | complete head rest =>
      rw [hpart] at h
      cases h

/-- A part of a head is incomplete. -/
theorem feed_of_part {part : Bytes} (hpart : part <+: bytes) (hlt : part.length < bytes.length)
    (h : feed step s bytes = .complete head []) : feed step s part = .incomplete := by
  obtain ⟨more, rfl⟩ := hpart
  by_contra hknown
  rw [feed_append hknown] at h
  cases hpart : feed step s part with
  | incomplete => exact hknown hpart
  | malformed f =>
      rw [hpart] at h
      cases h
  | complete head' rest =>
      -- the head would be there without the bytes that follow the part
      rw [hpart, Parsed.followedBy, Parsed.complete.injEq, List.append_eq_nil_iff] at h
      rw [h.2.2, List.append_nil] at hlt
      exact absurd hlt (Nat.lt_irrefl _)

end Feed

/-! ## Response heads -/

/-- The first `length` bytes are a head, and fewer are none. -/
structure OpensWith (bytes : Bytes) (length : Nat) (head : ResponseHead) : Prop where
  length_le : length ≤ bytes.length
  isHead : ResponseHead.parse (bytes.take length) = .complete head []
  shortest : ∀ n < length, ∀ head', ResponseHead.parse (bytes.take n) ≠ .complete head' []

variable {bytes rest : Bytes} {head : ResponseHead}

/-- **Reading finds the shortest head**, and what follows it. -/
theorem opensWith_iff {length : Nat} :
    OpensWith bytes length head ↔
      length ≤ bytes.length ∧
        ResponseHead.parse bytes = .complete head (bytes.drop length) := by
  constructor
  · intro h
    have hall := feed_append_of_complete h.isHead (bytes.drop length)
    rw [List.take_append_drop, List.nil_append] at hall
    exact ⟨h.length_le, hall⟩
  · rintro ⟨hle, hparse⟩
    obtain ⟨read, hbytes, hhead⟩ := exists_head_of_feed hparse
    have hsame : bytes.take length ++ bytes.drop length = read ++ bytes.drop length := by
      rw [List.take_append_drop]
      exact hbytes
    have hread : bytes.take length = read := List.append_cancel_right hsame
    rw [← hread] at hhead
    refine ⟨hle, hhead, fun n hn head' hcomplete => ?_⟩
    have hpart : bytes.take n <+: bytes.take length :=
      List.take_prefix_take_left (Nat.le_of_lt hn)
    have hlt : (bytes.take n).length < (bytes.take length).length := by
      rw [List.length_take, List.length_take]
      omega
    have hincomplete : ResponseHead.parse (bytes.take n) = .incomplete :=
      feed_of_part hpart hlt hhead
    rw [hincomplete] at hcomplete
    cases hcomplete

/-- A head is read where its bytes come first. -/
theorem OpensWith.of_parse (h : ResponseHead.parse bytes = .complete head rest) :
    OpensWith bytes (bytes.length - rest.length) head := by
  obtain ⟨read, rfl, -⟩ := exists_head_of_feed h
  have hlength : (read ++ rest).length - rest.length = read.length := by
    rw [List.length_append, Nat.add_sub_cancel]
  rw [hlength, opensWith_iff, List.drop_left]
  exact ⟨by simp, h⟩

/-- A head at the start of fewer bytes. -/
theorem OpensWith.of_take {most length : Nat} (h : OpensWith (bytes.take most) length head) :
    OpensWith bytes length head ∧ length ≤ most := by
  have hle : length ≤ most := Nat.le_trans h.length_le (List.length_take_le most bytes)
  have htake : ∀ n ≤ length, (bytes.take most).take n = bytes.take n := fun n hn => by
    rw [List.take_take, Nat.min_eq_left (Nat.le_trans hn hle)]
  refine ⟨⟨Nat.le_trans h.length_le (List.length_take_le' most bytes), ?_, fun n hn => ?_⟩, hle⟩
  · rw [← htake length (Nat.le_refl length)]
    exact h.isHead
  · rw [← htake n (Nat.le_of_lt hn)]
    exact h.shortest n hn

/-- Malformed bytes are so at the start of more. -/
theorem parse_take_of_malformed {n most : Nat} {f : HeadFault} (hle : n ≤ most)
    (h : ResponseHead.parse (bytes.take n) = .malformed f) :
    ResponseHead.parse (bytes.take most) = .malformed f := by
  obtain ⟨more, hmore⟩ := List.take_prefix_take_left (l := bytes) hle
  rw [← hmore]
  exact feed_append_of_malformed h more

end InterceptingProxy.Http
