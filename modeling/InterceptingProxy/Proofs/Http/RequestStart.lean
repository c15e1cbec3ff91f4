import Mathlib.Tactic.Common
import InterceptingProxy.Http.Http1

set_option autoImplicit false

/-! # How a request starts

A request head is read one byte at a time, and each state of the machine tells what it has read
(`RequestScan.HasRead`): the method, a blank, the target, another blank and then the version. So
what follows from the head of a complete request holds of the first bytes as well: they are its
method and its target as they were sent (`RequestHead.start_of_parse`), unless empty lines come
first. -/

namespace InterceptingProxy.Http

/-- The start of a request line, up to the version. -/
def startLine (method target : Bytes) : Bytes :=
  method ++ sp :: (target ++ sp :: ResponseScan.versionStart)

namespace RequestScan

/-- The bytes `read` lead to the scan, if no empty line was among them. -/
def HasRead (read : Bytes) : RequestScan → Prop
  | .before _ => False
  | .method m => read = m
  | .target m t => read = m ++ sp :: t
  | .version m t expected => read ++ expected = startLine m t
  | .minorVersion m t => read = startLine m t
  | .lineEnd m t _ _ | .fields m t _ _ => startLine m t <+: read

variable {s s' : RequestScan} {read : Bytes} {b : UInt8}

theorem HasRead.step (h : s.HasRead read) (hstep : s.step b = .more s') :
    s'.HasRead (read ++ [b]) := by
  cases s with
  | before returned => exact h.elim
  | method m =>
      obtain rfl : read = m := h
      simp only [RequestScan.step] at hstep
      split at hstep
      · next hb =>
          cases hstep
          rw [hb]
          exact rfl
      · split at hstep
        · cases hstep
          exact rfl
        · cases hstep
  | target m t =>
      obtain rfl : read = m ++ sp :: t := h
      simp only [RequestScan.step] at hstep
      split at hstep
      · next hb =>
          split at hstep
          · cases hstep
          · cases hstep
            simp [HasRead, startLine, hb]
      · split at hstep
        · cases hstep
          simp [HasRead]
        · cases hstep
  | version m t expected =>
      have hread : read ++ expected = startLine m t := h
      match expected, hstep with
      | [], hstep => cases hstep
      | [last], hstep =>
          simp only [RequestScan.step] at hstep
          split at hstep
          · next hb =>
              cases hstep
              rw [hb]
              exact hread
          · cases hstep
      | next :: further :: expected, hstep =>
          simp only [RequestScan.step] at hstep
          split at hstep
          · next hb =>
              cases hstep
              rw [HasRead, hb, List.append_assoc]
              exact hread
          · cases hstep
  | minorVersion m t =>
      obtain rfl : read = startLine m t := h
      simp only [RequestScan.step] at hstep
      split at hstep
      · cases hstep
        exact List.prefix_append _ _
      · split at hstep
        · cases hstep
          exact List.prefix_append _ _
        · cases hstep
  | lineEnd m t minor returned =>
      have hread : startLine m t <+: read ++ [b] := h.trans (List.prefix_append _ _)
      simp only [RequestScan.step] at hstep
      split at hstep
      · cases hstep
        exact hread
      · split at hstep
        · cases hstep
          exact hread
        · cases hstep
  | fields m t minor scan =>
      have hread : startLine m t <+: read ++ [b] := h.trans (List.prefix_append _ _)
      simp only [RequestScan.step] at hstep
      split at hstep
      · cases hstep
        exact hread
      · cases hstep
      · cases hstep

theorem HasRead.done {head : RequestHead} (h : s.HasRead read) (hstep : s.step b = .done head) :
    startLine head.method head.target <+: read := by
  cases s with
  | fields m t minor scan =>
      simp only [RequestScan.step] at hstep
      split at hstep
      · cases hstep
      · cases hstep
        exact h
      · cases hstep
  | before returned => exact h.elim
  | method m | target m t | version m t expected | minorVersion m t | lineEnd m t minor returned =>
      -- the fields come last
      simp only [RequestScan.step] at hstep
      repeat' split at hstep
      all_goals cases hstep

theorem HasRead.feed {head : RequestHead} {bytes rest : Bytes} (h : s.HasRead read)
    (hfeed : feed RequestScan.step s bytes = .complete head rest) :
    startLine head.method head.target <+: read ++ bytes := by
  induction bytes generalizing s read with
  | nil => cases hfeed
  | cons b bytes ih =>
      simp only [Http.feed] at hfeed
      split at hfeed
      · next s' hstep =>
          have hrest := ih (h.step hstep) hfeed
          rwa [List.append_assoc] at hrest
      · next head' hstep =>
          cases hfeed
          exact (h.done hstep).trans (List.prefix_append _ _)
      · cases hfeed

end RequestScan

/-- **A request starts with its method and its target**, unless empty lines come first. -/
theorem RequestHead.start_of_parse {head : RequestHead} {bytes rest : Bytes}
    (h : RequestHead.parse bytes = .complete head rest)
    (hfirst : bytes.head? ≠ some cr ∧ bytes.head? ≠ some lf) :
    startLine head.method head.target <+: bytes := by
  cases bytes with
  | nil => cases h
  | cons b bytes =>
      have hcr : b ≠ cr := fun hb => hfirst.1 (congrArg some hb)
      have hlf : b ≠ lf := fun hb => hfirst.2 (congrArg some hb)
      have hmethod : RequestScan.HasRead [b] (.method [b]) := rfl
      simp only [RequestHead.parse, feed, RequestScan.step, if_neg hcr, if_neg hlf] at h
      by_cases htoken : isTokenByte b = true
      · simp only [if_pos htoken] at h
        exact hmethod.feed h
      · simp only [if_neg htoken] at h
        cases h

end InterceptingProxy.Http
