import Mathlib.Tactic.Common
import InterceptingProxy.Stream

set_option autoImplicit false

/-! # Room in the writing half

However it splits what it is given, a writing half takes a number of bytes that is known beforehand
(`Sink.room?`): as long as there is room, every write takes at least one byte (`Sink.write_cases`),
and where there is none left the next write fails. So writing everything takes all bytes if they fit
(`Sink.writeAll_of_fits`), and else those that there is room for (`Sink.writeAll_of_room_lt`). -/

namespace InterceptingProxy.Sink

/-- How many more bytes the writing half takes, and how the write after them fails; none if no
    write ever fails. A write that takes nothing counts as a failure. -/
def room? (s : Sink) : Option (Nat × IoError) :=
  if s.maxWrite = some 0 then
    match s.limit with
    | some (most, e) => some (0, if most ≤ s.written.length then e else .writeZero)
    | none => some (0, .writeZero)
  else s.limit.map fun (most, e) => (most - s.written.length, e)

/-- There is room for `count` bytes. -/
def Fits (s : Sink) (count : Nat) : Prop := ∀ w e, s.room? = some (w, e) → count ≤ w

/-- `after` is what `before` becomes by taking bytes. -/
structure Took (before : Sink) (bytes : Bytes) (after : Sink) : Prop where
  written : after.written = before.written ++ bytes
  room : after.room? = before.room?.map fun (w, e) => (w - bytes.length, e)
  shutdowns : after.shutdowns = before.shutdowns
  shutdownError : after.shutdownError = before.shutdownError

variable {s s' s'' : Sink} {bytes more : Bytes} {w : Nat} {e : IoError}

theorem fits_of_room (h : s.room? = some (w, e)) {count : Nat} : s.Fits count ↔ count ≤ w := by
  unfold Fits
  rw [h]
  simp

theorem fits_of_room_eq_none (h : s.room? = none) (count : Nat) : s.Fits count := by
  unfold Fits
  rw [h]
  simp

theorem fits_zero (s : Sink) : s.Fits 0 := fun w _ _ => Nat.zero_le w

theorem Fits.mono {count more : Nat} (h : s.Fits more) (hle : count ≤ more) : s.Fits count :=
  fun w e hroom => Nat.le_trans hle (h w e hroom)

namespace Took

/-- What is on record makes no difference to what is taken. -/
theorem record (h : s.Took bytes s') (slices : List Bytes) (answer : WriteAnswer) :
    s.Took bytes (s'.record slices answer) where
  written := h.written
  room := h.room
  shutdowns := h.shutdowns
  shutdownError := h.shutdownError

theorem refl (s : Sink) : s.Took [] s where
  written := (List.append_nil _).symm
  room := by cases s.room? <;> rfl
  shutdowns := rfl
  shutdownError := rfl

theorem trans (h : s.Took bytes s') (h' : s'.Took more s'') : s.Took (bytes ++ more) s'' where
  written := by rw [h'.written, h.written, List.append_assoc]
  room := by
    rw [h'.room, h.room, Option.map_map]
    refine congrArg (s.room?.map ·) (funext fun _ => ?_)
    simp only [Function.comp_apply, List.length_append, Nat.sub_sub]
  shutdowns := h'.shutdowns.trans h.shutdowns
  shutdownError := h'.shutdownError.trans h.shutdownError

theorem room_eq (h : s.Took bytes s') (hroom : s.room? = some (w, e)) :
    s'.room? = some (w - bytes.length, e) := by
  rw [h.room, hroom, Option.map_some]

/-- Where some bytes fit, what fits behind them fits once they are taken. -/
theorem fits_iff (h : s.Took bytes s') (hfits : s.Fits bytes.length) {count : Nat} :
    s'.Fits count ↔ s.Fits (bytes.length + count) := by
  cases hroom : s.room? with
  | none =>
      have hroom' : s'.room? = none := by rw [h.room, hroom, Option.map_none]
      simp only [fits_of_room_eq_none hroom, fits_of_room_eq_none hroom']
  | some room =>
      rw [fits_of_room hroom] at hfits
      rw [fits_of_room (h.room_eq hroom), fits_of_room hroom]
      omega

end Took

/-! ## One write -/

theorem portion_le (s : Sink) (n : Nat) : s.portion n ≤ n := by
  unfold portion
  split <;> omega

/-- Only a limit of nothing makes a write take nothing. -/
theorem portion_eq_zero_iff {n : Nat} (hn : 0 < n) : s.portion n = 0 ↔ s.maxWrite = some 0 := by
  unfold portion
  split
  · next most next _ hmax _ =>
      have hnext := next.property
      rw [hmax, Option.some_inj]
      omega
  · next most hmax _ =>
      rw [hmax, Option.some_inj]
      omega
  · next next _ hmax _ =>
      have hnext := next.property
      simp only [hmax, reduceCtorEq, iff_false]
      omega
  · next hmax _ =>
      simp only [hmax, reduceCtorEq, iff_false]
      omega

theorem room?_of_maxWrite_zero (h : s.maxWrite = some 0) : ∃ e, s.room? = some (0, e) := by
  simp only [room?, if_pos h]
  split
  · exact ⟨_, rfl⟩
  · exact ⟨_, rfl⟩

theorem took_advance {n : Nat} (hn : n ≤ bytes.length) (hfits : s.Fits n) :
    s.Took (bytes.take n) (s.advance bytes n) where
  written := rfl
  room := by
    have hlength : (s.advance bytes n).written.length = s.written.length + n := by
      simp [advance, Nat.min_eq_left hn]
    rw [List.length_take_of_le hn]
    by_cases hzero : s.maxWrite = some 0
    · -- there is no room, so nothing is taken
      obtain ⟨e, hroom⟩ := room?_of_maxWrite_zero hzero
      obtain rfl : n = 0 := Nat.le_zero.1 ((fits_of_room hroom).1 hfits)
      have hsame : (s.advance bytes 0).room? = s.room? := by
        simp only [room?, hlength, Nat.add_zero]
        rfl
      rw [hsame, hroom]
      rfl
    · have hroom : s.room? = s.limit.map fun (most, e) => (most - s.written.length, e) :=
        if_neg hzero
      have hroom' : (s.advance bytes n).room? =
          s.limit.map fun (most, e) => (most - (s.written.length + n), e) := by
        rw [← hlength]
        exact if_neg hzero
      rw [hroom, hroom', Option.map_map]
      simp only [Function.comp_def, Nat.sub_sub]
  shutdowns := rfl
  shutdownError := rfl

theorem accepts_cases (s : Sink) {n : Nat} (hn : 0 < n) :
    (∃ m, s.accepts n = .ok m ∧ 0 < m ∧ m ≤ n ∧ s.Fits m) ∨
    ∃ e, s.room? = some (0, e) ∧
      (s.accepts n = .error e ∨ e = .writeZero ∧ s.accepts n = .ok 0) := by
  have hle := s.portion_le n
  have hzero_iff := portion_eq_zero_iff (s := s) hn
  cases hlimit : s.limit with
  | none =>
      have haccepts : s.accepts n = .ok (s.portion n) := by simp only [accepts, hlimit]
      by_cases hzero : s.maxWrite = some 0
      · rw [hzero_iff.2 hzero] at haccepts
        exact .inr ⟨_, by simp only [room?, if_pos hzero, hlimit], .inr ⟨rfl, haccepts⟩⟩
      · have hroom : s.room? = none := by
          simp only [room?, if_neg hzero, hlimit, Option.map_none]
        exact .inl ⟨_, haccepts, Nat.pos_of_ne_zero (mt hzero_iff.1 hzero), hle,
          fits_of_room_eq_none hroom _⟩
  | some limit =>
      obtain ⟨most, e⟩ := limit
      by_cases hfull : most ≤ s.written.length
      · exact .inr ⟨e, by simp [room?, hlimit, hfull],
          .inl (by simp only [accepts, hlimit, if_pos hfull])⟩
      · have haccepts : s.accepts n = .ok (min (s.portion n) (most - s.written.length)) := by
          simp only [accepts, hlimit, if_neg hfull]
        by_cases hzero : s.maxWrite = some 0
        · rw [hzero_iff.2 hzero, Nat.zero_min] at haccepts
          exact .inr ⟨_, by simp only [room?, if_pos hzero, hlimit, if_neg hfull],
            .inr ⟨rfl, haccepts⟩⟩
        · have hroom : s.room? = some (most - s.written.length, e) := by
            simp only [room?, if_neg hzero, hlimit, Option.map_some]
          have hsome := Nat.pos_of_ne_zero (mt hzero_iff.1 hzero)
          exact .inl ⟨_, haccepts, Nat.lt_min.2 ⟨hsome, Nat.sub_pos_of_lt (Nat.lt_of_not_le hfull)⟩,
            Nat.le_trans (Nat.min_le_left _ _) hle, (fits_of_room hroom).2 (Nat.min_le_right _ _)⟩

theorem write_of_accepts {n : Nat} (h : s.accepts bytes.length = .ok n) :
    s.write bytes = (.ok n, (s.advance bytes n).record [bytes] (.took n)) := by
  simp only [write, offer, h]

theorem write_of_refuses (h : s.accepts bytes.length = .error e) :
    s.write bytes = (.error e, s.record [bytes] (.failed e)) := by
  simp only [write, offer, h]

/-- **A write takes something as long as there is room**, and fails where there is none. -/
theorem write_cases (s : Sink) (hne : bytes ≠ []) :
    (∃ n after, s.write bytes = (.ok n, after) ∧ 0 < n ∧ n ≤ bytes.length ∧ s.Fits n ∧
      s.Took (bytes.take n) after) ∨
    ∃ e after, s.room? = some (0, e) ∧
      (s.write bytes = (.error e, after) ∨ e = .writeZero ∧ s.write bytes = (.ok 0, after)) ∧
      s.Took [] after := by
  obtain ⟨n, haccepts, hn, hle, hfits⟩ | ⟨e, hroom, haccepts | ⟨he, haccepts⟩⟩ :=
    s.accepts_cases (List.length_pos_iff.2 hne)
  · exact .inl ⟨n, _, write_of_accepts haccepts, hn, hle, hfits,
      (took_advance hle hfits).record _ _⟩
  · exact .inr ⟨e, _, hroom, .inl (write_of_refuses haccepts), (Took.refl s).record _ _⟩
  · exact .inr ⟨e, _, hroom, .inr ⟨he, write_of_accepts haccepts⟩,
      (took_advance (Nat.zero_le _) (fits_zero s)).record _ _⟩

/-! ## Writing everything -/

theorem writeAllWithin_of_write_ok {fuel n : Nat} (hne : bytes ≠ []) (hn : 0 < n)
    (hwrite : s.write bytes = (.ok n, s')) :
    s.writeAllWithin (fuel + 1) bytes = s'.writeAllWithin fuel (bytes.drop n) := by
  obtain ⟨n, rfl⟩ := Nat.exists_eq_succ_of_ne_zero (Nat.ne_of_gt hn)
  rw [writeAllWithin, hwrite]
  · rfl
  · exact hne

/-- A write that finds no room ends the writing. -/
theorem writeAllWithin_of_no_room {fuel : Nat} (hne : bytes ≠ [])
    (hwrite : s.write bytes = (.error e, s') ∨ e = .writeZero ∧ s.write bytes = (.ok 0, s')) :
    s.writeAllWithin (fuel + 1) bytes = (.error e, s') := by
  obtain hwrite | ⟨rfl, hwrite⟩ := hwrite
  · rw [writeAllWithin, hwrite]
    exact hne
  · rw [writeAllWithin, hwrite]
    · rfl
    · exact hne

theorem writeAllWithin_of_fits {fuel : Nat} (hfuel : bytes.length < fuel)
    (hfits : s.Fits bytes.length) :
    ∃ after, s.writeAllWithin fuel bytes = (.ok (), after) ∧ s.Took bytes after := by
  induction fuel generalizing bytes s with
  | zero => exact absurd hfuel (Nat.not_lt_zero _)
  | succ fuel ih =>
      by_cases hne : bytes = []
      · subst hne
        exact ⟨s, rfl, .refl s⟩
      · obtain ⟨n, s', hwrite, hn, hle, hroom, htook⟩ | ⟨e, -, hroom, -, -⟩ := s.write_cases hne
        · have hlength : (bytes.take n).length + (bytes.drop n).length = bytes.length := by
            rw [← List.length_append, List.take_append_drop]
          have hrest : s'.Fits (bytes.drop n).length := by
            rwa [htook.fits_iff (by rwa [List.length_take_of_le hle]), hlength]
          obtain ⟨after, hafter, htook'⟩ := ih (by rw [List.length_drop]; omega) hrest
          refine ⟨after, ?_, ?_⟩
          · rw [writeAllWithin_of_write_ok hne hn hwrite, hafter]
          · have hall := htook.trans htook'
            rwa [List.take_append_drop] at hall
        · rw [fits_of_room hroom, Nat.le_zero, List.length_eq_zero_iff] at hfits
          exact absurd hfits hne

theorem writeAllWithin_of_room_lt {fuel : Nat} (bytes : Bytes) (hfuel : bytes.length < fuel)
    (hroom : s.room? = some (w, e)) (hw : w < bytes.length) :
    ∃ after, s.writeAllWithin fuel bytes = (.error e, after) ∧ s.Took (bytes.take w) after := by
  induction fuel generalizing bytes s w with
  | zero => exact absurd hfuel (Nat.not_lt_zero _)
  | succ fuel ih =>
      have hne : bytes ≠ [] := List.length_pos_iff.1 (Nat.zero_lt_of_lt hw)
      obtain ⟨n, s', hwrite, hn, hle, hfits, htook⟩ | ⟨e', s', hroom', hwrite, htook⟩ :=
        s.write_cases hne
      · rw [fits_of_room hroom] at hfits
        have hroom' := htook.room_eq hroom
        rw [List.length_take_of_le hle] at hroom'
        have hlength : (bytes.drop n).length = bytes.length - n := List.length_drop
        obtain ⟨after, hafter, htook'⟩ :=
          ih (bytes.drop n) (by omega) hroom' (by omega)
        refine ⟨after, ?_, ?_⟩
        · rw [writeAllWithin_of_write_ok hne hn hwrite, hafter]
        · have hall := htook.trans htook'
          rwa [← List.take_add, Nat.add_sub_of_le hfits] at hall
      · rw [hroom, Option.some_inj, Prod.mk.injEq] at hroom'
        obtain ⟨rfl, rfl⟩ := hroom'
        exact ⟨s', writeAllWithin_of_no_room hne hwrite, htook⟩

/-- **Bytes that fit are all written.** -/
theorem writeAll_of_fits (hfits : s.Fits bytes.length) :
    ∃ after, s.writeAll bytes = (.ok (), after) ∧ s.Took bytes after :=
  writeAllWithin_of_fits (Nat.lt_succ_self _) hfits

/-- **Of bytes that do not fit, those are written that there is room for.** -/
theorem writeAll_of_room_lt (hroom : s.room? = some (w, e)) (hw : w < bytes.length) :
    ∃ after, s.writeAll bytes = (.error e, after) ∧ s.Took (bytes.take w) after :=
  writeAllWithin_of_room_lt bytes (Nat.lt_succ_self _) hroom hw

end InterceptingProxy.Sink
