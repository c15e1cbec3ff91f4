import Mathlib.Data.List.Basic
import InterceptingProxy.Text

set_option autoImplicit false

/-! # Cutting lists

What the functions that search and cut lists return, said by how the list is put together from the
pieces: `stripPrefix` and `stripSuffix` take an end off (`stripPrefix_eq_some_iff`,
`stripSuffix_eq_some_iff`), `splitOn` is that of the standard library (`splitOn_eq`). A map that
neither makes nor loses separators can be applied before or after the cut (`splitFirst_map`,
`splitLast_map`). -/

namespace InterceptingProxy

variable {α : Type}

/-! ## Ends of one kind -/

variable {p : α → Bool}

theorem dropEndWhile_append_of_pos {back : List α} (h : ∀ a ∈ back, p a = true) (l : List α) :
    dropEndWhile p (l ++ back) = dropEndWhile p l := by
  have hback : ∀ a ∈ back.reverse, p a = true := fun a ha => h a (List.mem_reverse.1 ha)
  rw [dropEndWhile, List.reverse_append, List.dropWhile_append_of_pos hback, dropEndWhile]

theorem dropEndWhile_map {f : α → α} (hf : ∀ a, p (f a) = p a) (l : List α) :
    dropEndWhile p (l.map f) = (dropEndWhile p l).map f := by
  have hsame : p ∘ f = p := funext hf
  rw [dropEndWhile, dropEndWhile, ← List.map_reverse, List.dropWhile_map, hsame, List.map_reverse]

/-! ## Joining -/

theorem intercalate_append {sep : α} {front back : List (List α)} (hfront : front ≠ [])
    (hback : back ≠ []) :
    [sep].intercalate (front ++ back) =
      [sep].intercalate front ++ sep :: [sep].intercalate back := by
  induction front with
  | nil => exact absurd rfl hfront
  | cons piece front ih =>
      by_cases hlast : front = []
      · simp [hlast, List.intercalate_cons_of_ne_nil hback]
      · have hmore : front ++ back ≠ [] := List.append_ne_nil_of_left_ne_nil hlast back
        simp [List.intercalate_cons_of_ne_nil hlast, List.intercalate_cons_of_ne_nil hmore,
          ih hlast]

variable [DecidableEq α]

/-! ## Ends that must be there -/

theorem stripPrefix_eq_some_iff {start l rest : List α} :
    stripPrefix start l = some rest ↔ l = start ++ rest := by
  induction start generalizing l with
  | nil => simp [stripPrefix]
  | cons s start ih =>
      cases l with
      | nil => simp [stripPrefix]
      | cons a l =>
          by_cases hs : s = a
          · simp [stripPrefix, hs, ih]
          · simp [stripPrefix, hs, Ne.symm hs]

theorem stripPrefix_eq_none_iff {start l : List α} :
    stripPrefix start l = none ↔ ¬ start <+: l := by
  rw [Option.eq_none_iff_forall_ne_some]
  constructor
  · rintro hnone ⟨rest, rfl⟩
    exact hnone rest (stripPrefix_eq_some_iff.2 rfl)
  · intro hnot rest hrest
    exact hnot ⟨rest, (stripPrefix_eq_some_iff.1 hrest).symm⟩

theorem stripSuffix_eq_some_iff {ending l rest : List α} :
    stripSuffix ending l = some rest ↔ l = rest ++ ending := by
  simp only [stripSuffix, Option.map_eq_some_iff, stripPrefix_eq_some_iff]
  constructor
  · rintro ⟨back, hback, rfl⟩
    rw [← List.reverse_reverse l, hback, List.reverse_append, List.reverse_reverse]
  · rintro rfl
    exact ⟨rest.reverse, List.reverse_append, List.reverse_reverse rest⟩

/-! ## Runs -/

theorem containsRun_iff {piece l : List α} : containsRun piece l = true ↔ piece <:+: l := by
  induction l with
  | nil => simp [containsRun]
  | cons a l ih =>
      rw [containsRun, Bool.or_eq_true, List.isPrefixOf_iff_prefix, ih, List.infix_cons_iff]

/-! ## Pieces -/

theorem splitOn_eq (sep : α) (l : List α) : splitOn sep l = l.splitOn sep := by
  induction l with
  | nil => rfl
  | cons a l ih =>
      rw [splitOn, List.splitOn_cons_eq_if_modifyHead, ih]
      by_cases ha : a = sep
      · simp [ha]
      · simp only [ha, beq_iff_eq, if_false]
        cases hpieces : l.splitOn sep with
        | nil => exact absurd hpieces (List.splitOn_ne_nil sep l)
        | cons piece rest => rfl

theorem splitOn_of_not_mem {sep : α} {l : List α} (h : sep ∉ l) : splitOn sep l = [l] := by
  rw [splitOn_eq, List.splitOn_eq_singleton h]

/-- Pieces with a separator behind each of them are cut out again, and nothing is left. -/
theorem splitOn_flatMap_concat {sep : α} {pieces : List (List α)}
    (h : ∀ piece ∈ pieces, sep ∉ piece) :
    splitOn sep (pieces.flatMap (· ++ [sep])) = pieces ++ [[]] := by
  induction pieces with
  | nil => rfl
  | cons piece rest ih =>
      obtain ⟨hpiece, hrest⟩ := List.forall_mem_cons.1 h
      rw [List.flatMap_cons, List.append_assoc, List.singleton_append, splitOn_eq,
        List.splitOn_append_cons_self, List.splitOn_eq_singleton hpiece, ← splitOn_eq, ih hrest]
      rfl

/-! ## The first and the last separator -/

theorem splitFirst_map {sep : α} {f : α → α} (hf : ∀ a, f a = sep ↔ a = sep) (l : List α) :
    splitFirst sep (l.map f) = (splitFirst sep l).map (Prod.map (List.map f) (List.map f)) := by
  induction l with
  | nil => rfl
  | cons a l ih =>
      by_cases ha : a = sep
      · simp [splitFirst, hf, ha]
      · simp only [List.map_cons, splitFirst, hf, ha, if_false, ih, Option.map_map]
        rfl

theorem splitLast_map {sep : α} {f : α → α} (hf : ∀ a, f a = sep ↔ a = sep) (l : List α) :
    splitLast sep (l.map f) = (splitLast sep l).map (Prod.map (List.map f) (List.map f)) := by
  induction l with
  | nil => rfl
  | cons a l ih =>
      rw [List.map_cons, splitLast, splitLast, ih]
      cases splitLast sep l with
      | some cut => rfl
      | none => by_cases ha : a = sep <;> simp [hf, ha]

theorem splitFirst_append_cons {sep : α} {before after : List α} (h : sep ∉ before) :
    splitFirst sep (before ++ sep :: after) = some (before, after) := by
  induction before with
  | nil => simp [splitFirst]
  | cons a before ih =>
      obtain ⟨hne, hrest⟩ := not_or.1 (mt List.mem_cons.2 h)
      simp [splitFirst, Ne.symm hne, ih hrest]

theorem splitLast_of_not_mem {sep : α} {l : List α} (h : sep ∉ l) : splitLast sep l = none := by
  induction l with
  | nil => rfl
  | cons a l ih =>
      obtain ⟨hne, hrest⟩ := not_or.1 (mt List.mem_cons.2 h)
      simp [splitLast, ih hrest, Ne.symm hne]

theorem splitLast_append_cons {sep : α} {before after : List α} (h : sep ∉ after) :
    splitLast sep (before ++ sep :: after) = some (before, after) := by
  induction before with
  | nil => simp [splitLast, splitLast_of_not_mem h]
  | cons a before ih => simp [splitLast, ih]

theorem exists_splitLast_of_mem {sep : α} {l : List α} (h : sep ∈ l) :
    ∃ before after, splitLast sep l = some (before, after) ∧ l = before ++ sep :: after ∧
      sep ∉ after := by
  induction l with
  | nil => cases h
  | cons a l ih =>
      by_cases hlater : sep ∈ l
      · obtain ⟨before, after, hcut, hl, hafter⟩ := ih hlater
        exact ⟨a :: before, after, by simp [splitLast, hcut], by rw [hl, List.cons_append], hafter⟩
      · obtain rfl : a = sep := ((List.mem_cons.1 h).resolve_right hlater).symm
        exact ⟨[], l, by simp [splitLast, splitLast_of_not_mem hlater], rfl, hlater⟩

end InterceptingProxy
