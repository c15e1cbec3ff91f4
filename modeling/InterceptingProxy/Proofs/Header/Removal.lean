import Mathlib.Data.List.Basic
import InterceptingProxy.Call.Info

set_option autoImplicit false

/-! # Values that are left

What an operation does to a header is seen through the values of each name. Removing names removes
the values of these names and leaves those of all others in their order
(`Headers.values_removeAll`), and so it is with the other operations.

The trailers of a call that ended well become a last status for the caller exactly if they have a
field that is not of the status itself, and this status carries those fields and nothing else
(`Headers.trailerStatus?_eq_some_iff`). -/

namespace InterceptingProxy

namespace Headers

theorem fields_removeAll (h : Headers) (names : List Text) :
    (h.removeAll names).fields = h.fields.filter fun field => field.1 ∉ names := by
  unfold removeAll
  induction names generalizing h with
  | nil => exact (List.filter_eq_self.2 fun _ _ => rfl).symm
  | cons name rest ih =>
      rw [List.foldl_cons, ih (h.remove name), remove, List.filter_filter]
      refine List.filter_congr fun field _ => ?_
      simp only [List.mem_cons, not_or, Bool.decide_and, Bool.and_comm]

/-- Removed names have no values, and the values of other names stay. -/
theorem values_removeAll (h : Headers) (names : List Text) (name : Text) :
    (h.removeAll names).values name = if name ∈ names then [] else h.values name := by
  rw [values, fields_removeAll, List.filterMap_filter]
  split
  · next hmem =>
      refine List.filterMap_eq_nil_iff.2 fun field _ => ?_
      by_cases hname : field.1 = name
      · simp [hname, hmem]
      · simp [hname]
  · next hmem =>
      refine congrArg (h.fields.filterMap ·) (funext fun field => ?_)
      by_cases hname : field.1 = name
      · simp [hname, hmem]
      · simp [hname]

theorem mem_values_iff {h : Headers} {name : Text} {value : Bytes} :
    value ∈ h.values name ↔ (name, value) ∈ h.fields := by
  simp only [values, List.mem_filterMap, Option.ite_none_right_eq_some, Option.some.injEq]
  constructor
  · rintro ⟨field, hmem, rfl, rfl⟩
    exact hmem
  · intro hmem
    exact ⟨(name, value), hmem, rfl, rfl⟩

theorem removeAll_append (h : Headers) (names more : List Text) :
    h.removeAll (names ++ more) = (h.removeAll names).removeAll more :=
  List.foldl_append

theorem values_remove_of_ne {name other : Text} (h : Headers) (hne : other ≠ name) :
    (h.remove other).values name = h.values name := by
  have hremove : h.remove other = h.removeAll [other] := rfl
  rw [hremove, values_removeAll, if_neg (mt List.mem_singleton.1 hne.symm)]

theorem values_append_self (h : Headers) (name : Text) (value : Bytes) :
    (h.append name value).values name = h.values name ++ [value] := by
  simp [values, append]

theorem values_append_of_ne {name other : Text} (h : Headers) (value : Bytes)
    (hne : other ≠ name) : (h.append other value).values name = h.values name := by
  simp only [values, append, List.filterMap_append, List.filterMap_cons, List.filterMap_nil,
    if_neg hne, List.append_nil]

theorem values_insert_of_ne {name other : Text} (h : Headers) (value : Bytes)
    (hne : other ≠ name) : (h.insert other value).values name = h.values name := by
  rw [insert, values_append_of_ne _ _ hne, values_remove_of_ne _ hne]

theorem values_appendAll (h other : Headers) (name : Text) :
    (h.appendAll other).values name = h.values name ++ other.values name := by
  simp [values, appendAll]

theorem values_removeValues_self (h : Headers) (name : Text) (p : Bytes → Bool) :
    (h.removeValues name p).values name = (h.values name).filter (!p ·) := by
  unfold values removeValues
  rw [List.filterMap_filter, List.filter_filterMap]
  refine List.filterMap_congr fun field _ => ?_
  by_cases hname : field.1 = name
  · cases hp : p field.2 <;> simp [hname, hp, Option.filter]
  · simp [hname]

theorem values_removeValues_of_ne {name other : Text} (h : Headers) (p : Bytes → Bool)
    (hne : other ≠ name) : (h.removeValues name p).values other = h.values other := by
  unfold values removeValues
  rw [List.filterMap_filter]
  refine List.filterMap_congr fun field _ => ?_
  by_cases hother : field.1 = other
  · simp [hother, hne]
  · simp [hother]

/-- Values that are not there are removed by doing nothing. -/
theorem removeValues_eq_self {h : Headers} {name : Text} {p : Bytes → Bool}
    (hnone : ∀ value ∈ h.values name, p value = false) : h.removeValues name p = h := by
  have hfields : (h.removeValues name p).fields = h.fields := by
    rw [removeValues, List.filter_eq_self]
    intro field hmem
    by_cases hname : field.1 = name
    · simp [hnone field.2 (mem_values_iff.2 (hname ▸ hmem))]
    · simp [hname]
  exact congrArg Headers.mk hfields

theorem removeAll_isEmpty_iff (h : Headers) (names : List Text) :
    (h.removeAll names).fields = [] ↔ ∀ field ∈ h.fields, field.1 ∈ names := by
  rw [fields_removeAll, List.filter_eq_nil_iff]
  simp

/-- Trailers that say nothing but the status say no more. -/
theorem trailerStatus?_eq_none_iff (trailers : Headers) :
    trailers.trailerStatus? = none ↔ ∀ field ∈ trailers.fields, field.1 ∈ Status.fieldNames := by
  rw [← removeAll_isEmpty_iff, trailerStatus?]
  simp

/-- Trailers that say more say it in a status of their own. -/
theorem trailerStatus?_eq_some_iff (trailers : Headers) (s : Status) :
    trailers.trailerStatus? = some s ↔
      (∃ field ∈ trailers.fields, field.1 ∉ Status.fieldNames) ∧
        s = { code := .ok, metadata := trailers.removeAll Status.fieldNames } := by
  have hempty := removeAll_isEmpty_iff trailers Status.fieldNames
  unfold trailerStatus?
  simp only [List.isEmpty_iff]
  split
  · next hnil =>
      have hall := hempty.1 hnil
      refine ⟨fun h => absurd h (Option.some_ne_none s).symm, fun h => ?_⟩
      obtain ⟨⟨field, hmem, hname⟩, _⟩ := h
      exact absurd (hall field hmem) hname
  · next hfields =>
      have hsome : ∃ field ∈ trailers.fields, field.1 ∉ Status.fieldNames := by
        rw [hempty] at hfields
        simpa using hfields
      exact ⟨fun h => ⟨hsome, (Option.some.inj h).symm⟩, fun h => congrArg some h.2.symm⟩

end Headers

end InterceptingProxy
