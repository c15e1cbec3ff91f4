import InterceptingProxy.Header.Forwarded
import InterceptingProxy.Proofs.Header.Removal
import InterceptingProxy.Proofs.Text.Cutting
import InterceptingProxy.Proofs.Text.Visible

set_option autoImplicit false

/-! # The marker among the forwarded values

A header is marked if the marker is one of its `forwarded` values (`isMarkedHttps_iff`), and
removal takes out these values and nothing else (`values_removeHttpsMarker_forwarded`): it changes a
header exactly if it is marked (`same_removeHttpsMarker_iff`). What mentions the marker is either
marked or has a value with the marker and more in it (`mentionsHttps_iff`), and such a value is left
by removal. -/

namespace InterceptingProxy.Headers

variable {h : Headers} {name : Text}

/-- The same values in the same order under every name. -/
def Same (h h' : Headers) : Prop := ∀ name, h.values name = h'.values name

/-! ## Marked headers -/

theorem isHttpsMarker_iff (value : Bytes) :
    isHttpsMarker value = true ↔ value = Bytes.ofLatin httpsMarker := by
  rw [isHttpsMarker, beq_iff_eq]
  constructor
  · intro hvisible
    unfold visibleText? at hvisible
    split at hvisible
    · rw [← Option.some.inj hvisible, Bytes.ofLatin_toLatin]
    · cases hvisible
  · rintro rfl
    decide

theorem isMarkedHttps_iff :
    h.isMarkedHttps = true ↔ Bytes.ofLatin httpsMarker ∈ h.values forwardedName := by
  simp [isMarkedHttps, isHttpsMarker_iff]

theorem isMarkedHttps_congr {h' : Headers}
    (heq : h.values forwardedName = h'.values forwardedName) :
    h.isMarkedHttps = h'.isMarkedHttps := by
  rw [isMarkedHttps, isMarkedHttps, heq]

theorem isMarkedHttps_addHttpsMarker : h.addHttpsMarker.isMarkedHttps = true := by
  rw [isMarkedHttps_iff, addHttpsMarker, values_append_self]
  exact List.mem_append_right _ (List.mem_singleton_self _)

/-! ## Removal -/

theorem values_removeHttpsMarker (h : Headers) (hne : name ≠ forwardedName) :
    h.removeHttpsMarker.values name = h.values name :=
  h.values_removeValues_of_ne isHttpsMarker hne

/-- Only markers are taken out, and all other values keep their order. -/
theorem values_removeHttpsMarker_forwarded (h : Headers) :
    h.removeHttpsMarker.values forwardedName =
      (h.values forwardedName).filter (· ≠ Bytes.ofLatin httpsMarker) := by
  rw [removeHttpsMarker, values_removeValues_self]
  refine List.filter_congr fun value _ => ?_
  rw [Bool.eq_iff_iff, Bool.not_eq_true', decide_eq_true_iff, ← Bool.not_eq_true,
    isHttpsMarker_iff]

theorem isMarkedHttps_removeHttpsMarker : h.removeHttpsMarker.isMarkedHttps = false := by
  rw [← Bool.not_eq_true, isMarkedHttps_iff, values_removeHttpsMarker_forwarded]
  simp

theorem removeHttpsMarker_eq_self (hm : h.isMarkedHttps = false) : h.removeHttpsMarker = h := by
  refine removeValues_eq_self fun value hvalue => ?_
  rw [isMarkedHttps, List.any_eq_false] at hm
  exact Bool.eq_false_iff.2 (hm value hvalue)

/-- A marker that is added is taken out again. -/
theorem removeHttpsMarker_addHttpsMarker (h : Headers) :
    h.addHttpsMarker.removeHttpsMarker = h.removeHttpsMarker := by
  have hmarker : isHttpsMarker (Bytes.ofLatin httpsMarker) = true := (isHttpsMarker_iff _).2 rfl
  simp [removeHttpsMarker, addHttpsMarker, removeValues, append, hmarker]

/-- Removal leaves a header as it is unless it is marked. -/
theorem same_removeHttpsMarker_iff : h.removeHttpsMarker.Same h ↔ h.isMarkedHttps = false := by
  constructor
  · intro hsame
    rw [← isMarkedHttps_congr (hsame forwardedName), isMarkedHttps_removeHttpsMarker]
  · intro hm name
    rw [removeHttpsMarker_eq_self hm]

/-! ## Taking out and putting back -/

/-- All values of a name are taken out, and some are put back. -/
def putBack (h : Headers) (name : Text) (kept : List Bytes) : Headers :=
  kept.foldl (fun h value => h.append name value) (h.remove name)

theorem values_foldl_append (kept : List Bytes) (h : Headers) (name other : Text) :
    (kept.foldl (fun h value => h.append name value) h).values other =
      if other = name then h.values other ++ kept else h.values other := by
  induction kept generalizing h with
  | nil => simp
  | cons value kept ih =>
      rw [List.foldl_cons, ih]
      by_cases hother : other = name
      · subst hother
        simp [values_append_self]
      · simp [hother, values_append_of_ne _ _ (Ne.symm hother)]

/-- Putting back what is kept is the same as taking out what is not. -/
theorem same_putBack (h : Headers) (name : Text) (p : Bytes → Bool) :
    (h.putBack name ((h.values name).filter (!p ·))).Same (h.removeValues name p) := by
  intro other
  rw [putBack, values_foldl_append]
  by_cases hother : other = name
  · subst hother
    have hnone : (h.remove other).values other = [] := by
      have hremove : h.remove other = h.removeAll [other] := rfl
      rw [hremove, values_removeAll, if_pos (List.mem_singleton_self _)]
    rw [if_pos rfl, hnone, List.nil_append, values_removeValues_self]
  · rw [if_neg hother, values_remove_of_ne h (Ne.symm hother),
      values_removeValues_of_ne h p hother]

/-! ## Values with the marker in them -/

/-- A value that is text has the marker in it, and more. -/
def Embeds (h : Headers) : Prop :=
  ∃ before after, (before ≠ [] ∨ after ≠ []) ∧
    before ++ httpsMarker ++ after ∈ h.texts forwardedName

theorem isMarkedHttps_iff_text :
    h.isMarkedHttps = true ↔ httpsMarker ∈ h.texts forwardedName := by
  simp [isMarkedHttps, isHttpsMarker, texts]

theorem mentionsHttps_iff : h.mentionsHttps = true ↔ h.isMarkedHttps = true ∨ h.Embeds := by
  have hmentions : h.mentionsHttps = true ↔ ∃ t ∈ h.texts forwardedName, httpsMarker <:+: t := by
    simp only [mentionsHttps, List.any_eq_true, containsRun_iff]
  rw [hmentions, isMarkedHttps_iff_text]
  constructor
  · rintro ⟨t, ht, before, after, rfl⟩
    by_cases hends : before = [] ∧ after = []
    · left
      obtain ⟨rfl, rfl⟩ := hends
      simpa using ht
    · exact .inr ⟨before, after, by tauto, ht⟩
  · rintro (hm | ⟨before, after, -, ht⟩)
    · exact ⟨httpsMarker, hm, List.infix_rfl⟩
    · exact ⟨_, ht, before, after, rfl⟩

theorem mem_texts_removeHttpsMarker {t : Text} :
    t ∈ h.removeHttpsMarker.texts forwardedName ↔ t ≠ httpsMarker ∧ t ∈ h.texts forwardedName := by
  simp only [texts, values_removeHttpsMarker_forwarded, List.mem_filterMap, List.mem_filter,
    decide_eq_true_eq]
  constructor
  · rintro ⟨value, ⟨hvalue, hne⟩, ht⟩
    refine ⟨?_, value, hvalue, ht⟩
    rintro rfl
    exact hne ((isHttpsMarker_iff value).1 (beq_iff_eq.2 ht))
  · rintro ⟨hne, value, hvalue, ht⟩
    refine ⟨value, ⟨hvalue, ?_⟩, ht⟩
    intro heq
    have hmarker := (isHttpsMarker_iff value).2 heq
    rw [isHttpsMarker, beq_iff_eq, ht] at hmarker
    exact hne (Option.some.inj hmarker)

/-- A value with more than the marker in it is not removed. -/
theorem embeds_removeHttpsMarker_iff : h.removeHttpsMarker.Embeds ↔ h.Embeds := by
  unfold Embeds
  refine exists_congr fun before => exists_congr fun after => and_congr_right fun hends => ?_
  rw [mem_texts_removeHttpsMarker]
  refine and_iff_right ?_
  intro heq
  have hlength := congrArg List.length heq
  simp only [List.length_append] at hlength
  have hbefore : before = [] := List.eq_nil_of_length_eq_zero (by omega)
  have hafter : after = [] := List.eq_nil_of_length_eq_zero (by omega)
  tauto

theorem mentionsHttps_removeHttpsMarker_iff :
    h.removeHttpsMarker.mentionsHttps = true ↔ h.Embeds := by
  rw [mentionsHttps_iff, isMarkedHttps_removeHttpsMarker, embeds_removeHttpsMarker_iff]
  simp

end InterceptingProxy.Headers
