import InterceptingProxy.Address.HostPort
import InterceptingProxy.Proofs.Text.Cutting

set_option autoImplicit false

/-! # Hosts and their labels

The labels of a host are what stands between its dots. A host is given by them
(`labels_injective`), and what the other modules find by cutting texts at their ends is said by
labels: one host has one label more than another (`labels_eq_cons_iff`), or is the other or below it
(`labels_suffix_iff`). The host of an address does not depend on the case of its letters
(`hostOf_lower`). -/

namespace InterceptingProxy

/-! ## Labels -/

/-- What stands between the dots of a host. -/
def labels (host : Text) : List Text := splitOn '.' host

theorem labels_ne_nil (host : Text) : labels host ≠ [] := by
  rw [labels, splitOn_eq]
  exact List.splitOn_ne_nil '.' host

theorem intercalate_labels (host : Text) : ['.'].intercalate (labels host) = host := by
  rw [labels, splitOn_eq, List.intercalate_splitOn]

theorem labels_injective {host host' : Text} (h : labels host = labels host') : host = host' := by
  rw [← intercalate_labels host, h, intercalate_labels]

theorem labels_append (before host : Text) :
    labels (before ++ '.' :: host) = labels before ++ labels host := by
  simp only [labels, splitOn_eq, List.splitOn_append_cons_self]

/-- A host has one label more than another if it is that host with something in front that has no
    dot of its own. -/
theorem labels_eq_cons_iff {host label base : Text} :
    labels host = label :: labels base ↔ '.' ∉ label ∧ host = label ++ '.' :: base := by
  constructor
  · intro hlabels
    have hhost : host = label ++ '.' :: base := by
      rw [← intercalate_labels host, hlabels, List.intercalate_cons_of_ne_nil (labels_ne_nil base),
        intercalate_labels]
      simp
    refine ⟨fun hdot => ?_, hhost⟩
    -- with a dot in it, the label would count as two
    obtain ⟨first, second, rfl⟩ := List.append_of_mem hdot
    have hone : labels (first ++ '.' :: second) = [first ++ '.' :: second] := by
      rw [hhost, labels_append] at hlabels
      exact List.append_cancel_right hlabels
    rw [labels_append] at hone
    have hlength := congrArg List.length hone
    have hfirst := List.length_pos_iff.2 (labels_ne_nil first)
    have hsecond := List.length_pos_iff.2 (labels_ne_nil second)
    simp only [List.length_append, List.length_singleton] at hlength
    omega
  · rintro ⟨hdot, rfl⟩
    rw [labels_append, labels, splitOn_of_not_mem hdot]
    rfl

/-- A host ends in the labels of another if it is that host or below it. -/
theorem labels_suffix_iff {host base : Text} :
    labels base <:+ labels host ↔ host = base ∨ ∃ before, host = before ++ '.' :: base := by
  constructor
  · rintro ⟨front, hlabels⟩
    by_cases hfront : front = []
    · subst hfront
      exact .inl (labels_injective hlabels.symm)
    · right
      refine ⟨['.'].intercalate front, ?_⟩
      rw [← intercalate_labels host, ← hlabels, intercalate_append hfront (labels_ne_nil base),
        intercalate_labels]
  · rintro (rfl | ⟨before, rfl⟩)
    · exact List.suffix_rfl
    · rw [labels_append]
      exact List.suffix_append _ _

/-! ## Case -/

theorem toNat_lowerChar (c : Char) :
    (lowerChar c).toNat = if 0x41 ≤ c.toNat ∧ c.toNat ≤ 0x5A then c.toNat + 0x20 else c.toNat := by
  unfold lowerChar Char.toLower
  have hval : c.val.toNat = c.toNat := rfl
  by_cases hc : c.val ≥ 'A'.val ∧ c.val ≤ 'Z'.val
  · have hrange : 0x41 ≤ c.toNat ∧ c.toNat ≤ 0x5A := by
      simpa [UInt32.le_iff_toNat_le, hval] using hc
    rw [dif_pos hc, if_pos hrange]
    have hsum : (c.val + ('a'.val - 'A'.val)).toNat = c.toNat + 0x20 := by
      rw [UInt32.toNat_add, hval]
      exact Nat.mod_eq_of_lt (by change c.toNat + 0x20 < 2 ^ 32; omega)
    exact hsum
  · have hrange : ¬ (0x41 ≤ c.toNat ∧ c.toNat ≤ 0x5A) := by
      simpa [UInt32.le_iff_toNat_le, hval] using hc
    rw [dif_neg hc, if_neg hrange]

theorem eq_or_eq_of_lowerChar {c d : Char} (h : lowerChar c = d) :
    c = d ∨ c = Char.ofNat (d.toNat - 0x20) := by
  have hnumber := toNat_lowerChar c
  rw [h] at hnumber
  split at hnumber
  · rw [hnumber, Nat.add_sub_cancel, Char.ofNat_toNat]
    exact .inr rfl
  · exact .inl (Char.toNat_inj.1 hnumber.symm)

theorem isBlank_lowerChar (c : Char) : isBlank (lowerChar c) = isBlank c := by
  simp only [isBlank, toNat_lowerChar]
  split
  · rw [Bool.eq_iff_iff]
    simp
    omega
  · rfl

namespace Text

theorem lower_lower (t : Text) : t.lower.lower = t.lower := by
  unfold lower
  rw [List.map_map]
  refine List.map_congr_left fun c _ => ?_
  rw [Function.comp_apply, ← Char.toNat_inj, toNat_lowerChar, toNat_lowerChar]
  split_ifs <;> omega

end Text

section Separators

-- a character in front of the small letters that is no capital
variable {sep : Char} (hsep : sep.toNat < 0x41 ∨ 0x5A < sep.toNat ∧ sep.toNat < 0x61)
include hsep

/-- Only letters become letters. -/
theorem lowerChar_eq_iff {c : Char} : lowerChar c = sep ↔ c = sep := by
  rw [← Char.toNat_inj, ← Char.toNat_inj, toNat_lowerChar]
  split <;> omega

theorem lowerChar_beq (c : Char) : (lowerChar c == sep) = (c == sep) := by
  rw [Bool.eq_iff_iff, beq_iff_eq, beq_iff_eq, lowerChar_eq_iff hsep]

theorem Text.mem_lower_iff {t : Text} : sep ∈ t.lower ↔ sep ∈ t := by
  simp only [lower, List.mem_map, lowerChar_eq_iff hsep, exists_eq_right]

theorem splitFirst_lower (t : Text) :
    splitFirst sep t.lower = (splitFirst sep t).map (Prod.map Text.lower Text.lower) :=
  splitFirst_map (fun _ => lowerChar_eq_iff hsep) t

theorem splitLast_lower (t : Text) :
    splitLast sep t.lower = (splitLast sep t).map (Prod.map Text.lower Text.lower) :=
  splitLast_map (fun _ => lowerChar_eq_iff hsep) t

end Separators

/-! ## Hosts of addresses -/

theorem hostOf_of_head?_ne {address : Text} (h : address.head? ≠ some '[') :
    hostOf address =
      match splitLast ':' address with
      | some (host, _) => if ':' ∈ host then address else host
      | none => address := by
  unfold hostOf
  split
  · simp at h
  · rfl

/-- A host in front of a port. -/
theorem hostOf_append_port {host port : Text} (hhost : ':' ∉ host) (hport : ':' ∉ port)
    (hopen : host.head? ≠ some '[') : hostOf (host ++ ':' :: port) = host := by
  have hhead : (host ++ ':' :: port).head? ≠ some '[' := by
    cases host with
    | nil => simp
    | cons c host => simpa using hopen
  simp [hostOf_of_head?_ne hhead, splitLast_append_cons hport, hhost]

/-- A host between brackets, whatever follows them. -/
theorem hostOf_brackets {host : Text} (hhost : ']' ∉ host) (rest : Text) :
    hostOf ('[' :: (host ++ ']' :: rest)) = host := by
  simp only [hostOf, splitFirst_append_cons hhost]

theorem hostOf_lower (address : Text) : hostOf address.lower = (hostOf address).lower := by
  by_cases hopen : address.head? = some '['
  · obtain ⟨rest, rfl⟩ := List.head?_eq_some_iff.1 hopen
    have hlower : Text.lower ('[' :: rest) = '[' :: Text.lower rest := rfl
    rw [hlower, hostOf, hostOf, splitFirst_lower (by decide)]
    cases splitFirst ']' rest with
    | none => rfl
    | some cut => rfl
  · have hlower : (Text.lower address).head? ≠ some '[' := by
      cases address with
      | nil => simp [Text.lower]
      | cons c rest =>
          have hc : c ≠ '[' := by simpa using hopen
          simpa [Text.lower] using mt (lowerChar_eq_iff (by decide)).1 hc
    rw [hostOf_of_head?_ne hlower, hostOf_of_head?_ne hopen, splitLast_lower (by decide)]
    cases splitLast ':' address with
    | none => rfl
    | some cut =>
        have hcolon : ':' ∈ Text.lower cut.1 ↔ ':' ∈ cut.1 := Text.mem_lower_iff (by decide)
        by_cases hmem : ':' ∈ cut.1
        · simp [hcolon, hmem]
        · simp [hcolon, hmem]

end InterceptingProxy
