import Mathlib.Data.List.TakeWhile
import Mathlib.Tactic.Common
import InterceptingProxy.Dialing.Dialer
import InterceptingProxy.Proofs.Address.Hosts
import InterceptingProxy.Proofs.Text.Trimming

set_option autoImplicit false

/-! # Addresses that are dialed straight

`NoProxy.entryMatches` compares an address with an entry in four ways; they come to one, of the
labels of the two hosts (`NoProxy.entryMatches_iff`). So of an address only the host counts, in any
case, and of an entry as well, unless it is the star (`Exempts`). Neither the order of the entries
nor how they are spelled makes a difference (`Respelled`). -/

namespace InterceptingProxy.NoProxy

/-! ## One entry -/

/-- An entry covers all hosts, or those that end in the labels of its own. -/
def Exempts (entry address : Text) : Prop :=
  entry = ['*'] ∨ labels (hostOf entry) <:+ labels (Text.lower (hostOf address))

/-- What stands in front of a host ends in a dot. -/
theorem endsBelow_iff {base host : Text} :
    (match stripSuffix base host with
      | some before => before.getLast? == some '.'
      | none => false) = true ↔ ∃ before, host = before ++ '.' :: base := by
  cases hsuffix : stripSuffix base host with
  | none =>
      refine ⟨nofun, ?_⟩
      rintro ⟨before, rfl⟩
      have hsome : stripSuffix base (before ++ '.' :: base) = some (before ++ ['.']) := by
        simp [stripSuffix_eq_some_iff]
      rw [hsome] at hsuffix
      cases hsuffix
  | some rest =>
      obtain rfl := stripSuffix_eq_some_iff.1 hsuffix
      rw [beq_iff_eq, List.getLast?_eq_some_iff]
      constructor
      · rintro ⟨before, rfl⟩
        exact ⟨before, by simp⟩
      · rintro ⟨before, heq⟩
        refine ⟨before, (List.append_left_inj base).1 ?_⟩
        rw [heq, List.append_assoc]
        rfl

theorem entryMatches_iff {address entry : Text} (hlower : entry.lower = entry) :
    entryMatches address entry = true ↔ Exempts entry address := by
  have hsame : entry = address → Text.lower (hostOf address) = hostOf entry := by
    rintro rfl
    rw [← hostOf_lower, hlower]
  rw [Exempts, labels_suffix_iff, ← endsBelow_iff]
  simp only [entryMatches, Bool.or_eq_true, beq_iff_eq]
  constructor
  · rintro (((hstar | heq) | hhost) | hbelow)
    · exact .inl hstar
    · exact .inr (.inl (hsame heq))
    · exact .inr (.inl hhost)
    · exact .inr (.inr hbelow)
  · rintro (hstar | hhost | hbelow)
    · exact .inl (.inl (.inl hstar))
    · exact .inl (.inr hhost)
    · exact .inr hbelow

/-- The entries are both the star or neither, and have the same host. -/
def SameEntry (entry entry' : Text) : Prop :=
  (entry = ['*'] ↔ entry' = ['*']) ∧ hostOf entry = hostOf entry'

instance (entry entry' : Text) : Decidable (SameEntry entry entry') :=
  inferInstanceAs (Decidable (_ ∧ _))

theorem SameEntry.exempts_iff {entry entry' address address' : Text} (h : SameEntry entry entry')
    (haddress : Text.lower (hostOf address) = Text.lower (hostOf address')) :
    Exempts entry address ↔ Exempts entry' address' := by
  unfold Exempts
  rw [h.1, h.2, haddress]

/-! ## Spellings -/

/-- Entries that differ in the case of letters, in blanks around them and in dots in front. A blank
    behind such a dot is not around the entry but a part of it. -/
inductive Respelled : Text → Text → Prop
  | recased {entry entry' : Text} (h : entry.lower = entry'.lower) : Respelled entry entry'
  | spaced (before entry after : Text) (hbefore : ∀ c ∈ before, isBlank c = true)
      (hafter : ∀ c ∈ after, isBlank c = true) : Respelled entry (before ++ entry ++ after)
  | dotted {entry : Text} (h : entry.head?.any isBlank = false) : Respelled entry ('.' :: entry)
  | symm {entry entry' : Text} (h : Respelled entry entry') : Respelled entry' entry
  | trans {entry entry' entry'' : Text} (h : Respelled entry entry')
      (h' : Respelled entry' entry'') : Respelled entry entry''

theorem lower_normalise (entry : Text) : (normalise entry).lower = normalise entry :=
  Text.lower_lower _

/-- Dots may be put in front of anything that does not start with a blank. -/
theorem Respelled.dots {entry : Text} (h : entry.head?.any isBlank = false) (n : Nat) :
    Respelled entry (List.replicate n '.' ++ entry) := by
  induction n with
  | zero => exact .recased rfl
  | succ n ih =>
      refine ih.trans ?_
      rw [List.replicate_succ, List.cons_append]
      refine .dotted ?_
      cases n with
      | zero => exact h
      | succ n => rfl

theorem mem_entries_parse {text entry : Text} :
    entry ∈ (parse text).entries ↔
      entry ≠ [] ∧ ∃ piece ∈ splitOn ',' text, normalise piece = entry := by
  simp [parse, and_comm]

theorem covers_parse_iff {text address : Text} :
    (parse text).covers address = true ↔ ∃ entry ∈ (parse text).entries, Exempts entry address := by
  rw [covers, List.any_eq_true]
  refine exists_congr fun entry => and_congr_right fun hentry => entryMatches_iff ?_
  obtain ⟨-, piece, -, rfl⟩ := mem_entries_parse.1 hentry
  exact lower_normalise piece

/-- Each of the texts has its like among the others. -/
def Matched (R : Text → Text → Prop) (entries entries' : List Text) : Prop :=
  (∀ entry ∈ entries, ∃ entry' ∈ entries', R entry entry') ∧
    ∀ entry' ∈ entries', ∃ entry ∈ entries, R entry entry'

instance (R : Text → Text → Prop) [∀ entry entry', Decidable (R entry entry')]
    (entries entries' : List Text) : Decidable (Matched R entries entries') :=
  inferInstanceAs (Decidable (_ ∧ _))

theorem covers_congr {text text' address address' : Text}
    (h : Matched SameEntry (parse text).entries (parse text').entries)
    (haddress : Text.lower (hostOf address) = Text.lower (hostOf address')) :
    (parse text).covers address = (parse text').covers address' := by
  rw [Bool.eq_iff_iff, covers_parse_iff, covers_parse_iff]
  constructor
  · rintro ⟨entry, hentry, hexempts⟩
    obtain ⟨entry', hentry', hlike⟩ := h.1 entry hentry
    exact ⟨entry', hentry', (hlike.exempts_iff haddress).1 hexempts⟩
  · rintro ⟨entry', hentry', hexempts⟩
    obtain ⟨entry, hentry, hlike⟩ := h.2 entry' hentry'
    exact ⟨entry, hentry, (hlike.exempts_iff haddress).2 hexempts⟩

end InterceptingProxy.NoProxy
