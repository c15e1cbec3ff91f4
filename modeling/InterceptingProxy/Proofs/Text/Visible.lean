import InterceptingProxy.Header
import InterceptingProxy.Proofs.Text.Trimming

set_option autoImplicit false

/-! # Visible text as a header value

Text of visible ASCII characters is a header value as it stands: each character is one byte, and the
value reads back as the same text (`Text.Visible.visibleText?_utf8`). Without commas and without
blanks at its ends it is a single item of a list (`listItems_eq_singleton`). -/

namespace InterceptingProxy

/-- All characters are visible ASCII or spaces. -/
def Text.Visible (t : Text) : Prop := ∀ c ∈ t, 0x20 ≤ c.toNat ∧ c.toNat < 0x7F

-- decided along the text, as inference with all of Mathlib goes through every character there is
instance (t : Text) : Decidable t.Visible :=
  List.decidableBAll (fun c : Char => 0x20 ≤ c.toNat ∧ c.toNat < 0x7F) t

theorem utf8EncodeChar_of_ascii {c : Char} (h : c.toNat < 0x80) :
    String.utf8EncodeChar c = [c.toNat.toUInt8] := by
  unfold String.utf8EncodeChar
  have hle : c.val.toNat ≤ 127 := by
    have hval : c.val.toNat = c.toNat := rfl
    omega
  simp only [if_pos hle]
  rfl

theorem Bytes.toLatin_ofLatin {t : Text} (h : ∀ c ∈ t, c.toNat < 0x100) :
    Bytes.toLatin (Bytes.ofLatin t) = t := by
  unfold Bytes.toLatin Bytes.ofLatin
  rw [List.map_map]
  refine (List.map_congr_left fun c hc => ?_).trans (List.map_id t)
  have hmod : c.toNat % 256 = c.toNat := Nat.mod_eq_of_lt (h c hc)
  simp [hmod]

/-- A number below 256 as the byte it came from. -/
theorem toUInt8_eq {n : Nat} {b : UInt8} (h : n = b.toNat) : n.toUInt8 = b := by
  rw [h]
  exact UInt8.ofNat_toNat

theorem toNat_ofNat_toNat (b : UInt8) : (Char.ofNat b.toNat).toNat = b.toNat := by
  have hvalid : b.toNat.isValidChar := .inl (Nat.lt_trans b.toNat_lt (by decide))
  rw [Char.ofNat, dif_pos hvalid]
  rfl

theorem Bytes.ofLatin_toLatin (bytes : Bytes) : Bytes.ofLatin (Bytes.toLatin bytes) = bytes := by
  unfold Bytes.ofLatin Bytes.toLatin
  rw [List.map_map]
  refine (List.map_congr_left fun b _ => ?_).trans (List.map_id bytes)
  rw [Function.comp_apply]
  exact toUInt8_eq (toNat_ofNat_toNat b)

namespace Text

theorem Visible.append {first second : Text} (h : first.Visible) (h' : second.Visible) :
    Visible (first ++ second) := by
  intro c hc
  rcases List.mem_append.1 hc with hc | hc
  · exact h c hc
  · exact h' c hc

theorem utf8_of_ascii {t : Text} (h : ∀ c ∈ t, c.toNat < 0x80) : t.utf8 = Bytes.ofLatin t := by
  unfold Text.utf8 Bytes.ofLatin
  induction t with
  | nil => rfl
  | cons c rest ih =>
      have hrest : ∀ d ∈ rest, d.toNat < 0x80 := fun d hd => h d (List.mem_cons_of_mem c hd)
      rw [List.flatMap_cons, List.map_cons, utf8EncodeChar_of_ascii (h c List.mem_cons_self),
        ih hrest]
      rfl

theorem Visible.utf8 {t : Text} (h : t.Visible) : t.utf8 = Bytes.ofLatin t := by
  refine utf8_of_ascii fun c hc => ?_
  have hrange := h c hc
  omega

/-- The bytes of visible text are those that a value may show. -/
theorem Visible.byte_range {t : Text} (h : t.Visible) {b : UInt8} (hb : b ∈ t.utf8) :
    0x20 ≤ b.toNat ∧ b.toNat < 0x7F := by
  rw [h.utf8] at hb
  obtain ⟨c, hc, rfl⟩ := List.mem_map.1 hb
  have hrange := h c hc
  have hmod : c.toNat % 256 = c.toNat := Nat.mod_eq_of_lt (by omega)
  simp only [Nat.toUInt8_eq, UInt8.toNat_ofNat', Nat.reducePow, hmod]
  exact hrange

theorem Visible.visibleText?_utf8 {t : Text} (h : t.Visible) : visibleText? t.utf8 = some t := by
  have hall : t.utf8.all (fun b => (0x20 ≤ b && b < 0x7F) || b == 0x09) = true := by
    rw [List.all_eq_true]
    intro b hb
    have hrange := h.byte_range hb
    simp [UInt8.le_iff_toNat_le, UInt8.lt_iff_toNat_lt, hrange]
  rw [visibleText?, if_pos hall, h.utf8, Bytes.toLatin_ofLatin]
  intro c hc
  have hrange := h c hc
  omega

theorem Visible.isValueByte {t : Text} (h : t.Visible) : t.utf8.all isValueByte = true := by
  rw [List.all_eq_true]
  intro b hb
  have hrange := h.byte_range hb
  have hne : b ≠ 0x7F := by
    rintro rfl
    simp at hrange
  simp [InterceptingProxy.isValueByte, UInt8.le_iff_toNat_le, hrange, hne]

end Text

theorem listItems_eq_singleton {t : Text} (hcomma : ',' ∉ t)
    (hhead : ∀ c ∈ t.head?, isBlank c = false) (hlast : ∀ c ∈ t.getLast?, isBlank c = false) :
    listItems t = [t] := by
  unfold listItems
  rw [splitOn_of_not_mem hcomma, List.map_singleton, Text.trim_eq_self hhead hlast]

end InterceptingProxy
