import Mathlib.Tactic.Common
import InterceptingProxy.Proofs.Text.Visible
import InterceptingProxy.Text.Utf8

set_option autoImplicit false

/-! # UTF-8 reads what it writes

`Utf8.decode?` goes by a table of first bytes, and `Text.utf8` computes the bytes of a character
from its number. They fit: bytes are read as a text exactly when they are its written form
(`Utf8.decode?_eq_some_iff`), so a text has one form, and only its form.

Between the two stands `Utf8.Sequence`, the well-formed sequences of one character with the number
that each of them stands for. An end in ASCII can be cut off before or after writing
(`Text.exists_of_utf8_eq_append`), as no byte of a longer sequence is ASCII. -/

namespace InterceptingProxy.Utf8

/-! ## Sequences -/

/-- A byte that is not the first of its character. -/
def IsLater (b : UInt8) : Prop := 0x80 ≤ b.toNat ∧ b.toNat ≤ 0xBF

/-- The bytes of one character, with its number. The second byte has less room behind some first
    bytes: a number is not written longer than needed, and none is a surrogate or too large. -/
inductive Sequence : Bytes → Nat → Prop
  | one {a : UInt8} (ha : a.toNat ≤ 0x7F) : Sequence [a] a.toNat
  | two {a b : UInt8} (ha : 0xC2 ≤ a.toNat ∧ a.toNat ≤ 0xDF) (hb : IsLater b) :
      Sequence [a, b] (64 * (a.toNat % 0x20) + b.toNat % 0x40)
  | three {a b c : UInt8} (ha : 0xE0 ≤ a.toNat ∧ a.toNat ≤ 0xEF) (hb : IsLater b)
      (hshort : a.toNat = 0xE0 → 0xA0 ≤ b.toNat)
      (hsurrogate : a.toNat = 0xED → b.toNat ≤ 0x9F) (hc : IsLater c) :
      Sequence [a, b, c] (64 * (64 * (a.toNat % 0x10) + b.toNat % 0x40) + c.toNat % 0x40)
  | four {a b c d : UInt8} (ha : 0xF0 ≤ a.toNat ∧ a.toNat ≤ 0xF4) (hb : IsLater b)
      (hshort : a.toNat = 0xF0 → 0x90 ≤ b.toNat) (hlarge : a.toNat = 0xF4 → b.toNat ≤ 0x8F)
      (hc : IsLater c) (hd : IsLater d) :
      Sequence [a, b, c, d]
        (64 * (64 * (64 * (a.toNat % 0x08) + b.toNat % 0x40) + c.toNat % 0x40) + d.toNat % 0x40)

theorem Sequence.isValidChar {bytes : Bytes} {n : Nat} (h : Sequence bytes n) : n.isValidChar := by
  cases h with
  | one ha => exact .inl (by omega)
  | two ha hb => exact .inl (by omega)
  | three ha hb hshort hsurrogate hc =>
      unfold IsLater at *
      unfold Nat.isValidChar
      omega
  | four ha hb hshort hlarge hc hd =>
      unfold IsLater at *
      unfold Nat.isValidChar
      omega

/-- Only a sequence of a single byte ends in ASCII. -/
theorem Sequence.eq_singleton {bytes : Bytes} {n : Nat} {b : UInt8} (h : Sequence bytes n)
    (hlast : bytes.getLast? = some b) (hb : b.toNat < 0x80) : bytes = [b] ∧ n = b.toNat := by
  cases h with
  | one ha =>
      cases hlast
      exact ⟨rfl, rfl⟩
  | two ha hlater =>
      cases hlast
      exact absurd hlater.1 (Nat.not_le.2 hb)
  | three ha _ hshort hsurrogate hlater =>
      cases hlast
      exact absurd hlater.1 (Nat.not_le.2 hb)
  | four ha _ hshort hlarge _ hlater =>
      cases hlast
      exact absurd hlater.1 (Nat.not_le.2 hb)

theorem Sequence.encode {bytes : Bytes} {c : Char} (h : Sequence bytes c.toNat) :
    String.utf8EncodeChar c = bytes := by
  generalize hn : c.toNat = n at h
  have hval : c.val.toNat = n := hn
  unfold String.utf8EncodeChar
  simp only [hval]
  cases h with
  | one ha =>
      rw [if_pos ha, UInt8.ofNat_toNat]
  | two ha hb =>
      unfold IsLater at hb
      rw [if_neg (by omega), if_pos (by omega)]
      simp only [List.cons.injEq, and_true]
      exact ⟨toUInt8_eq (by omega), toUInt8_eq (by omega)⟩
  | three ha hb hshort hsurrogate hc =>
      unfold IsLater at hb hc
      rw [if_neg (by omega), if_neg (by omega), if_pos (by omega)]
      simp only [List.cons.injEq, and_true]
      exact ⟨toUInt8_eq (by omega), toUInt8_eq (by omega), toUInt8_eq (by omega)⟩
  | four ha hb hshort hlarge hc hd =>
      unfold IsLater at hb hc hd
      rw [if_neg (by omega), if_neg (by omega), if_neg (by omega)]
      simp only [List.cons.injEq, and_true]
      exact ⟨toUInt8_eq (by omega), toUInt8_eq (by omega), toUInt8_eq (by omega),
        toUInt8_eq (by omega)⟩

/-- Every character is written by the sequence with its number. -/
theorem sequence_encode (c : Char) : Sequence (String.utf8EncodeChar c) c.toNat := by
  have hvalid : c.toNat < 0xD800 ∨ 0xDFFF < c.toNat ∧ c.toNat < 0x110000 := c.valid
  have hbyte : ∀ n, n < 0x100 → (UInt8.ofNat n).toNat = n :=
    fun n hn => UInt8.toNat_ofNat_of_lt' hn
  have hval : c.val.toNat = c.toNat := rfl
  unfold String.utf8EncodeChar
  simp only [hval]
  generalize c.toNat = n at *
  split_ifs with hone htwo hthree
  · have ha := hbyte n (by omega)
    have h := Sequence.one (a := UInt8.ofNat n) (by omega)
    rwa [ha] at h
  · have ha := hbyte (n / 64 % 32 + 192) (by omega)
    have hb := hbyte (n % 64 + 128) (by omega)
    have h := Sequence.two (a := UInt8.ofNat (n / 64 % 32 + 192))
      (b := UInt8.ofNat (n % 64 + 128)) (by omega) ⟨by omega, by omega⟩
    rw [ha, hb] at h
    convert h using 1
    omega
  · have ha := hbyte (n / 4096 % 16 + 224) (by omega)
    have hb := hbyte (n / 64 % 64 + 128) (by omega)
    have hc := hbyte (n % 64 + 128) (by omega)
    have h := Sequence.three (a := UInt8.ofNat (n / 4096 % 16 + 224))
      (b := UInt8.ofNat (n / 64 % 64 + 128)) (c := UInt8.ofNat (n % 64 + 128))
      (by omega) ⟨by omega, by omega⟩ (by omega) (by omega) ⟨by omega, by omega⟩
    rw [ha, hb, hc] at h
    convert h using 1
    omega
  · have ha := hbyte (n / 262144 % 8 + 240) (by omega)
    have hb := hbyte (n / 4096 % 64 + 128) (by omega)
    have hc := hbyte (n / 64 % 64 + 128) (by omega)
    have hd := hbyte (n % 64 + 128) (by omega)
    have h := Sequence.four (a := UInt8.ofNat (n / 262144 % 8 + 240))
      (b := UInt8.ofNat (n / 4096 % 64 + 128)) (c := UInt8.ofNat (n / 64 % 64 + 128))
      (d := UInt8.ofNat (n % 64 + 128))
      (by omega) ⟨by omega, by omega⟩ (by omega) (by omega) ⟨by omega, by omega⟩
      ⟨by omega, by omega⟩
    rw [ha, hb, hc, hd] at h
    convert h using 1
    omega

/-! ## Reading one character -/

@[simp] theorem tails_zero (lo hi : UInt8) (value good : Nat) (rest : Bytes) :
    tails 0 lo hi value good rest = .ok value := by
  cases rest with
  | nil => rfl
  | cons b rest => rfl

theorem tails_succ_cons (count value good : Nat) (lo hi b : UInt8) (rest : Bytes) :
    tails (count + 1) lo hi value good (b :: rest) =
      if lo.toNat ≤ b.toNat ∧ b.toNat ≤ hi.toNat then
        tails count 0x80 0xBF (64 * value + b.toNat % 0x40) (good + 1) rest
      else .error (good, false) := by
  simp only [tails, Bool.and_eq_true, decide_eq_true_eq, UInt8.le_iff_toNat_le]

theorem tails_of_isLater {b : UInt8} (h : IsLater b) (count value good : Nat) (rest : Bytes) :
    tails (count + 1) 0x80 0xBF value good (b :: rest) =
      tails count 0x80 0xBF (64 * value + b.toNat % 0x40) (good + 1) rest := by
  rw [tails_succ_cons]
  exact if_pos h

/-- Bytes that are read were there. -/
theorem exists_cons_of_tails {count value good n : Nat} {lo hi : UInt8} {rest : Bytes}
    (h : tails (count + 1) lo hi value good rest = .ok n) :
    ∃ b left, rest = b :: left ∧ lo.toNat ≤ b.toNat ∧ b.toNat ≤ hi.toNat ∧
      tails count 0x80 0xBF (64 * value + b.toNat % 0x40) (good + 1) left = .ok n := by
  cases rest with
  | nil => simp [tails] at h
  | cons b left =>
      rw [tails_succ_cons] at h
      split at h
      · next hrange => exact ⟨b, left, rfl, hrange.1, hrange.2, h⟩
      · cases h

/-- The table of first bytes, in numbers. -/
theorem following_eq (first : UInt8) :
    following first =
      if first.toNat ≤ 0x7F then some (0, 0x80, 0xBF)
      else if 0xC2 ≤ first.toNat ∧ first.toNat ≤ 0xDF then some (1, 0x80, 0xBF)
      else if 0xE0 ≤ first.toNat ∧ first.toNat ≤ 0xEF then
        some (2, if first.toNat = 0xE0 then 0xA0 else 0x80,
          if first.toNat = 0xED then 0x9F else 0xBF)
      else if 0xF0 ≤ first.toNat ∧ first.toNat ≤ 0xF4 then
        some (3, if first.toNat = 0xF0 then 0x90 else 0x80,
          if first.toNat = 0xF4 then 0x8F else 0xBF)
      else none := by
  unfold following
  simp only [Bool.and_eq_true, decide_eq_true_eq, beq_iff_eq, UInt8.le_iff_toNat_le,
    ← UInt8.toNat_inj, UInt8.reduceToNat]
  split_ifs <;> first | rfl | omega

theorem toNat_ite_le {p : Prop} [Decidable p] {m n : UInt8} {k : Nat} :
    (if p then m else n).toNat ≤ k ↔ (p → m.toNat ≤ k) ∧ (¬ p → n.toNat ≤ k) := by
  split <;> simp [*]

theorem le_toNat_ite {p : Prop} [Decidable p] {m n : UInt8} {k : Nat} :
    k ≤ (if p then m else n).toNat ↔ (p → k ≤ m.toNat) ∧ (¬ p → k ≤ n.toNat) := by
  split <;> simp [*]

/-- The bytes of one character as `decodeFrom` reads them. -/
def ReadsAs (first : UInt8) (rest : Bytes) (count n : Nat) : Prop :=
  ∃ lo hi, following first = some (count, lo, hi) ∧
    tails count lo hi (leadBits first count) 1 rest = .ok n

theorem Sequence.readsAs {first : UInt8} {later : Bytes} {n : Nat}
    (h : Sequence (first :: later) n) (more : Bytes) :
    ReadsAs first (later ++ more) later.length n := by
  unfold ReadsAs
  rw [following_eq]
  cases h with
  | one ha => exact ⟨0x80, 0xBF, if_pos ha, tails_zero ..⟩
  | two ha hb =>
      rw [if_neg (by omega), if_pos ha]
      refine ⟨_, _, rfl, ?_⟩
      simp only [List.length_cons, List.length_nil, List.cons_append, List.nil_append]
      rw [tails_of_isLater hb, tails_zero]
      rfl
  | three ha hb hshort hsurrogate hc =>
      rw [if_neg (by omega), if_neg (by omega), if_pos ha]
      refine ⟨_, _, rfl, ?_⟩
      simp only [List.length_cons, List.length_nil, List.cons_append, List.nil_append]
      rw [tails_succ_cons, if_pos, tails_of_isLater hc, tails_zero]
      · rfl
      · rw [toNat_ite_le, le_toNat_ite]
        exact ⟨⟨hshort, fun _ => hb.1⟩, hsurrogate, fun _ => hb.2⟩
  | four ha hb hshort hlarge hc hd =>
      rw [if_neg (by omega), if_neg (by omega), if_neg (by omega), if_pos ha]
      refine ⟨_, _, rfl, ?_⟩
      simp only [List.length_cons, List.length_nil, List.cons_append, List.nil_append]
      rw [tails_succ_cons, if_pos, tails_of_isLater hc, tails_of_isLater hd, tails_zero]
      · rfl
      · rw [toNat_ite_le, le_toNat_ite]
        exact ⟨⟨hshort, fun _ => hb.1⟩, hlarge, fun _ => hb.2⟩

theorem ReadsAs.sequence {first : UInt8} {rest : Bytes} {count n : Nat}
    (h : ReadsAs first rest count n) :
    count ≤ rest.length ∧ Sequence (first :: rest.take count) n := by
  obtain ⟨lo, hi, hfollowing, htails⟩ := h
  rw [following_eq] at hfollowing
  by_cases hone : first.toNat ≤ 0x7F
  · rw [if_pos hone] at hfollowing
    cases hfollowing
    rw [tails_zero] at htails
    cases htails
    exact ⟨Nat.zero_le _, .one hone⟩
  rw [if_neg hone] at hfollowing
  by_cases htwo : 0xC2 ≤ first.toNat ∧ first.toNat ≤ 0xDF
  · rw [if_pos htwo] at hfollowing
    cases hfollowing
    obtain ⟨b, left, rfl, hlo, hhi, htails⟩ := exists_cons_of_tails htails
    rw [tails_zero] at htails
    cases htails
    exact ⟨by simp, .two htwo ⟨hlo, hhi⟩⟩
  rw [if_neg htwo] at hfollowing
  by_cases hthree : 0xE0 ≤ first.toNat ∧ first.toNat ≤ 0xEF
  · rw [if_pos hthree] at hfollowing
    cases hfollowing
    obtain ⟨b, left, rfl, hlo, hhi, htails⟩ := exists_cons_of_tails htails
    obtain ⟨c, left, rfl, hlo', hhi', htails⟩ := exists_cons_of_tails htails
    rw [tails_zero] at htails
    cases htails
    rw [toNat_ite_le] at hlo
    rw [le_toNat_ite] at hhi
    simp only [UInt8.reduceToNat] at hlo hhi
    exact ⟨by simp, .three hthree ⟨by omega, by omega⟩ hlo.1 hhi.1 ⟨hlo', hhi'⟩⟩
  rw [if_neg hthree] at hfollowing
  by_cases hfour : 0xF0 ≤ first.toNat ∧ first.toNat ≤ 0xF4
  · rw [if_pos hfour] at hfollowing
    cases hfollowing
    obtain ⟨b, left, rfl, hlo, hhi, htails⟩ := exists_cons_of_tails htails
    obtain ⟨c, left, rfl, hlo', hhi', htails⟩ := exists_cons_of_tails htails
    obtain ⟨d, left, rfl, hlo'', hhi'', htails⟩ := exists_cons_of_tails htails
    rw [tails_zero] at htails
    cases htails
    rw [toNat_ite_le] at hlo
    rw [le_toNat_ite] at hhi
    simp only [UInt8.reduceToNat] at hlo hhi
    exact ⟨by simp, .four hfour ⟨by omega, by omega⟩ hlo.1 hhi.1 ⟨hlo', hhi'⟩ ⟨hlo'', hhi''⟩⟩
  · rw [if_neg hfour] at hfollowing
    cases hfollowing

/-! ## Reading texts -/

theorem decodeFrom_cons_eq_ok_iff {first : UInt8} {rest : Bytes} {fuel position : Nat} {t : Text} :
    decodeFrom (fuel + 1) position (first :: rest) = .ok t ↔
      ∃ count n more, ReadsAs first rest count n ∧
        decodeFrom fuel (position + 1 + count) (rest.drop count) = .ok more ∧
        t = Char.ofNat n :: more := by
  unfold ReadsAs
  simp only [decodeFrom]
  constructor
  · intro h
    split at h
    · cases h
    · next count lo hi hfollowing =>
        split at h
        · cases h
        · next n htails =>
            cases hmore : decodeFrom fuel (position + 1 + count) (rest.drop count) with
            | error fault => simp [hmore, bind, Except.bind] at h
            | ok more =>
                simp only [hmore, bind, Except.bind, pure, Except.pure, Except.ok.injEq] at h
                exact ⟨count, n, more, ⟨lo, hi, hfollowing, htails⟩, hmore, h.symm⟩
  · rintro ⟨count, n, more, ⟨lo, hi, hfollowing, htails⟩, hmore, rfl⟩
    simp [hfollowing, htails, hmore, bind, Except.bind, pure, Except.pure]

theorem decodeFrom_utf8 {t : Text} {fuel : Nat} (h : t.utf8.length ≤ fuel) (position : Nat) :
    decodeFrom fuel position t.utf8 = .ok t := by
  induction t generalizing fuel position with
  | nil => cases fuel <;> rfl
  | cons c rest ih =>
      have hsequence := sequence_encode c
      rw [Text.utf8, List.flatMap_cons, ← Text.utf8] at h ⊢
      cases hbytes : String.utf8EncodeChar c with
      | nil => exact absurd hbytes (String.utf8EncodeChar_ne_nil)
      | cons first later =>
          rw [hbytes] at h hsequence
          obtain ⟨fuel, rfl⟩ : ∃ k, fuel = k + 1 := Nat.exists_eq_add_one.2 (by simp at h; omega)
          rw [List.cons_append, decodeFrom_cons_eq_ok_iff]
          refine ⟨later.length, c.toNat, rest, hsequence.readsAs _, ?_, by rw [Char.ofNat_toNat]⟩
          rw [List.drop_left]
          refine ih ?_ _
          simp at h
          omega

theorem eq_utf8_of_decodeFrom {bytes : Bytes} {t : Text} {fuel position : Nat}
    (hfuel : bytes.length ≤ fuel) (h : decodeFrom fuel position bytes = .ok t) :
    bytes = t.utf8 := by
  induction fuel generalizing bytes t position with
  | zero =>
      obtain rfl := List.eq_nil_of_length_eq_zero (Nat.le_zero.1 hfuel)
      cases h
      rfl
  | succ fuel ih =>
      cases bytes with
      | nil =>
          cases h
          rfl
      | cons first rest =>
          obtain ⟨count, n, more, hreads, hmore, rfl⟩ := decodeFrom_cons_eq_ok_iff.1 h
          obtain ⟨hcount, hsequence⟩ := hreads.sequence
          have hnumber : (Char.ofNat n).toNat = n := by
            rw [Char.ofNat, dif_pos hsequence.isValidChar]
            rfl
          rw [← hnumber] at hsequence
          have hrest : rest.drop count = Text.utf8 more := by
            refine ih ?_ hmore
            simp at hfuel ⊢
            omega
          rw [Text.utf8, List.flatMap_cons, hsequence.encode, ← Text.utf8, ← hrest,
            List.cons_append, List.take_append_drop]

/-- **Bytes are read as a text exactly when they are its UTF-8 form.** -/
theorem decode?_eq_some_iff {bytes : Bytes} {t : Text} :
    decode? bytes = some t ↔ bytes = t.utf8 := by
  unfold decode? decode
  constructor
  · intro h
    cases hdecode : decodeFrom bytes.length 0 bytes with
    | error fault => simp [hdecode, Except.toOption] at h
    | ok t' =>
        rw [hdecode] at h
        cases h
        exact eq_utf8_of_decodeFrom (Nat.le_refl _) hdecode
  · rintro rfl
    rw [decodeFrom_utf8 (Nat.le_refl _)]
    rfl

end InterceptingProxy.Utf8

namespace InterceptingProxy.Text

theorem utf8_append (front back : Text) : utf8 (front ++ back) = front.utf8 ++ back.utf8 :=
  List.flatMap_append

theorem utf8_injective : Function.Injective Text.utf8 := by
  intro t t' h
  have hread : Utf8.decode? t.utf8 = some t' := Utf8.decode?_eq_some_iff.2 h
  rw [Utf8.decode?_eq_some_iff.2 rfl] at hread
  exact Option.some.inj hread

/-! ## Ends in ASCII -/

/-- A last byte that is ASCII is a character of its own. -/
theorem exists_of_utf8_eq_append_singleton {t : Text} {start : Bytes} {c : Char}
    (hc : c.toNat < 0x80) (h : t.utf8 = start ++ [c.toNat.toUInt8]) :
    ∃ p, t = p ++ [c] ∧ start = Text.utf8 p := by
  have hbyte : c.toNat.toUInt8.toNat = c.toNat := by
    simp only [Nat.toUInt8_eq, UInt8.toNat_ofNat']
    omega
  obtain rfl | ⟨p, d, rfl⟩ := List.eq_nil_or_concat' t
  · simp [Text.utf8] at h
  · have hd : Text.utf8 [d] = String.utf8EncodeChar d := List.flatMap_singleton ..
    rw [utf8_append, hd] at h
    have hlast := congrArg List.getLast? h
    rw [List.getLast?_append_of_ne_nil _ String.utf8EncodeChar_ne_nil,
      List.getLast?_concat] at hlast
    obtain ⟨hsingle, hnumber⟩ := (Utf8.sequence_encode d).eq_singleton hlast (by omega)
    rw [hbyte] at hnumber
    obtain rfl : d = c := Char.toNat_inj.1 hnumber
    rw [hsingle] at h
    exact ⟨p, rfl, (List.append_inj_left' h rfl).symm⟩

/-- A text whose bytes end in those of ASCII characters ends in these characters. -/
theorem exists_of_utf8_eq_append {t suffix : Text} {start : Bytes}
    (hsuffix : ∀ c ∈ suffix, c.toNat < 0x80) (h : t.utf8 = start ++ suffix.utf8) :
    ∃ p, t = p ++ suffix ∧ start = Text.utf8 p := by
  induction suffix using List.reverseRecOn generalizing t start with
  | nil => exact ⟨t, (List.append_nil t).symm, by rw [h]; exact (List.append_nil _).symm⟩
  | append_singleton suffix c ih =>
      have hc : c.toNat < 0x80 := hsuffix c (List.mem_append_right _ List.mem_cons_self)
      have hbyte : Text.utf8 [c] = [c.toNat.toUInt8] := by
        rw [Text.utf8, List.flatMap_singleton, utf8EncodeChar_of_ascii hc]
      rw [utf8_append, hbyte, ← List.append_assoc] at h
      obtain ⟨q, rfl, hq⟩ := exists_of_utf8_eq_append_singleton hc h
      obtain ⟨p, rfl, hp⟩ := ih (fun d hd => hsuffix d (List.mem_append_left _ hd)) hq.symm
      exact ⟨p, List.append_assoc .., hp⟩

end InterceptingProxy.Text
