import Mathlib.Tactic.Common
import InterceptingProxy.Encoding.Base64
import InterceptingProxy.Encoding.Hex
import InterceptingProxy.Proofs.Text.Visible

set_option autoImplicit false

/-! # Encodings that read back

What is written in hexadecimal or in padded base64 reads back as the bytes that were written
(`Hex.decode?_encode`, `Base64.decode_encode`), and it is written with the symbols of the alphabet
alone, so it can stand between separators. -/

namespace InterceptingProxy

namespace Hex

theorem digitValue?_digit : ∀ n < 16, digitValue? (digit n) = some n := by decide

theorem digit_div (b : UInt8) : digitValue? (digit (b.toNat / 16)) = some (b.toNat / 16) :=
  digitValue?_digit _ (Nat.div_lt_of_lt_mul b.toNat_lt)

theorem digit_mod (b : UInt8) : digitValue? (digit (b.toNat % 16)) = some (b.toNat % 16) :=
  digitValue?_digit _ (Nat.mod_lt _ (by decide))

theorem decode?_encode (bytes : Bytes) : decode? (encode bytes) = some bytes := by
  induction bytes with
  | nil => rfl
  | cons b rest ih =>
      have hbyte : (16 * (b.toNat / 16) + b.toNat % 16).toUInt8 = b :=
        toUInt8_eq (Nat.div_add_mod _ _)
      rw [encode, List.flatMap_cons, ← encode, encodeByte]
      simp only [List.cons_append, List.nil_append, decode?, digit_div, digit_mod, ih, hbyte,
        bind, Option.bind, pure]

/-- Only digits are written. -/
theorem isSome_digitValue?_of_mem_encode {bytes : Bytes} {c : Char} (h : c ∈ encode bytes) :
    (digitValue? c).isSome = true := by
  obtain ⟨b, -, hc⟩ := List.mem_flatMap.1 h
  rcases List.mem_cons.1 hc with rfl | hc
  · rw [digit_div]
    rfl
  · obtain rfl := List.mem_singleton.1 hc
    rw [digit_mod]
    rfl

theorem not_mem_encode {c : Char} (h : digitValue? c = none) (bytes : Bytes) :
    c ∉ encode bytes := by
  intro hc
  have hdigit := isSome_digitValue?_of_mem_encode hc
  rw [h] at hdigit
  cases hdigit

end Hex

namespace Base64

theorem value?_symbol : ∀ n < 64, value? (symbol n) = some n := by decide

theorem symbol_ne_pad {n : Nat} (h : n < 64) : symbol n ≠ pad := by
  intro hpad
  have hvalue := value?_symbol n h
  rw [hpad] at hvalue
  cases hvalue

/-- One more symbol before the padding. -/
theorem lastSymbols_cons {offset index n padded : Nat} {rest : Bytes} {symbols : List (UInt8 × Nat)}
    (hn : n < 64) (h : lastSymbols offset (index + 1) none rest = .ok (symbols, padded)) :
    lastSymbols offset index none (symbol n :: rest) =
      .ok ((symbol n, n) :: symbols, padded) := by
  rw [lastSymbols, if_neg (symbol_ne_pad hn)]
  simp [value?_symbol n hn, h, bind, Except.bind, pure, Except.pure]

/-- Three bytes as one number, which is cut into four symbols and put together again. -/
theorem bytes_of_symbols (a b c : UInt8) {n : Nat}
    (hn : 65536 * a.toNat + 256 * b.toNat + c.toNat = n) :
    n < 16777216 ∧
      262144 * (n / 262144) + 4096 * (n / 4096 % 64) + 64 * (n / 64 % 64) + n % 64 = n ∧
      (n / 65536).toUInt8 = a ∧ (n / 256 % 256).toUInt8 = b ∧ (n % 256).toUInt8 = c := by
  have ha := a.toNat_lt
  have hb := b.toNat_lt
  have hc := c.toNat_lt
  exact ⟨by omega, by omega, toUInt8_eq (by omega), toUInt8_eq (by omega), toUInt8_eq (by omega)⟩

theorem decodeLast_encode {offset : Nat} {bytes : Bytes} (hlength : bytes.length ≤ 3)
    (hfirst : bytes ≠ [] ∨ offset = 0) :
    decodeLast true offset (encode true bytes) = .ok bytes := by
  match bytes, hlength with
  | [], _ =>
      obtain rfl : offset = 0 := hfirst.resolve_left (fun h => h rfl)
      rfl
  | [a], _ =>
      have ha := a.toNat_lt
      have hsymbols : lastSymbols offset 0 none (encode true [a]) =
          .ok ([(symbol (a.toNat / 4), a.toNat / 4),
            (symbol (a.toNat % 4 * 16), a.toNat % 4 * 16)], 2) := by
        refine lastSymbols_cons (by omega) (lastSymbols_cons (by omega) ?_)
        simp [lastSymbols]
      have hbits : a.toNat % 4 * 16 % 16 = 0 := by omega
      have hbyte : (4 * (a.toNat / 4) + a.toNat % 4 * 16 / 16).toUInt8 = a :=
        toUInt8_eq (by omega)
      simpa [decodeLast, hsymbols, bind, Except.bind, pure, Except.pure, hbits] using hbyte
  | [a, b], _ =>
      have ha := a.toNat_lt
      have hb := b.toNat_lt
      generalize hn : 256 * a.toNat + b.toNat = n
      have hsymbols : lastSymbols offset 0 none (encode true [a, b]) =
          .ok ([(symbol (n / 1024), n / 1024), (symbol (n / 16 % 64), n / 16 % 64),
            (symbol (n % 16 * 4), n % 16 * 4)], 1) := by
        rw [encode, hn]
        refine lastSymbols_cons (by omega) (lastSymbols_cons (by omega)
          (lastSymbols_cons (by omega) ?_))
        simp [lastSymbols]
      have hbits : n % 16 * 4 % 4 = 0 := by omega
      have hjoin : 4096 * (n / 1024) + 64 * (n / 16 % 64) + n % 16 * 4 = 4 * n := by omega
      have hbytes : (4 * n / 1024).toUInt8 = a ∧ (4 * n / 4 % 256).toUInt8 = b :=
        ⟨toUInt8_eq (by omega), toUInt8_eq (by omega)⟩
      simpa [decodeLast, hsymbols, bind, Except.bind, pure, Except.pure, hbits, hjoin] using hbytes
  | [a, b, c], _ =>
      generalize hn : 65536 * a.toNat + 256 * b.toNat + c.toNat = n
      obtain ⟨hlarge, hjoin, hbytes⟩ := bytes_of_symbols a b c hn
      have hsymbols : lastSymbols offset 0 none (encode true [a, b, c]) =
          .ok ([(symbol (n / 262144), n / 262144), (symbol (n / 4096 % 64), n / 4096 % 64),
            (symbol (n / 64 % 64), n / 64 % 64), (symbol (n % 64), n % 64)], 0) := by
        rw [encode, hn]
        refine lastSymbols_cons (by omega) (lastSymbols_cons (by omega)
          (lastSymbols_cons (by omega) (lastSymbols_cons (by omega) ?_)))
        rfl
      simpa [decodeLast, hsymbols, bind, Except.bind, pure, Except.pure, hjoin] using hbytes

theorem encode_ne_nil {bytes : Bytes} (h : bytes ≠ []) : encode true bytes ≠ [] := by
  match bytes, h with
  | [_], _ => simp [encode]
  | [_, _], _ => simp [encode]
  | _ :: _ :: _ :: _, _ => simp [encode]

theorem length_encode_mod (bytes : Bytes) : (encode true bytes).length % 4 = 0 := by
  fun_induction encode true bytes with
  | case1 => rfl
  | case2 a n => simp
  | case3 a b n => simp
  | case4 a b c rest n ih =>
      rw [List.length_append]
      simpa using ih

theorem length_encode_le {bytes : Bytes} (h : bytes.length ≤ 3) :
    (encode true bytes).length ≤ 4 := by
  match bytes, h with
  | [], _ => simp [encode]
  | [_], _ => simp [encode]
  | [_, _], _ => simp [encode]
  | [_, _, _], _ => simp [encode]

theorem decodeFrom_of_length_le {offset : Nat} {input : Bytes} (h : input.length ≤ 4) :
    decodeFrom true offset input = decodeLast true offset input := by
  unfold decodeFrom
  split
  · simp only [List.length_cons] at h
    omega
  · rfl

/-- The last group holds at most three bytes. -/
theorem decodeFrom_encode_of_length_le {offset : Nat} {bytes : Bytes} (h : bytes.length ≤ 3)
    (hfirst : bytes ≠ [] ∨ offset = 0) :
    decodeFrom true offset (encode true bytes) = .ok bytes := by
  rw [decodeFrom_of_length_le (length_encode_le h), decodeLast_encode h hfirst]

theorem decodeFrom_encode {offset : Nat} {bytes : Bytes} (hfirst : bytes ≠ [] ∨ offset = 0) :
    decodeFrom true offset (encode true bytes) = .ok bytes := by
  induction bytes using encode.induct generalizing offset with
  | case1 => exact decodeFrom_encode_of_length_le (by simp) hfirst
  | case2 a => exact decodeFrom_encode_of_length_le (by simp) hfirst
  | case3 a b => exact decodeFrom_encode_of_length_le (by simp) hfirst
  | case4 a b c rest ih =>
      by_cases hlast : rest = []
      · subst hlast
        exact decodeFrom_encode_of_length_le (by simp) hfirst
      · obtain ⟨e, more, hmore⟩ := List.exists_cons_of_ne_nil (encode_ne_nil hlast)
        have hrest : decodeFrom true (offset + 4) (encode true rest) = .ok rest := ih (.inl hlast)
        rw [hmore] at hrest
        generalize hn : 65536 * a.toNat + 256 * b.toNat + c.toNat = n
        obtain ⟨hlarge, hjoin, ha, hb, hc⟩ := bytes_of_symbols a b c hn
        have hone := value?_symbol (n / 262144) (by omega)
        have htwo := value?_symbol (n / 4096 % 64) (by omega)
        have hthree := value?_symbol (n / 64 % 64) (by omega)
        have hfour := value?_symbol (n % 64) (by omega)
        rw [encode, hn, hmore]
        simp only [List.cons_append, List.nil_append, decodeFrom, hone, htwo, hthree, hfour,
          hrest, bind, Except.bind, pure, Except.pure, hjoin, ha, hb, hc]

theorem decode_encode (bytes : Bytes) : decode true (encode true bytes) = .ok bytes := by
  unfold decode
  rw [length_encode_mod]
  exact decodeFrom_encode (.inr rfl)

/-! ## Symbols -/

/-- A byte that is written: a symbol of the alphabet or the padding. -/
def IsWritten (b : UInt8) : Prop := b = pad ∨ ∃ n < 64, b = symbol n

theorem isWritten_of_mem_encode {bytes : Bytes} : ∀ b ∈ encode true bytes, IsWritten b := by
  have hsymbol : ∀ n, n < 64 → IsWritten (symbol n) := fun n hn => .inr ⟨n, hn, rfl⟩
  induction bytes using encode.induct with
  | case1 => simp [encode]
  | case2 a =>
      have ha := a.toNat_lt
      simp only [encode, if_true, List.cons_append, List.nil_append, List.forall_mem_cons]
      exact ⟨hsymbol _ (by omega), hsymbol _ (by omega), .inl rfl, .inl rfl, by simp⟩
  | case3 a b =>
      have ha := a.toNat_lt
      have hb := b.toNat_lt
      simp only [encode, if_true, List.cons_append, List.nil_append, List.forall_mem_cons]
      exact ⟨hsymbol _ (by omega), hsymbol _ (by omega), hsymbol _ (by omega), .inl rfl, by simp⟩
  | case4 a b c rest ih =>
      have hlarge := (bytes_of_symbols a b c rfl).1
      simp only [encode, List.cons_append, List.nil_append, List.forall_mem_cons]
      exact ⟨hsymbol _ (by omega), hsymbol _ (by omega), hsymbol _ (by omega),
        hsymbol _ (by omega), ih⟩

theorem IsWritten.range {b : UInt8} (h : IsWritten b) : 0x2B ≤ b.toNat ∧ b.toNat ≤ 0x7A := by
  have hsymbols : ∀ n < 64, 0x2B ≤ (symbol n).toNat ∧ (symbol n).toNat ≤ 0x7A := by decide
  obtain rfl | ⟨n, hn, rfl⟩ := h
  · decide
  · exact hsymbols n hn

end Base64

end InterceptingProxy
