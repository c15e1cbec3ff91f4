import InterceptingProxy.Text

set_option autoImplicit false

/-! # Hexadecimal text

Two lower-case digits per byte, most significant first (`Hex.encode`), and the reader that accepts
digits of either case and nothing else (`Hex.decode?`). -/

namespace InterceptingProxy.Hex

/-- The digit of a value below sixteen. -/
def digit (n : Nat) : Char :=
  if n < 10 then Char.ofNat ('0'.toNat + n) else Char.ofNat ('a'.toNat + (n - 10))

/-- The value of a hexadecimal digit. -/
def digitValue? (c : Char) : Option Nat :=
  if '0' ≤ c ∧ c ≤ '9' then some (c.toNat - '0'.toNat)
  else if 'a' ≤ c ∧ c ≤ 'f' then some (c.toNat - 'a'.toNat + 10)
  else if 'A' ≤ c ∧ c ≤ 'F' then some (c.toNat - 'A'.toNat + 10)
  else none

/-- The two digits of a byte. -/
def encodeByte (b : UInt8) : Text := [digit (b.toNat / 16), digit (b.toNat % 16)]

/-- The digits of all bytes. -/
def encode (bytes : Bytes) : Text := bytes.flatMap encodeByte

/-- The bytes written by pairs of digits. -/
def decode? : Text → Option Bytes
  | [] => some []
  | hi :: lo :: rest => do
    let h ← digitValue? hi
    let l ← digitValue? lo
    let more ← decode? rest
    return (16 * h + l).toUInt8 :: more
  | [_] => none

end InterceptingProxy.Hex
