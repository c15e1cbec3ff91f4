import InterceptingProxy.Text.Utf8

set_option autoImplicit false

/-! # Percent encoding

`Percent.encode` writes every byte of a given set, and every byte that is not ASCII, as `%` and
two capital hexadecimal digits. `Percent.decode` reads such triples back and keeps every `%` that
does not begin one. -/

namespace InterceptingProxy.Percent

/-- The capital hexadecimal digit of a value below sixteen. -/
def digit (n : Nat) : UInt8 := if n < 10 then (0x30 + n).toUInt8 else (0x41 + (n - 10)).toUInt8

/-- The value of a hexadecimal digit. -/
def digitValue? (b : UInt8) : Option Nat :=
  if 0x30 ≤ b && b ≤ 0x39 then some (b.toNat - 0x30)
  else if 0x61 ≤ b && b ≤ 0x66 then some (b.toNat - 0x61 + 10)
  else if 0x41 ≤ b && b ≤ 0x46 then some (b.toNat - 0x41 + 10)
  else none

/-- The bytes with those in `escaped`, and all that are not ASCII, written as triples. -/
def encode (escaped : UInt8 → Bool) (bytes : Bytes) : Bytes :=
  bytes.flatMap fun b =>
    if b ≥ 0x80 || escaped b then [0x25, digit (b.toNat / 16), digit (b.toNat % 16)] else [b]

/-- The bytes with every triple read back. -/
def decode : Bytes → Bytes
  | [] => []
  | 0x25 :: hi :: lo :: rest =>
    match digitValue? hi, digitValue? lo with
    | some h, some l => (16 * h + l).toUInt8 :: decode rest
    | _, _ => 0x25 :: decode (hi :: lo :: rest)
  | b :: rest => b :: decode rest

end InterceptingProxy.Percent
