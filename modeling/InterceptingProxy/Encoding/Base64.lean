import InterceptingProxy.Text

set_option autoImplicit false

/-! # Base64

The standard alphabet. `Base64.encode` writes four symbols for three bytes and fills the last
group with `=` when asked to. `Base64.decode` reports the first fault with its offset: a symbol
outside the alphabet (a `=` that cannot be padding counts as one), a group of a single symbol,
padding that does not fill the last group, or a last symbol with bits that belong to no byte. -/

namespace InterceptingProxy.Base64

/-- The symbol for a value below 64. -/
def symbol (n : Nat) : UInt8 :=
  if n < 26 then (0x41 + n).toUInt8
  else if n < 52 then (0x61 + (n - 26)).toUInt8
  else if n < 62 then (0x30 + (n - 52)).toUInt8
  else if n = 62 then 0x2B
  else 0x2F

/-- The value of a symbol. -/
def value? (b : UInt8) : Option Nat :=
  if 0x41 ≤ b && b ≤ 0x5A then some (b.toNat - 0x41)
  else if 0x61 ≤ b && b ≤ 0x7A then some (b.toNat - 0x61 + 26)
  else if 0x30 ≤ b && b ≤ 0x39 then some (b.toNat - 0x30 + 52)
  else if b == 0x2B then some 62
  else if b == 0x2F then some 63
  else none

/-- The padding symbol. -/
def pad : UInt8 := 0x3D

/-- The symbols of a byte string, filled up to a multiple of four when `padded`. -/
def encode (padded : Bool) : Bytes → Bytes
  | [] => []
  | [a] =>
    let n := a.toNat
    [symbol (n / 4), symbol (n % 4 * 16)] ++ (if padded then [pad, pad] else [])
  | [a, b] =>
    let n := 256 * a.toNat + b.toNat
    [symbol (n / 1024), symbol (n / 16 % 64), symbol (n % 16 * 4)]
      ++ (if padded then [pad] else [])
  | a :: b :: c :: rest =>
    let n := 65536 * a.toNat + 256 * b.toNat + c.toNat
    [symbol (n / 262144), symbol (n / 4096 % 64), symbol (n / 64 % 64), symbol (n % 64)]
      ++ encode padded rest

/-- Why a text is not base64. -/
inductive Fault where
  /-- A byte outside the alphabet, or a `=` where no padding can stand. -/
  | symbol (offset : Nat) (byte : UInt8)
  /-- A last group of one symbol; the number of symbols before the fault. -/
  | length (n : Nat)
  /-- The last symbol carries bits that belong to no byte. -/
  | lastSymbol (offset : Nat) (byte : UInt8)
  /-- The padding does not fill the last group. -/
  | padding
  deriving DecidableEq, Repr

/-- The wording of a fault. -/
def Fault.message : Fault → Text
  | .symbol offset byte =>
    "Invalid symbol ".toList ++ Text.ofNat byte.toNat ++ ", offset ".toList ++ Text.ofNat offset
      ++ ".".toList
  | .length n => "Invalid input length: ".toList ++ Text.ofNat n
  | .lastSymbol offset byte =>
    "Invalid last symbol ".toList ++ Text.ofNat byte.toNat ++ ", offset ".toList
      ++ Text.ofNat offset ++ ".".toList
  | .padding => "Invalid padding".toList

/-- The symbols of the last group before its padding, with the amount of padding. -/
def lastSymbols (offset : Nat) : (index : Nat) → (padding : Option Nat) → Bytes →
    Except Fault (List (UInt8 × Nat) × Nat)
  | index, padding, [] => .ok ([], match padding with | none => 0 | some first => index - first)
  | index, padding, b :: rest =>
    if b = pad then
      if index < 2 then .error (.symbol (offset + index) b)
      else lastSymbols offset (index + 1) (padding.or (some index)) rest
    else match padding with
      | some first => .error (.symbol (offset + first) pad)
      | none =>
        match value? b with
        | none => .error (.symbol (offset + index) b)
        | some v => do
          let (symbols, padded) ← lastSymbols offset (index + 1) none rest
          return ((b, v) :: symbols, padded)

/-- Decodes the last group, of at most four symbols with padding. -/
def decodeLast (filled : Bool) (offset : Nat) (input : Bytes) : Except Fault Bytes := do
  let (symbols, padding) ← lastSymbols offset 0 none input
  if symbols.length < 2 ∧ (offset ≠ 0 ∨ input ≠ []) then
    throw (.length (offset + symbols.length))
  if filled ∧ (padding + symbols.length) % 4 ≠ 0 then throw .padding
  let last := (symbols.getLast?.map Prod.fst).getD 0
  match symbols.map Prod.snd with
  | [a, b] =>
    if b % 16 ≠ 0 then throw (.lastSymbol (offset + 1) last)
    return [(4 * a + b / 16).toUInt8]
  | [a, b, c] =>
    if c % 4 ≠ 0 then throw (.lastSymbol (offset + 2) last)
    let n := 4096 * a + 64 * b + c
    return [(n / 1024).toUInt8, (n / 4 % 256).toUInt8]
  | [a, b, c, d] =>
    let n := 262144 * a + 4096 * b + 64 * c + d
    return [(n / 65536).toUInt8, (n / 256 % 256).toUInt8, (n % 256).toUInt8]
  | _ => return []

/-- Decodes groups of four; the last group, which may hold padding, is left to `decodeLast`. -/
def decodeFrom (filled : Bool) (offset : Nat) : Bytes → Except Fault Bytes
  | a :: b :: c :: d :: e :: rest => do
    let read (index : Nat) (byte : UInt8) : Except Fault Nat :=
      match value? byte with
      | some v => .ok v
      | none => .error (.symbol (offset + index) byte)
    let n := 262144 * (← read 0 a) + 4096 * (← read 1 b) + 64 * (← read 2 c) + (← read 3 d)
    let more ← decodeFrom filled (offset + 4) (e :: rest)
    return (n / 65536).toUInt8 :: (n / 256 % 256).toUInt8 :: (n % 256).toUInt8 :: more
  | input => decodeLast filled offset input

/-- The bytes that a text stands for. With `filled` the padding must complete the last group,
    otherwise any amount of it will do. A stray last byte after full groups is reported before
    anything else. -/
def decode (filled : Bool) (input : Bytes) : Except Fault Bytes :=
  match input.length % 4, input.getLast? with
  | 1, some last =>
    if last ≠ pad ∧ value? last = none then .error (.symbol (input.length - 1) last)
    else decodeFrom filled 0 input
  | _, _ => decodeFrom filled 0 input

end InterceptingProxy.Base64
