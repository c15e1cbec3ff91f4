import InterceptingProxy.Text

set_option autoImplicit false

/-! # UTF-8

Encoding is core's `String.utf8EncodeChar`, character by character. Decoding (`Utf8.decode`) stops
at the first byte that no character can have there and reports how many bytes before it were
valid, and how long the invalid sequence is (`none` when the bytes simply end too early). -/

namespace InterceptingProxy

/-- The UTF-8 form of a text. -/
def Text.utf8 (t : Text) : Bytes := t.flatMap String.utf8EncodeChar

namespace Utf8

/-- Where and how a byte string stops being UTF-8. -/
structure Fault where
  /-- Number of bytes before the faulty sequence. -/
  validUpTo : Nat
  /-- Length of the faulty sequence; `none` if the input ends inside a character. -/
  length : Option Nat
  deriving DecidableEq, Repr

/-- The wording of a fault. -/
def Fault.message (f : Fault) : Text :=
  match f.length with
  | some n =>
    "invalid utf-8 sequence of ".toList ++ Text.ofNat n ++ " bytes from index ".toList
      ++ Text.ofNat f.validUpTo
  | none => "incomplete utf-8 byte sequence from index ".toList ++ Text.ofNat f.validUpTo

/-- How many bytes follow a first byte, and the range of the first of them; `none` if no
    character begins with the byte. -/
def following (first : UInt8) : Option (Nat × UInt8 × UInt8) :=
  if first ≤ 0x7F then some (0, 0x80, 0xBF)
  else if 0xC2 ≤ first && first ≤ 0xDF then some (1, 0x80, 0xBF)
  else if first == 0xE0 then some (2, 0xA0, 0xBF)
  else if first == 0xED then some (2, 0x80, 0x9F)
  else if 0xE1 ≤ first && first ≤ 0xEF then some (2, 0x80, 0xBF)
  else if first == 0xF0 then some (3, 0x90, 0xBF)
  else if 0xF1 ≤ first && first ≤ 0xF3 then some (3, 0x80, 0xBF)
  else if first == 0xF4 then some (3, 0x80, 0x8F)
  else none

/-- The bits of the first byte that belong to the character, given how many bytes follow. -/
def leadBits (first : UInt8) (count : Nat) : Nat :=
  match count with
  | 0 => first.toNat
  | 1 => first.toNat % 0x20
  | 2 => first.toNat % 0x10
  | _ => first.toNat % 0x08

/-- Reads `count` continuation bytes, the first within `lo … hi`. The error is the number of bytes
    of the sequence that were still good, with `true` if the input ended there. -/
def tails (count : Nat) (lo hi : UInt8) (value : Nat) (good : Nat) :
    Bytes → Except (Nat × Bool) Nat
  | [] => if count = 0 then .ok value else .error (good, true)
  | b :: rest =>
    match count with
    | 0 => .ok value
    | count + 1 =>
      if lo ≤ b && b ≤ hi then
        tails count 0x80 0xBF (64 * value + b.toNat % 0x40) (good + 1) rest
      else .error (good, false)

/-- Decodes from position `position`; `fuel` bounds the number of characters. -/
def decodeFrom (fuel : Nat) (position : Nat) (bytes : Bytes) : Except Fault Text :=
  match fuel, bytes with
  | 0, _ => .ok []
  | _, [] => .ok []
  | fuel + 1, first :: rest =>
    match following first with
    | none => .error ⟨position, some 1⟩
    | some (count, lo, hi) =>
      match tails count lo hi (leadBits first count) 1 rest with
      | .error (good, ended) => .error ⟨position, if ended then none else some good⟩
      | .ok value => do
        let more ← decodeFrom fuel (position + 1 + count) (rest.drop count)
        return Char.ofNat value :: more

/-- The text that the bytes encode, or the first fault. -/
def decode (bytes : Bytes) : Except Fault Text := decodeFrom bytes.length 0 bytes

/-- The text that the bytes encode, if they are UTF-8. -/
def decode? (bytes : Bytes) : Option Text := (decode bytes).toOption

/-- Decodes with a replacement character for each faulty sequence; `fuel` bounds the number of
    faults. -/
def lossyWithin (fuel : Nat) (bytes : Bytes) : Text :=
  match fuel, decode bytes with
  | _, .ok text => text
  | 0, .error _ => []
  | fuel + 1, .error fault =>
    let valid := (decode? (bytes.take fault.validUpTo)).getD []
    let rest := match fault.length with
      | some n => bytes.drop (fault.validUpTo + n)
      | none => []
    valid ++ Char.ofNat 0xFFFD :: lossyWithin fuel rest

/-- The text that the bytes encode, with a replacement character for each faulty sequence. -/
def lossy (bytes : Bytes) : Text := lossyWithin (bytes.length + 1) bytes

end Utf8

end InterceptingProxy
