set_option autoImplicit false

/-! # Bytes and text

Payloads and header values are lists of bytes (`Bytes`); addresses, host names and messages are
lists of characters (`Text`). Both are lists, so the searching and splitting functions of this
file are stated once for lists of any type: `splitOn` cuts at every separator, `splitFirst` and
`splitLast` cut at one, `stripPrefix` and `stripSuffix` remove an end that must be there. -/

namespace InterceptingProxy

/-- A byte string. -/
abbrev Bytes := List UInt8

/-- A character string. -/
abbrev Text := List Char

section Lists

variable {α : Type} [DecidableEq α]

/-- The pieces of `l` between the occurrences of `sep`; never empty. -/
def splitOn (sep : α) : List α → List (List α)
  | [] => [[]]
  | a :: l =>
    if a = sep then [] :: splitOn sep l
    else match splitOn sep l with
      | [] => [[a]]
      | piece :: rest => (a :: piece) :: rest

/-- What stands before and after the first `sep`, if there is one. -/
def splitFirst (sep : α) : List α → Option (List α × List α)
  | [] => none
  | a :: l =>
    if a = sep then some ([], l)
    else (splitFirst sep l).map fun (before, after) => (a :: before, after)

/-- What stands before and after the last `sep`, if there is one. -/
def splitLast (sep : α) : List α → Option (List α × List α)
  | [] => none
  | a :: l =>
    match splitLast sep l with
    | some (before, after) => some (a :: before, after)
    | none => if a = sep then some ([], l) else none

/-- `l` without `start`, if it begins with it. -/
def stripPrefix (start : List α) (l : List α) : Option (List α) :=
  match start, l with
  | [], l => some l
  | _ :: _, [] => none
  | s :: start, a :: l => if s = a then stripPrefix start l else none

/-- `l` without `ending`, if it ends in it. -/
def stripSuffix (ending : List α) (l : List α) : Option (List α) :=
  (stripPrefix ending.reverse l.reverse).map List.reverse

/-- Whether `piece` occurs in `l` as a run of neighbours. -/
def containsRun (piece : List α) : List α → Bool
  | [] => piece.isEmpty
  | a :: l => piece.isPrefixOf (a :: l) || containsRun piece l

/-- `l` without the elements at its end that satisfy `p`. -/
def dropEndWhile (p : α → Bool) (l : List α) : List α :=
  (l.reverse.dropWhile p).reverse

end Lists

/-! ## Characters -/

/-- A character of the Unicode property `White_Space`. -/
def isBlank (c : Char) : Bool :=
  let n := c.toNat
  (9 ≤ n && n ≤ 13) || n == 0x20 || n == 0x85 || n == 0xA0 || n == 0x1680
    || (0x2000 ≤ n && n ≤ 0x200A) || n == 0x2028 || n == 0x2029 || n == 0x202F || n == 0x205F
    || n == 0x3000

/-- An ASCII letter in lower case; other characters stay as they are. -/
def lowerChar (c : Char) : Char := c.toLower

/-- The text with its ASCII letters in lower case. -/
def Text.lower (t : Text) : Text := t.map lowerChar

/-- The text without white space at its ends. -/
def Text.trim (t : Text) : Text := dropEndWhile isBlank (t.dropWhile isBlank)

/-- The decimal digits of a number. -/
def Text.ofNat (n : Nat) : Text := Nat.toDigits 10 n

/-- The number written by decimal digits, most significant first. -/
def digitsValue (digits : Text) : Nat :=
  digits.foldl (fun n d => 10 * n + (d.toNat - '0'.toNat)) 0

/-! ## Bytes of ASCII text -/

/-- The bytes of a text whose characters are all below 256. -/
def Bytes.ofLatin (t : Text) : Bytes := t.map fun c => c.toNat.toUInt8

/-- The characters with the numbers of the given bytes. -/
def Bytes.toLatin (bytes : Bytes) : Text := bytes.map fun b => Char.ofNat b.toNat

/-- The bytes of an ASCII literal. -/
def ascii (s : String) : Bytes := Bytes.ofLatin s.toList

/-- An ASCII capital letter made small; other bytes stay as they are. -/
def lowerByte (b : UInt8) : UInt8 := if 0x41 ≤ b ∧ b ≤ 0x5A then b + 0x20 else b

/-- The bytes with ASCII letters in lower case. -/
def Bytes.lower (bytes : Bytes) : Bytes := bytes.map lowerByte

/-! ## Numbers in big-endian order -/

/-- The number whose big-endian digits in base 256 are the given bytes. -/
def Bytes.toNatBE (bytes : Bytes) : Nat := bytes.foldl (fun n b => 256 * n + b.toNat) 0

/-- The last `width` base-256 digits of `n`, most significant first. -/
def Bytes.ofNatBE (width n : Nat) : Bytes :=
  match width with
  | 0 => []
  | width + 1 => Bytes.ofNatBE width (n / 256) ++ [n.toUInt8]

end InterceptingProxy
