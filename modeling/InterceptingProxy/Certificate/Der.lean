import InterceptingProxy.Text

set_option autoImplicit false

/-! # Distinguished encoding

Certificates and keys are trees of elements: a tag, a length and contents. `Der.read` takes one
element off the front of a byte string and returns what follows it; `Der.expect` also checks the
tag. Lengths are definite. -/

namespace InterceptingProxy.Der

/-- The tag of an element. -/
structure Tag where
  /-- 0 for types of the standard, 2 for those that the context defines. -/
  cls : Nat := 0
  /-- Whether the contents are elements themselves. -/
  constructed : Bool := false
  number : Nat
  deriving DecidableEq, Repr

/-- One element. -/
structure Element where
  tag : Tag
  content : Bytes
  deriving DecidableEq, Repr

/-- Why bytes are no element, or not the wanted one. -/
inductive Fault where
  /-- The input ends early; the number of bytes missing. -/
  | incomplete (missing : Nat)
  | unexpectedTag (expected actual : Nat)
  | invalidLength
  | invalidValue
  deriving DecidableEq, Repr

namespace Tag

/-- Whole numbers. -/
def integer : Tag := { number := 2 }

/-- Bit strings. -/
def bitString : Tag := { number := 3 }

/-- Byte strings. -/
def octetString : Tag := { number := 4 }

/-- The empty value. -/
def null : Tag := { number := 5 }

/-- Object identifiers. -/
def objectId : Tag := { number := 6 }

/-- Truth values. -/
def boolean : Tag := { number := 1 }

/-- Sequences. -/
def sequence : Tag := { constructed := true, number := 16 }

/-- Sets. -/
def set : Tag := { constructed := true, number := 17 }

/-- Dates with a year of two digits. -/
def utcTime : Tag := { number := 23 }

/-- Dates with a year of four digits. -/
def generalizedTime : Tag := { number := 24 }

/-- A type that the context defines. -/
def context (number : Nat) (constructed : Bool) : Tag := { cls := 2, constructed, number }

end Tag

/-- The digits in base 128 of a large tag number, and what follows them. -/
def tagNumber (value : Nat) : Bytes → Except Fault (Nat × Bytes)
  | [] => .error (.incomplete 1)
  | b :: rest =>
    let value := 128 * value + b.toNat % 128
    if b < 0x80 then .ok (value, rest) else tagNumber value rest

/-- The tag at the front. -/
def readTag : Bytes → Except Fault (Tag × Bytes)
  | [] => .error (.incomplete 1)
  | b :: rest => do
    let cls := b.toNat / 64
    let constructed := b.toNat / 32 % 2 == 1
    let (number, rest) ← if b.toNat % 32 = 31 then tagNumber 0 rest else .ok (b.toNat % 32, rest)
    return ({ cls, constructed, number }, rest)

/-- The length at the front: one byte, or the number of bytes that hold it. -/
def readLength : Bytes → Except Fault (Nat × Bytes)
  | [] => .error (.incomplete 1)
  | b :: rest =>
    if b < 0x80 then .ok (b.toNat, rest)
    else
      let width := b.toNat - 0x80
      if width = 0 ∨ width > 8 then .error .invalidLength
      else if rest.length < width then .error (.incomplete (width - rest.length))
      else .ok (Bytes.toNatBE (rest.take width), rest.drop width)

/-- One element, and what follows it. -/
def read (bytes : Bytes) : Except Fault (Element × Bytes) := do
  let (tag, rest) ← readTag bytes
  let (length, rest) ← readLength rest
  if rest.length < length then throw (.incomplete (length - rest.length))
  return ({ tag, content := rest.take length }, rest.drop length)

/-- The contents of an element with the given tag, and what follows it. -/
def expect (tag : Tag) (bytes : Bytes) : Except Fault (Bytes × Bytes) := do
  let (e, rest) ← read bytes
  if e.tag = tag then return (e.content, rest)
  else throw (.unexpectedTag tag.number e.tag.number)

/-- All elements of a byte string; `fuel` bounds their number. -/
def readAllWithin (fuel : Nat) (bytes : Bytes) : Except Fault (List Element) :=
  match fuel, bytes with
  | _, [] => .ok []
  | 0, _ => .error .invalidLength
  | fuel + 1, bytes => do
    let (e, rest) ← read bytes
    return e :: (← readAllWithin fuel rest)

/-- All elements of a byte string. -/
def readAll (bytes : Bytes) : Except Fault (List Element) := readAllWithin bytes.length bytes

/-- The length field of an element. -/
def writeLength (n : Nat) : Bytes :=
  if n < 128 then [n.toUInt8]
  else if n < 256 then [0x81, n.toUInt8]
  else 0x82 :: Bytes.ofNatBE 2 n

/-- An element of a standard type as bytes. -/
def write (tag : Tag) (content : Bytes) : Bytes :=
  (64 * tag.cls + (if tag.constructed then 32 else 0) + tag.number).toUInt8
    :: (writeLength content.length ++ content)

end InterceptingProxy.Der
