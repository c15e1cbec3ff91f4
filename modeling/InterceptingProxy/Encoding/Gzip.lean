import InterceptingProxy.Encoding.Deflate

set_option autoImplicit false

/-! # Gzip

A gzip member is a header, a deflated text, the checksum of what it inflates to and the length of
that. `Gzip.decode` reads the first member of a byte string; what follows it is ignored. -/

namespace InterceptingProxy.Gzip

/-- Why bytes are no gzip member. -/
inductive Fault where
  | truncated
  | header
  | body
  | checksum
  deriving DecidableEq, Repr

/-- The wording of a fault. -/
def Fault.message : Fault → Text
  | .truncated => "unexpected end of file".toList
  | .header => "invalid gzip header".toList
  | .body => "corrupt deflate stream".toList
  | .checksum => "corrupt gzip stream does not have a matching checksum".toList

/-! ## Checksum -/

/-- One bit of the checksum. -/
def checksumBit (crc : UInt32) : UInt32 :=
  if crc &&& 1 = 1 then (crc >>> 1) ^^^ 0xEDB88320 else crc >>> 1

/-- One byte of the checksum. -/
def checksumByte (crc : UInt32) (b : UInt8) : UInt32 :=
  (List.range 8).foldl (fun crc _ => checksumBit crc) (crc ^^^ b.toUInt32)

/-- The cyclic redundancy check of a byte string. -/
def checksum (bytes : Bytes) : UInt32 := bytes.foldl checksumByte 0xFFFFFFFF ^^^ 0xFFFFFFFF

/-! ## Members -/

/-- The two bytes that a member starts with, and the number of the method. -/
def magic : Bytes := [0x1F, 0x8B, 8]

/-- A number in bytes, lowest first. -/
def littleEndian (width n : Nat) : Bytes := (Bytes.ofNatBE width n).reverse

/-- Skips a name or a comment, which ends with a zero. -/
def skipText (bytes : Bytes) : Except Fault Bytes :=
  match bytes.dropWhile (· ≠ 0) with
  | [] => .error .truncated
  | _ :: rest => .ok rest

/-- Skips a number of bytes. -/
def skip (n : Nat) (bytes : Bytes) : Except Fault Bytes :=
  if bytes.length < n then .error .truncated else .ok (bytes.drop n)

/-- Skips the header of a member. -/
def skipHeader (bytes : Bytes) : Except Fault Bytes := do
  let rest ← skip 10 bytes
  if bytes.take 3 ≠ magic then throw .header
  let flags := (bytes[3]?.getD 0).toNat
  let rest ←
    if flags.testBit 2 then do
      let after ← skip 2 rest
      skip (Bytes.toNatBE (rest.take 2).reverse) after
    else pure rest
  let rest ← if flags.testBit 3 then skipText rest else pure rest
  let rest ← if flags.testBit 4 then skipText rest else pure rest
  if flags.testBit 1 then skip 2 rest else return rest

/-- What a member inflates to. -/
def decode (bytes : Bytes) : Except Fault Bytes := do
  let body ← skipHeader bytes
  match Deflate.inflate body with
  | .error .truncated => throw .truncated
  | .error .corrupt => throw .body
  | .ok (content, used) =>
    let rest := body.drop used
    if rest.length < 8 then throw .truncated
    if rest.take 8 ≠ littleEndian 4 (checksum content).toNat
        ++ littleEndian 4 (content.length % 4294967296) then throw .checksum
    return content

/-- A member with the given content. -/
def encode (content : Bytes) : Bytes :=
  magic ++ [0, 0, 0, 0, 0, 0, 0xFF] ++ Deflate.deflate content
    ++ littleEndian 4 (checksum content).toNat
    ++ littleEndian 4 (content.length % 4294967296)

end InterceptingProxy.Gzip
