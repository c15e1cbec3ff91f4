import InterceptingProxy.Encoding.Base64
import InterceptingProxy.Text.Quoted
import InterceptingProxy.Text.Utf8

set_option autoImplicit false

/-! # Sections in text form

Certificates and keys are kept in text files as sections: a line `-----BEGIN X-----`, lines of
base64, and a line `-----END X-----`. What stands outside of sections is skipped, and so are
sections of unknown labels. `Pem.next` reads up to the end of the next section. -/

namespace InterceptingProxy.Pem

/-- Why a section cannot be read. -/
inductive Fault where
  /-- A section without its last line. -/
  | endMissing (label : Bytes)
  /-- A first line that does not end in five dashes. -/
  | illegalStart (line : Bytes)
  /-- A character that is not base64. -/
  | invalidCharacter (byte : UInt8)
  /-- Padding before the last group. -/
  | prematurePadding
  /-- A last group of a wrong size. -/
  | invalidTrailingPadding
  deriving DecidableEq, Repr

/-- The wording of a fault. -/
def Fault.message : Fault → Text
  | .endMissing label => "section end ".toList ++ (Utf8.lossy label).quoted ++ " missing".toList
  | .illegalStart line => "illegal section start: ".toList ++ (Utf8.lossy line).quoted
  | .invalidCharacter b => "InvalidCharacter(".toList ++ Text.ofNat b.toNat ++ ")".toList
  | .prematurePadding => "PrematurePadding".toList
  | .invalidTrailingPadding => "InvalidTrailingPadding".toList

/-- A section: its label and the bytes it holds. -/
structure Block where
  label : Bytes
  content : Bytes
  deriving DecidableEq, Repr

/-- A line feed or a carriage return. -/
def isLineEnd (b : UInt8) : Bool := b == 0x0A || b == 0x0D

/-- The lines, each with the byte that ends it. -/
def lines : Bytes → List Bytes
  | [] => []
  | b :: rest =>
    if isLineEnd b then [b] :: lines rest
    else match lines rest with
      | [] => [[b]]
      | line :: more => (b :: line) :: more

/-! ## Lines that start and end sections -/

/-- Five dashes. -/
def dashes : Bytes := ascii "-----"

/-- Bytes that may stand after or between the dashes at the end of a first line. -/
def isFiller (b : UInt8) : Bool := isLineEnd b || b == 0x20

/-- The label of a first line, if the line is one. -/
def label? (line : Bytes) : Option (Except Fault Bytes) :=
  (stripPrefix (ascii "-----BEGIN ") line).map fun rest =>
    let ending := line.reverse.takeWhile fun b => b == 0x2D || isFiller b
    if ending.count 0x2D ≠ 5 then .error (.illegalStart line)
    else
      let trailer := ending.reverse.dropWhile isFiller
      .ok (rest.take (rest.length - trailer.length))

/-- Whether a line ends a section with the given label. -/
def endsSection (label line : Bytes) : Bool :=
  (ascii "-----END " ++ label ++ dashes).isPrefixOf line

/-- The labels that are read; sections with others are skipped. -/
def knownLabels : List Bytes :=
  ["CERTIFICATE", "PUBLIC KEY", "RSA PRIVATE KEY", "PRIVATE KEY", "EC PRIVATE KEY", "X509 CRL",
    "CERTIFICATE REQUEST", "ECHCONFIG"].map ascii

/-! ## Contents -/

/-- White space between base64 symbols. -/
def isSpace (b : UInt8) : Bool := b == 0x20 || (0x09 ≤ b && b ≤ 0x0D)

/-- A symbol with its value; the padding has none. -/
def symbols : Bytes → Except Fault (List (Option Nat))
  | [] => .ok []
  | b :: rest =>
    if isSpace b then symbols rest
    else if b = Base64.pad then (symbols rest).map (none :: ·)
    else match Base64.value? b with
      | some v => (symbols rest).map (some v :: ·)
      | none => .error (.invalidCharacter b)

/-- The bytes of groups of four symbols; the last group may be short or padded. -/
def decodeSymbols : List (Option Nat) → Except Fault Bytes
  | [] => .ok []
  | [some a, some b, some c, some d] =>
    let n := 262144 * a + 4096 * b + 64 * c + d
    .ok [(n / 65536).toUInt8, (n / 256 % 256).toUInt8, (n % 256).toUInt8]
  | [some a, some b, some c] | [some a, some b, some c, none] =>
    let n := 4096 * a + 64 * b + c
    .ok [(n / 1024).toUInt8, (n / 4 % 256).toUInt8]
  | [some a, some b] | [some a, some b, none, none] => .ok [(4 * a + b / 16).toUInt8]
  | a :: b :: c :: d :: e :: rest =>
    match a, b, c, d with
    | some a, some b, some c, some d => do
      let n := 262144 * a + 4096 * b + 64 * c + d
      let more ← decodeSymbols (e :: rest)
      return (n / 65536).toUInt8 :: (n / 256 % 256).toUInt8 :: (n % 256).toUInt8 :: more
    | _, _, _, _ => .error .prematurePadding
  | _ => .error .invalidTrailingPadding

/-- The bytes that the lines of a section stand for. -/
def decode (text : Bytes) : Except Fault Bytes := do decodeSymbols (← symbols text)

/-! ## Sections -/

/-- Reads lines until a section is complete. `current` is the label of the section that has begun,
    and `text` what its lines hold so far. -/
def next (current : Option Bytes) (text : Bytes) :
    List Bytes → Except Fault (Option (Block × List Bytes))
  | [] =>
    match current with
    | some label => .error (.endMissing label)
    | none => .ok none
  | line :: rest =>
    match label? line with
    | some (.error f) => .error f
    | some (.ok label) => next (some label) text rest
    | none =>
      match current with
      | none => next none text rest
      | some label =>
        if endsSection label line then
          if knownLabels.contains label then
            match decode text with
            | .ok content => .ok (some (⟨label, content⟩, rest))
            | .error f => .error f
          else next none [] rest
        else next current (text ++ line) rest

/-- All sections; `fuel` bounds their number. -/
def blocksWithin (fuel : Nat) (rest : List Bytes) : Except Fault (List Block) :=
  match fuel with
  | 0 => .ok []
  | fuel + 1 => do
    match ← next none [] rest with
    | none => return []
    | some (block, rest) => return block :: (← blocksWithin fuel rest)

/-- All sections of a file. -/
def blocks (file : Bytes) : Except Fault (List Block) :=
  let rest := lines file
  blocksWithin (rest.length + 1) rest

/-- The first section that `p` accepts, with no look at what follows it. -/
def findWithin {α : Type} (fuel : Nat) (p : Block → Option α) (rest : List Bytes) :
    Except Fault (Option α) :=
  match fuel with
  | 0 => .ok none
  | fuel + 1 => do
    match ← next none [] rest with
    | none => return none
    | some (block, rest) =>
      match p block with
      | some a => return some a
      | none => findWithin fuel p rest

/-- The first section of a file that `p` accepts. -/
def find {α : Type} (p : Block → Option α) (file : Bytes) : Except Fault (Option α) :=
  let rest := lines file
  findWithin (rest.length + 1) p rest

end InterceptingProxy.Pem
