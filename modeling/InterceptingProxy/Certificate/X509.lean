import InterceptingProxy.Certificate.Coverage
import InterceptingProxy.Certificate.Der
import InterceptingProxy.Text.Utf8

set_option autoImplicit false

/-! # Certificates

`X509.parse` reads the structure of an X.509 certificate; bytes after it are ignored. Of its
contents the proxy uses the alternative names (`X509.coverage`), which decide what it may
terminate, and the public key (`publicKey`), which must fit the private one. -/

namespace InterceptingProxy.X509

/-- Why a certificate cannot be read. -/
inductive Fault where
  | der (fault : Der.Fault)
  | version
  | serial
  | date
  | extensions
  | duplicateExtensions
  deriving DecidableEq, Repr

/-- The wording of a fault. -/
def Fault.message : Fault → Text
  | .der (.incomplete n) =>
    "Parsing requires ".toList ++ Text.ofNat n ++ " bytes/chars".toList
  | .der (.unexpectedTag expected actual) =>
    "Parsing Error: Der(UnexpectedTag \x7b expected: Some(Tag(".toList ++ Text.ofNat expected
      ++ ")), actual: Tag(".toList ++ Text.ofNat actual ++ ") \x7d)".toList
  | .der .invalidLength => "Parsing Error: Der(InvalidLength)".toList
  | .der .invalidValue => "Parsing Error: Der(BerValueError)".toList
  | .version => "Parsing Error: InvalidVersion".toList
  | .serial => "Parsing Error: InvalidSerial".toList
  | .date => "Parsing Error: InvalidDate".toList
  | .extensions => "Parsing Error: InvalidExtensions".toList
  | .duplicateExtensions => "duplicate extensions".toList

/-- An extension: its identifier and its value. -/
structure Extension where
  objectId : Bytes
  value : Bytes
  deriving DecidableEq, Repr

/-- A certificate, as far as it matters here. -/
structure Certificate where
  /-- The element that holds the public key, tag included. -/
  publicKey : Bytes
  extensions : List Extension
  deriving DecidableEq, Repr

/-- A reading step: a value and the bytes after it. -/
abbrev Step (α : Type) := Bytes → Except Fault (α × Bytes)

/-- The contents of an element with the given tag. -/
def element (tag : Der.Tag) : Step Bytes := fun bytes => (Der.expect tag bytes).mapError .der

/-- All elements of some contents. -/
def elements (content : Bytes) : Except Fault (List Der.Element) :=
  (Der.readAll content).mapError .der

/-- The version, if given: a number in an element of its own. -/
def version : Step Unit := fun bytes =>
  match Der.read bytes with
  | .error _ => .error .version
  | .ok (e, rest) =>
    if e.tag.number = 0 then do
      let _ ← element .integer e.content
      return ((), rest)
    else .ok ((), bytes)

/-- The serial number. -/
def serial : Step Unit := fun bytes => do
  let _ ← (Der.read bytes).mapError fun _ => Fault.serial
  let (_, rest) ← element .integer bytes
  return ((), rest)

/-- An algorithm: its identifier and maybe parameters. -/
def algorithm : Step Bytes := fun bytes => do
  let (content, rest) ← element .sequence bytes
  let (objectId, parameters) ← element .objectId content
  if !parameters.isEmpty then
    let _ ← (Der.read parameters).mapError .der
  return (objectId, rest)

/-- One attribute of a name. -/
def nameAttribute (e : Der.Element) : Except Fault Unit := do
  if e.tag ≠ .sequence then throw (.der (.unexpectedTag 16 e.tag.number))
  let (_, value) ← element .objectId e.content
  let _ ← (Der.read value).mapError .der

/-- A name: sets of attributes. -/
def name : Step Unit := fun bytes => do
  let (content, rest) ← element .sequence bytes
  for part in ← elements content do
    if part.tag ≠ .set then throw (.der (.unexpectedTag 17 part.tag.number))
    for e in ← elements part.content do nameAttribute e
  return ((), rest)

/-- Whether text is a date: so many digits of a year, five numbers of two digits, and a `Z`. -/
def isDate (yearDigits : Nat) (date : Bytes) : Bool :=
  match (Bytes.toLatin date).reverse with
  | 'Z' :: digits =>
    let digits := digits.reverse
    let pair (i : Nat) := digitsValue ((digits.drop (yearDigits + 2 * i)).take 2)
    digits.all Char.isDigit && digits.length == yearDigits + 10
      && 1 ≤ pair 0 && pair 0 ≤ 12 && 1 ≤ pair 1 && pair 1 ≤ 31
      && pair 2 < 24 && pair 3 < 60 && pair 4 < 60
  | _ => false

/-- A date in either form. -/
def date : Step Unit := fun bytes => do
  let (e, rest) ← (Der.read bytes).mapError .der
  if e.tag = .utcTime ∧ isDate 2 e.content ∨ e.tag = .generalizedTime ∧ isDate 4 e.content then
    return ((), rest)
  else throw .date

/-- The first and the last date of validity. -/
def validity : Step Unit := fun bytes => do
  let (content, rest) ← element .sequence bytes
  let (_, content) ← date content
  let _ ← date content
  return ((), rest)

/-- The public key, tag included. -/
def publicKeyInfo : Step Bytes := fun bytes => do
  let (content, rest) ← element .sequence bytes
  let (_, key) ← algorithm content
  let _ ← element .bitString key
  return (bytes.take (bytes.length - rest.length), rest)

/-- Skips an optional element with the given number in the context. -/
def skipContext (number : Nat) : Step Unit := fun bytes =>
  match Der.read bytes with
  | .ok (e, rest) =>
    if e.tag.cls = 2 ∧ e.tag.number = number then .ok ((), rest) else .ok ((), bytes)
  | .error _ => .ok ((), bytes)

/-- One extension: an identifier, maybe whether it is critical, and the value. -/
def extension (e : Der.Element) : Except Fault Extension := do
  if e.tag ≠ .sequence then throw (.der (.unexpectedTag 16 e.tag.number))
  let (objectId, rest) ← element .objectId e.content
  let rest := match Der.expect .boolean rest with
    | .ok (_, rest) => rest
    | .error _ => rest
  let (value, _) ← element .octetString rest
  return { objectId, value }

/-- The extensions, if there are any. -/
def extensions (bytes : Bytes) : Except Fault (List Extension) := do
  if bytes.isEmpty then return []
  let (e, _) ← (Der.read bytes).mapError .der
  if e.tag.number ≠ 3 then throw .extensions
  let (content, _) ← element .sequence e.content
  (← elements content).mapM extension

/-- Reads a certificate. -/
def parse (bytes : Bytes) : Except Fault Certificate := do
  let (content, _) ← element .sequence bytes
  let (body, rest) ← element .sequence content
  let (_, body) ← version body
  let (_, body) ← serial body
  let (_, body) ← algorithm body
  let (_, body) ← name body
  let (_, body) ← validity body
  let (_, body) ← name body
  let (publicKey, body) ← publicKeyInfo body
  let (_, body) ← skipContext 1 body
  let (_, body) ← skipContext 2 body
  let extensions ← extensions body
  let (_, rest) ← algorithm rest
  let _ ← element .bitString rest
  return { publicKey, extensions }

/-! ## Alternative names -/

/-- The identifier of the extension with alternative names, 2.5.29.17. -/
def alternativeNamesId : Bytes := [0x55, 0x1D, 0x11]

/-- The coverage with one more alternative name. Names that are neither DNS names nor addresses of
    a known length count for nothing. -/
def addAlternativeName (c : Coverage) (e : Der.Element) : Except Fault Coverage :=
  match e.tag.number with
  | 2 =>
    match Utf8.decode? e.content with
    | some name => .ok { c with dnsNames := c.dnsNames ++ [Text.lower name] }
    | none => .error (.der .invalidValue)
  | 7 =>
    match IpAddr.ofBytes? e.content with
    | some ip => .ok { c with ipAddrs := c.ipAddrs ++ [ip] }
    | none => .ok c
  | _ => .ok c

/-- What the alternative names cover; a certificate without them covers nothing. -/
def Certificate.coverage (c : Certificate) : Except Fault Coverage :=
  match c.extensions.filter (·.objectId = alternativeNamesId) with
  | [] => .ok {}
  | [e] => do
    let (content, _) ← element .sequence e.value
    (← elements content).foldlM addAlternativeName {}
  | _ => .error .duplicateExtensions

/-- The coverage of an encoded certificate. -/
def coverage (bytes : Bytes) : Except Fault Coverage := do (← parse bytes).coverage

end InterceptingProxy.X509
