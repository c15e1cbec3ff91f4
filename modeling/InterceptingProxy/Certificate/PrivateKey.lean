import InterceptingProxy.Certificate.Der

set_option autoImplicit false

/-! # Private keys

Three forms of a private key are read. What matters of a key is the public key that belongs to it:
`PrivateKey.publicKey?` gives it, and nothing for a key that cannot be used; `PublicKey.fits`
compares it with the form that a certificate holds. RSA keys need `minModulusBits` bits. -/

namespace InterceptingProxy

/-- The form of a private key. -/
inductive KeyForm where
  | pkcs1
  | sec1
  | pkcs8
  deriving DecidableEq, Repr

/-- A private key. -/
structure PrivateKey where
  form : KeyForm
  content : Bytes
  deriving DecidableEq, Repr

/-- What a private key tells of its public key: the algorithm, and the key itself unless it would
    have to be computed. -/
structure PublicKey where
  algorithm : Bytes
  key : Option Bytes
  deriving DecidableEq, Repr

/-- Whether a public key is the one that a certificate holds, as far as it is known. -/
def PublicKey.fits (p : PublicKey) (info : Bytes) : Bool :=
  match p.key with
  | some key =>
    info == Der.write .sequence
      (Der.write .sequence p.algorithm ++ Der.write .bitString (0 :: key))
  | none => containsRun (Der.write .sequence p.algorithm) info

namespace PrivateKey

open Der (Tag)

/-- The identifier of RSA keys, 1.2.840.113549.1.1.1. -/
def rsaId : Bytes := [0x2A, 0x86, 0x48, 0x86, 0xF7, 0x0D, 0x01, 0x01, 0x01]

/-- The identifier of elliptic curve keys, 1.2.840.10045.2.1. -/
def ellipticId : Bytes := [0x2A, 0x86, 0x48, 0xCE, 0x3D, 0x02, 0x01]

/-- The identifier of the curve P-256, 1.2.840.10045.3.1.7. -/
def p256Id : Bytes := [0x2A, 0x86, 0x48, 0xCE, 0x3D, 0x03, 0x01, 0x07]

/-- The identifier of the curve P-384, 1.3.132.0.34. -/
def p384Id : Bytes := [0x2B, 0x81, 0x04, 0x00, 0x22]

/-- The identifier of Ed25519 keys, 1.3.101.112. -/
def edwardsId : Bytes := [0x2B, 0x65, 0x70]

/-- Fewest bits of the modulus of an RSA key. -/
def minModulusBits : Nat := 2048

/-- The contents of an element, if it is there and has the tag. -/
def part? (tag : Tag) (bytes : Bytes) : Option (Bytes × Bytes) := (Der.expect tag bytes).toOption

/-- The public key of an RSA key. -/
def rsaKey? (content : Bytes) : Option PublicKey := do
  let (key, rest) ← part? .sequence content
  let (version, key) ← part? .integer key
  let (modulus, key) ← part? .integer key
  let (exponent, key) ← part? .integer key
  let others ← (Der.readAll key).toOption
  if rest.isEmpty ∧ version = [0] ∧ others.length = 6 ∧ others.all (·.tag = .integer)
      ∧ Nat.pow 2 (minModulusBits - 1) ≤ Bytes.toNatBE modulus then
    some
      { algorithm := Der.write .objectId rsaId ++ Der.write .null []
        key := some
          (Der.write .sequence (Der.write .integer modulus ++ Der.write .integer exponent)) }
  else none

/-- The curve for keys of a given size. -/
def curveOfSize? (size : Nat) : Option Bytes :=
  if size = 32 then some p256Id else if size = 48 then some p384Id else none

/-- The public key of an elliptic curve key, which has to bring it along. -/
def ellipticKey? (content : Bytes) : Option PublicKey := do
  let (key, _) ← part? .sequence content
  let (version, key) ← part? .integer key
  let (secret, key) ← part? .octetString key
  let curve ← curveOfSize? secret.length
  let others ← (Der.readAll key).toOption
  let holder ← others.find? (·.tag = Tag.context 1 true)
  let (bits, _) ← part? .bitString holder.content
  match bits with
  | 0 :: point =>
    if version = [1] ∧ point.length = 2 * secret.length + 1 then
      some
        { algorithm := Der.write .objectId ellipticId ++ Der.write .objectId curve
          key := some point }
    else none
  | _ => none

/-- The public key of an Ed25519 key, which may bring it along. -/
def edwardsKey? (secret attributes : Bytes) : Option PublicKey := do
  let (seed, _) ← part? .octetString secret
  if seed.length ≠ 32 then none
  else
    let others ← (Der.readAll attributes).toOption
    let holder := others.find? (·.tag = Tag.context 1 false)
    some { algorithm := Der.write .objectId edwardsId, key := holder.map (·.content.drop 1) }

/-- The public key of a key in the general form, which names its algorithm. -/
def generalKey? (content : Bytes) : Option PublicKey := do
  let (key, _) ← part? .sequence content
  let (_, key) ← part? .integer key
  let (algorithm, key) ← part? .sequence key
  let (objectId, parameters) ← part? .objectId algorithm
  let (secret, attributes) ← part? .octetString key
  if objectId = rsaId then rsaKey? secret
  else if objectId = edwardsId then edwardsKey? secret attributes
  else if objectId = ellipticId then
    let (curve, _) ← part? .objectId parameters
    let found ← ellipticKey? secret
    if containsRun curve found.algorithm then some found else none
  else none

/-- The public key that belongs to a private key; nothing for a key that cannot be used. -/
def publicKey? (key : PrivateKey) : Option PublicKey :=
  match key.form with
  | .pkcs1 => rsaKey? key.content
  | .sec1 => ellipticKey? key.content
  | .pkcs8 => generalKey? key.content

end PrivateKey

end InterceptingProxy
