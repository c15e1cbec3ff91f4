import InterceptingProxy.Certificate.Pem
import InterceptingProxy.Certificate.PrivateKey
import InterceptingProxy.Certificate.X509
import InterceptingProxy.FileTree
import InterceptingProxy.ProxyError

set_option autoImplicit false

/-! # Certificate and key

`KeyPair.load` reads a certificate chain and its private key from two files. When none are
configured, `detectKeyPair` looks for files `NAME.pem` and `NAME-key.pem` in a directory: the
first pair in the order of file names counts, whatever the order of the listing. `TlsMaterial`
checks that the pair and the trusted roots can be used. -/

namespace InterceptingProxy

/-- A certificate chain with its private key. -/
structure KeyPair where
  certificates : List Bytes
  key : PrivateKey
  deriving DecidableEq, Repr

namespace KeyPair

/-- The private key that a section holds, if it is one. -/
def keyOf (block : Pem.Block) : Option PrivateKey :=
  if block.label = ascii "RSA PRIVATE KEY" then some ⟨.pkcs1, block.content⟩
  else if block.label = ascii "EC PRIVATE KEY" then some ⟨.sec1, block.content⟩
  else if block.label = ascii "PRIVATE KEY" then some ⟨.pkcs8, block.content⟩
  else none

/-- The content of a file. A directory can be opened and then fails to be read. -/
def readFile (files : FileTree) (path : Text) : Except ProxyError Bytes :=
  match files.find path with
  | .ok (_, .file content) => .ok content
  | .ok (_, .directory) => .error (.certificate path IoError.isADirectory.message)
  | .error e => .error (.unreadable path e)

/-- The certificates of a file; there has to be one. -/
def loadCertificates (files : FileTree) (path : Text) : Except ProxyError (List Bytes) := do
  match Pem.blocks (← readFile files path) with
  | .error f => throw (.certificate path f.message)
  | .ok blocks =>
    let certificates := (blocks.filter (·.label = ascii "CERTIFICATE")).map (·.content)
    if certificates.isEmpty then throw (.certificate path "no certificates found".toList)
    else return certificates

/-- The first private key of a file. -/
def loadKey (files : FileTree) (path : Text) : Except ProxyError PrivateKey := do
  match Pem.find keyOf (← readFile files path) with
  | .error f => throw (.certificate path f.message)
  | .ok none => throw (.certificate path "no private key found".toList)
  | .ok (some key) => return key

/-- Reads a certificate chain and a private key. -/
def load (files : FileTree) (certificate key : Text) : Except ProxyError KeyPair := do
  let certificates ← loadCertificates files certificate
  return { certificates, key := ← loadKey files key }

end KeyPair

/-! ## Finding a pair in a directory -/

/-- The end of the name of a key file. -/
def keySuffix : Bytes := ascii "-key.pem"

/-- The end of the name of a certificate file. -/
def certificateSuffix : Bytes := ascii ".pem"

/-- The names of regular files, in order. -/
def fileNames (directory : List DirEntry) : List Bytes :=
  ((directory.filter (·.isFile)).map (·.name)).mergeSort fun a b => decide (a ≤ b)

/-- The certificate that belongs to a key file, if it is there: its name and that of the key. Names
    that are not UTF-8 do not count. -/
def pairOfKey (files : List Bytes) (key : Bytes) : Option (Text × Text) := do
  let name ← Utf8.decode? key
  let start ← stripSuffix keySuffix key
  let certificate := start ++ certificateSuffix
  if files.contains certificate then return (← Utf8.decode? certificate, name) else none

/-- The names of the first certificate and key that belong together. -/
def detectPair (directory : List DirEntry) : Option (Text × Text) :=
  let files := fileNames directory
  files.findSome? (pairOfKey files)

/-- The paths of the first certificate and key in a directory that belong together. -/
def detectKeyPair (files : FileTree) (directory : Text) :
    Except IoError (Option (Text × Text)) := do
  let entries ← files.list directory
  return (detectPair entries).map fun (certificate, key) =>
    (FileTree.join directory certificate, FileTree.join directory key)

/-! ## Using a pair -/

/-- Why TLS material cannot be used. -/
inductive TlsFault where
  | unusableKey
  | badCertificate
  /-- The key does not belong to the certificate. -/
  | keyMismatch
  deriving DecidableEq, Repr

/-- The wording of a fault. -/
def TlsFault.message : TlsFault → Text
  | .unusableKey =>
    "unexpected error: failed to parse private key as RSA, ECDSA, or EdDSA".toList
  | .badCertificate => "invalid peer certificate: BadEncoding".toList
  | .keyMismatch => "keys may not be consistent: KeyMismatch".toList

namespace TlsMaterial

/-- Protocols offered when TLS is terminated, in order of preference. -/
def serverProtocols : List Bytes := [ascii "h2", ascii "http/1.1"]

/-- Protocols offered when a relayed connection is encrypted again. -/
def clientProtocols : List Bytes := []

/-- Checks that a key pair can terminate TLS. -/
def checkServer (pair : KeyPair) : Except TlsFault Unit :=
  match pair.key.publicKey? with
  | none => .error .unusableKey
  | some key =>
    match pair.certificates.head?.map X509.parse with
    | some (.ok certificate) =>
      if key.fits certificate.publicKey then .ok () else .error .keyMismatch
    | _ => .error .badCertificate

/-- Checks that additional roots can be trusted. -/
def checkRoots (roots : List Bytes) : Except TlsFault Unit :=
  if roots.all fun root => (X509.parse root).toBool then .ok () else .error .badCertificate

end TlsMaterial

end InterceptingProxy
