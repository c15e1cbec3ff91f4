import InterceptingProxy.Certificate.KeyPair
import InterceptingProxy.Config.ServerConfig
import InterceptingProxy.Encoding.Hex
import InterceptingProxy.KeyLog

set_option autoImplicit false

/-! # Preparing a server

`Server.prepare` turns a configuration into a server that could be bound: it finds and checks the
TLS material and opens the key log. Nothing is left half done on a failure: the first one ends the
preparation. Along the way it notes what an operator wants to know (`Notice`). -/

namespace InterceptingProxy

/-- How much a notice matters. -/
inductive LogLevel where
  | trace | debug | info | warn | error
  deriving DecidableEq, Repr

namespace LogLevel

/-- Position in the order of importance. -/
def rank : LogLevel → Nat
  | .trace => 0
  | .debug => 1
  | .info => 2
  | .warn => 3
  | .error => 4

/-- The level that a text names, in any case. -/
def parse? (t : Text) : Option LogLevel :=
  let t := Text.lower t
  if t = "trace".toList then some .trace
  else if t = "debug".toList then some .debug
  else if t = "info".toList then some .info
  else if t = "warn".toList then some .warn
  else if t = "error".toList then some .error
  else none

end LogLevel

/-- A line of the log. -/
structure Notice where
  level : LogLevel
  text : Text
  deriving DecidableEq, Repr

/-- A notice for the operator. -/
def Notice.info (text : String) : Notice := ⟨.info, text.toList⟩

/-- What a server needs to terminate TLS. -/
structure TlsMaterials where
  /-- What its certificate covers. -/
  coverage : Coverage
  /-- The key log, if one is written. -/
  keyLog : Option KeyLog
  deriving DecidableEq, Repr

/-- A configured server that is not bound yet. -/
structure Server where
  listenAddress : Text
  proxyId : Text
  destination : Option Text
  tls : Option TlsMaterials
  deriving DecidableEq, Repr

namespace Server

/-- Number of random bytes that identify a proxy. -/
def idBytes : Nat := 8

/-- The identity of a proxy, from random bytes. -/
def idOf (random : Bytes) : Text := Hex.encode (random.take idBytes)

/-- Paths of certificate and key: the configured ones, else those found in the working
    directory. -/
def keyPairPaths {D I E : Type} (config : ServerConfig D I E) (files : FileTree) :
    Except ProxyError (Option (Text × Text) × List Notice) :=
  match config.certificate, config.key with
  | some certificate, some key => .ok (some (certificate, key), [])
  | _, _ =>
    match detectKeyPair files files.root with
    | .error e => .error (.io e)
    | .ok none => .ok (none, [])
    | .ok (some pair) =>
      .ok (some pair, [.info "Detected certificate in working directory"])

/-- Opens the key log that is configured. -/
def openKeyLog (files : FileTree) (path : Option Text) :
    Except ProxyError (Option KeyLog × FileTree × List Notice) :=
  match path with
  | none => .ok (none, files, [])
  | some path => do
    let (keyLog, files) ← KeyLog.openFile files path
    return (some keyLog, files, [.info "Writing TLS secrets"])

/-- Reads the TLS material, if there is any. -/
def loadTls {D I E : Type} (config : ServerConfig D I E) (files : FileTree) :
    Except ProxyError (Option TlsMaterials × FileTree × List Notice) := do
  let (paths, found) ← keyPairPaths config files
  match paths with
  | none =>
    let ignored : List Notice := if config.secretsFile.isSome then
        [⟨.warn, "TLS secrets file ignored, no certificate configured".toList⟩] else []
    return (none, files,
      ignored ++ [.info "No certificate configured, TLS will not be intercepted"])
  | some (certificate, key) =>
    let pair ← KeyPair.load files certificate key
    let coverage ← match X509.coverage (pair.certificates.head?.getD []) with
      | .ok coverage => pure coverage
      | .error fault => throw (.certificate certificate fault.message)
    let (keyLog, files, opened) ← openKeyLog files config.secretsFile
    (TlsMaterial.checkServer pair).mapError fun fault => ProxyError.tls fault.message
    (TlsMaterial.checkRoots config.outboundRoots).mapError fun fault => ProxyError.tls fault.message
    return (some { coverage, keyLog }, files,
      found ++ .info "Loaded interception certificate" :: opened)

/-- Prepares a server from settings. The result is the server, the files with the key log, and the
    notices. -/
def prepare {D I E : Type} (settings : List (Setting D I E)) (files : FileTree) (random : Bytes) :
    Except ProxyError (Server × FileTree × List Notice) := do
  let config ← ServerConfig.build settings
  let (tls, files, notices) ← loadTls config files
  let server : Server :=
    { listenAddress := config.listenAddress
      proxyId := idOf random
      destination := config.destination
      tls }
  return (server, files, notices ++ [.info "Proxy configured"])

/-- Binds a server. Only an address that is taken is refused. -/
def bind (taken : Text → Bool) (server : Server) : Except ProxyError (List Notice) :=
  if taken server.listenAddress then .error (.io .addressInUse)
  else .ok [.info "Listener bound"]

end Server

end InterceptingProxy
