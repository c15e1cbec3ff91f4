import InterceptingProxy.Encoding.Hex
import InterceptingProxy.FileTree
import InterceptingProxy.ProxyError

set_option autoImplicit false

/-! # The TLS key log

Session secrets are appended to a file, a line each: a label, the client's random bytes and the
secret, in hexadecimal, separated by blanks. Opening the file never shortens it. -/

namespace InterceptingProxy

/-- A key log that is open: the file it stands in, by the names on the way. -/
structure KeyLog where
  names : List Text
  deriving DecidableEq, Repr

/-- One secret of a TLS session. -/
structure Secret where
  label : Text
  clientRandom : Bytes
  secret : Bytes
  deriving DecidableEq, Repr

/-- The line of a secret. -/
def Secret.line (s : Secret) : Bytes :=
  (s.label ++ ' ' :: Hex.encode s.clientRandom ++ ' ' :: Hex.encode s.secret ++ ['\n']).utf8

namespace KeyLog

/-- Opens a key log, creating its file if necessary. -/
def openFile (files : FileTree) (path : Text) : Except ProxyError (KeyLog × FileTree) :=
  match files.openAppend path with
  | .ok (files, names) => .ok (⟨names⟩, files)
  | .error e => .error (.unreadable path e)

/-- Writes one secret. -/
def log (k : KeyLog) (files : FileTree) (s : Secret) : FileTree := files.append k.names s.line

/-- The whole content of the file. -/
def content (k : KeyLog) (files : FileTree) : Bytes := files.content k.names

end KeyLog

end InterceptingProxy
