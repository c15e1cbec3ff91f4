import InterceptingProxy.Text

set_option autoImplicit false

/-! # Input and output failures

An `IoError` is a kind and a text. The texts of failures that the operating system reports are
fixed by their number (`IoError.ofNumber`). -/

namespace InterceptingProxy

/-- What went wrong, as far as a caller may want to react to it. -/
inductive IoErrorKind where
  | notFound | permissionDenied | connectionRefused | connectionReset | connectionAborted
  | notConnected | addrInUse | addrNotAvailable | brokenPipe | invalidInput | invalidData
  | timedOut | writeZero | interrupted | unsupported | unexpectedEof | networkUnreachable
  | isADirectory | notADirectory | other
  deriving DecidableEq, Repr

/-- A failed operation on a stream, a file or a socket. -/
structure IoError where
  kind : IoErrorKind
  message : Text
  deriving DecidableEq, Repr

namespace IoError

/-- A failure that the operating system reports under the given number. -/
def ofNumber (kind : IoErrorKind) (description : String) (number : Nat) : IoError :=
  ⟨kind, description.toList ++ " (os error ".toList ++ Text.ofNat number ++ ")".toList⟩

/-- No such file or directory. -/
def noSuchFile : IoError := ofNumber .notFound "No such file or directory" 2

/-- A path leads through something that is no directory. -/
def notADirectory : IoError := ofNumber .notADirectory "Not a directory" 20

/-- A directory where a file is wanted. -/
def isADirectory : IoError := ofNumber .isADirectory "Is a directory" 21

/-- The address is taken by another socket. -/
def addressInUse : IoError := ofNumber .addrInUse "Address already in use" 98

/-- There is no route to the address. -/
def networkUnreachable : IoError := ofNumber .networkUnreachable "Network is unreachable" 101

/-- A write accepted nothing. -/
def writeZero : IoError := ⟨.writeZero, "write zero".toList⟩

end IoError

end InterceptingProxy
