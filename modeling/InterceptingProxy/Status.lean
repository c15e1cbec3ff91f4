import InterceptingProxy.Header
import InterceptingProxy.Encoding.Base64
import InterceptingProxy.Encoding.Percent

set_option autoImplicit false

/-! # Call statuses

The outcome of a gRPC call: a code, a message, binary details and metadata. A status travels as
header fields (`Status.toHeaders`, `Status.ofHeaders?`): the number of the code, the message
percent-encoded, the details in base64, and the metadata as they are. -/

namespace InterceptingProxy

/-- The status codes, in the order of their numbers. -/
inductive Code where
  | ok | cancelled | unknown | invalidArgument | deadlineExceeded | notFound | alreadyExists
  | permissionDenied | resourceExhausted | failedPrecondition | aborted | outOfRange
  | unimplemented | internal | unavailable | dataLoss | unauthenticated
  deriving DecidableEq, Repr

namespace Code

/-- All codes in the order of their numbers. -/
def all : List Code :=
  [.ok, .cancelled, .unknown, .invalidArgument, .deadlineExceeded, .notFound, .alreadyExists,
    .permissionDenied, .resourceExhausted, .failedPrecondition, .aborted, .outOfRange,
    .unimplemented, .internal, .unavailable, .dataLoss, .unauthenticated]

/-- The number of a code. -/
def number (c : Code) : Nat := all.idxOf c

/-- The code written by decimal digits without leading zeros; anything else is `unknown`. -/
def ofBytes (digits : Bytes) : Code :=
  (all.find? fun c => Bytes.ofLatin (Text.ofNat c.number) == digits).getD .unknown

/-- The code for an HTTP status when a response brings no status of its own; `none` for a
    successful one. -/
def ofHttpStatus (status : Nat) : Option Code :=
  match status with
  | 400 => some .internal
  | 401 => some .unauthenticated
  | 403 => some .permissionDenied
  | 404 => some .unimplemented
  | 429 | 502 | 503 | 504 => some .unavailable
  | 200 => none
  | _ => some .unknown

end Code

/-- The outcome of a call. -/
structure Status where
  code : Code
  message : Text := []
  details : Bytes := []
  metadata : Headers := {}
  deriving DecidableEq, Repr

namespace Status

/-- A failure of the proxy itself. -/
def internal (message : Text) : Status := { code := .internal, message }

/-- The destination cannot be reached. -/
def unavailable (message : Text) : Status := { code := .unavailable, message }

/-- The call asks for something that is not offered. -/
def unimplemented (message : Text) : Status := { code := .unimplemented, message }

/-- Names of the fields that a status itself occupies. -/
def fieldNames : List Text :=
  ["grpc-status", "grpc-message", "grpc-status-details-bin"].map String.toList

/-- Characters of a message that are written percent-encoded: controls, blank, `"`, `#`, `<`, `>`,
    the backtick, `?`, `\x7b` and `\x7d`. -/
def isEscaped (b : UInt8) : Bool :=
  b < 0x20 || b == 0x7F
    || [0x20, 0x22, 0x23, 0x3C, 0x3E, 0x60, 0x3F, 0x7B, 0x7D].contains b

/-- Names that metadata of a status must not set. -/
def reservedNames : List Text :=
  ["te", "user-agent", "content-type", "grpc-message", "grpc-message-type",
    "grpc-status"].map String.toList

/-- The header fields of a status, after its metadata. -/
def toHeaders (s : Status) : Headers :=
  let base := (s.metadata.removeAll reservedNames).insert "grpc-status".toList
    (Bytes.ofLatin (Text.ofNat s.code.number))
  let base :=
    if s.message.isEmpty then base
    else base.insert "grpc-message".toList (Percent.encode isEscaped s.message.utf8)
  if s.details.isEmpty then base
  else base.insert "grpc-status-details-bin".toList (Base64.encode false s.details)

/-- The status that header fields carry, if they name a code. A message that is not UTF-8 makes
    the code `unknown`. -/
def ofHeaders? (h : Headers) : Option Status :=
  (h.get? "grpc-status".toList).map fun code =>
    let details := match h.get? "grpc-status-details-bin".toList with
      | some value => (Base64.decode false value).toOption.getD []
      | none => []
    let metadata := h.removeAll fieldNames
    match Utf8.decode (Percent.decode ((h.get? "grpc-message".toList).getD [])) with
    | .ok message => { code := Code.ofBytes code, message, details, metadata }
    | .error fault =>
      { code := .unknown,
        message := "Error deserializing status message header: ".toList ++ fault.message,
        details, metadata }

/-- The status of a response that ends without one, from its HTTP status. -/
def ofHttpStatus? (status : Nat) : Option Status :=
  (Code.ofHttpStatus status).map fun code =>
    { code, message :=
        "grpc-status header missing, mapped from HTTP status code ".toList ++ Text.ofNat status }

end Status

end InterceptingProxy
