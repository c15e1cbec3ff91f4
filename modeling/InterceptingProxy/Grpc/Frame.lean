import InterceptingProxy.Encoding.Gzip
import InterceptingProxy.Http.Reason
import InterceptingProxy.Status

set_option autoImplicit false

/-! # Framed messages

In the body of a call, every message is preceded by a flag that tells whether it is compressed and
by its length in four bytes (`frame`). `readFrames` takes a body apart again. Whether compressed
messages may occur is decided by the `grpc-encoding` field (`Encoding.ofHeaders`); gzip is the one
compression that is understood. -/

namespace InterceptingProxy.Grpc

/-! ## Writing -/

/-- A message of a body, as it is. -/
def rawFrame (flag : UInt8) (content : Bytes) : Bytes :=
  flag :: Bytes.ofNatBE 4 content.length ++ content

/-- A message of a body, compressed or not. -/
def frame (compressed : Bool) (message : Bytes) : Bytes :=
  if compressed then rawFrame 1 (Gzip.encode message) else rawFrame 0 message

/-! ## Encodings -/

/-- How the messages of a body may be compressed. -/
inductive Encoding where
  | identity
  | gzip
  deriving DecidableEq, Repr

namespace Encoding

/-- The field that names the encoding of a body. -/
def fieldName : Text := "grpc-encoding".toList

/-- The field that lists the encodings understood by a peer. -/
def acceptName : Text := "grpc-accept-encoding".toList

/-- The encodings that are understood here. -/
def accepted : Bytes := ascii "gzip,identity"

/-- A name as it is shown: as text, or as a list of bytes if it is none. -/
def shown (name : Bytes) : Text :=
  match Utf8.decode name with
  | .ok t => t
  | .error _ =>
    '[' :: (", ".toList.intercalate (name.map fun b => Text.ofNat b.toNat)) ++ [']']

/-- The failure of a call whose messages are encoded in an unknown way. -/
def unsupported (name : Bytes) : Status :=
  { Status.unimplemented ("Content is compressed with `".toList ++ shown name
      ++ "` which isn't supported".toList) with
    metadata := Headers.ofList [(acceptName, accepted)] }

/-- The encoding that header fields announce. -/
def ofHeaders (h : Headers) : Except Status Encoding :=
  match h.get? fieldName with
  | none => .ok .identity
  | some name =>
    if name = ascii "gzip" then .ok .gzip
    else if name = ascii "identity" then .ok .identity
    else .error (unsupported name)

/-- Whether a peer understands gzip. -/
def acceptsGzip (h : Headers) : Bool :=
  ((h.text? acceptName).map fun list => (listItems list).contains "gzip".toList).getD false

end Encoding

/-! ## Reading -/

/-- What is wrong with a body. -/
inductive FrameFault where
  /-- A compressed message where no encoding was announced. -/
  | unannounced
  /-- A flag that is neither 0 nor 1. -/
  | flag (value : Nat)
  /-- A message beyond the limit. -/
  | tooLarge (length : Nat)
  | compression (fault : Gzip.Fault)
  /-- The body ends inside a message. -/
  | truncated
  deriving DecidableEq, Repr

/-- Which body is read: that of a request, or that of a response with some HTTP status. -/
inductive Body where
  | request
  | response (status : Nat)
  deriving DecidableEq, Repr

/-- Most bytes of a message. -/
def maxMessage : Nat := 4194304

/-- The failure of a call whose body is faulty. -/
def FrameFault.toStatus (body : Body) : FrameFault → Status
  | .unannounced =>
    .internal ("protocol error: received message with compressed-flag but no grpc-encoding "
      ++ "was specified").toList
  | .flag value =>
    .internal ("protocol error: received message with invalid compression flag: ".toList
      ++ Text.ofNat value ++ " (valid flags are 0 and 1)".toList
      ++ match body with
        | .request => ", while sending request".toList
        | .response status =>
          " while receiving response with status: ".toList ++ Http.statusLine status)
  | .tooLarge length =>
    { code := .outOfRange
      message := "Error, decoded message length too large: found ".toList ++ Text.ofNat length
        ++ " bytes, the limit is: ".toList ++ Text.ofNat maxMessage ++ " bytes".toList }
  | .compression fault =>
    .internal ("Error decompressing: ".toList ++ fault.message
      ++ match body with
        | .request => ", while sending request".toList
        | .response status =>
          ", while receiving response with status: ".toList ++ Http.statusLine status)
  | .truncated => .internal "Unexpected EOF decoding stream.".toList

/-- How the reading of a body ends. -/
inductive FrameEnd where
  /-- Behind a whole message, or before any. -/
  | clean
  /-- Inside a message. -/
  | inside
  | fault (f : FrameFault)
  deriving DecidableEq, Repr

/-- The content of a message. -/
def content (e : Encoding) (flag : UInt8) (bytes : Bytes) : Except FrameFault Bytes :=
  if flag = 0 then .ok bytes
  else match e with
    | .identity => .error .unannounced
    | .gzip => match Gzip.decode bytes with
      | .ok message => .ok message
      | .error f => .error (.compression f)

/-- What the five bytes in front of a message tell: the length, if they are valid. -/
def frameLength (e : Encoding) (flag : UInt8) (length : Nat) : Except FrameFault Nat :=
  if flag = 1 ∧ e = .identity then .error .unannounced
  else if flag ≠ 0 ∧ flag ≠ 1 then .error (.flag flag.toNat)
  else if length > maxMessage then .error (.tooLarge length)
  else .ok length

/-- The messages of a body up to its end or the first fault. -/
def readFrames (e : Encoding) (body : Bytes) : List Bytes × FrameEnd :=
  match body with
  | flag :: a :: b :: c :: d :: rest =>
    match frameLength e flag (Bytes.toNatBE [a, b, c, d]) with
    | .error f => ([], .fault f)
    | .ok length =>
      if rest.length < length then ([], .inside)
      else match content e flag (rest.take length) with
        | .error f => ([], .fault f)
        | .ok message =>
          let (messages, ending) := readFrames e (rest.drop length)
          (message :: messages, ending)
  | [] => ([], .clean)
  | _ => ([], .inside)
  termination_by body.length
  decreasing_by
    rw [List.length_drop]
    simp only [List.length_cons]
    omega

end InterceptingProxy.Grpc
