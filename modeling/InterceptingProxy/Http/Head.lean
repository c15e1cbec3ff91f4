import InterceptingProxy.Header

set_option autoImplicit false

/-! # HTTP/1 message heads

A head is a start line and header fields, ended by an empty line. Heads are read one byte at a
time by a machine (`Machine`): each byte either leads on, completes the head or shows that it is
malformed. So what is known about a head after some bytes never depends on how they were parted,
and bytes after the head are never looked at (`Machine.run` returns them).

A line ends in `\n` or `\r\n`. Empty lines before the start line are skipped. The number of fields
is limited, to `maxResponseFields` and `maxRequestFields`. -/

namespace InterceptingProxy.Http

/-! ## Machines over bytes -/

/-- Why a head is malformed. -/
inductive HeadFault where
  | newLine | version | status | headerName | headerValue | token | tooManyHeaders
  deriving DecidableEq, Repr

/-- The wording of a fault. -/
def HeadFault.message : HeadFault → Text
  | .newLine => "invalid new line".toList
  | .version => "invalid HTTP version".toList
  | .status => "invalid response status".toList
  | .headerName => "invalid header name".toList
  | .headerValue => "invalid header value".toList
  | .token => "invalid token".toList
  | .tooManyHeaders => "too many headers".toList

/-- What one more byte leads to. -/
inductive Progress (σ α : Type) where
  | more (state : σ)
  | done (result : α)
  | fault (fault : HeadFault)
  deriving DecidableEq, Repr

/-- What is known after some bytes. -/
inductive Parsed (α : Type) where
  /-- Nothing is wrong so far, but the end has not come. -/
  | incomplete
  | malformed (fault : HeadFault)
  /-- The head, and the bytes that follow it. -/
  | complete (head : α) (rest : Bytes)
  deriving DecidableEq, Repr

/-- Feeds bytes to a machine until it finishes. -/
def feed {σ α : Type} (step : σ → UInt8 → Progress σ α) (state : σ) : Bytes → Parsed α
  | [] => .incomplete
  | b :: rest =>
    match step state b with
    | .more state => feed step state rest
    | .done head => .complete head rest
    | .fault f => .malformed f

/-! ## Bytes of the parts -/

/-- Carriage return. -/
def cr : UInt8 := 0x0D

/-- Line feed. -/
def lf : UInt8 := 0x0A

/-- The blank. -/
def sp : UInt8 := 0x20

/-- The horizontal tab. -/
def tab : UInt8 := 0x09

/-- A byte of a token, such as a method or a field name. -/
def isTokenByte (b : UInt8) : Bool :=
  (0x30 ≤ b && b ≤ 0x39) || (0x41 ≤ b && b ≤ 0x5A) || (0x61 ≤ b && b ≤ 0x7A)
    || (ascii "!#$%&'*+-.^_|~").contains b || b == 0x60

/-- A byte of a reason phrase. -/
def isReasonByte (b : UInt8) : Bool := b == tab || (0x20 ≤ b && b ≠ 0x7F)

/-- A byte of a request target. -/
def isTargetByte (b : UInt8) : Bool := 0x21 ≤ b && b ≠ 0x7F

/-! ## Fields -/

/-- Most fields of a response head. -/
def maxResponseFields : Nat := 64

/-- Most fields of a request head. -/
def maxRequestFields : Nat := 100

/-- Where in the header section the next byte stands. -/
inductive FieldPlace where
  /-- At the start of a line. -/
  | line
  /-- After the carriage return of the empty line. -/
  | lastReturn
  /-- In a name; its bytes so far. -/
  | name (read : Bytes)
  /-- In a value, after its name. -/
  | value (name read : Bytes)
  /-- After the carriage return that ends a value. -/
  | valueReturn (name read : Bytes)
  deriving DecidableEq, Repr

/-- The fields read so far, and the place. -/
structure FieldScan where
  fields : List (Text × Bytes) := []
  place : FieldPlace := .line
  deriving DecidableEq, Repr

namespace FieldScan

/-- A blank or a tab. -/
def isPadding (b : UInt8) : Bool := b == sp || b == tab

/-- The value without the blanks around it. -/
def trimValue (value : Bytes) : Bytes := dropEndWhile isPadding (value.dropWhile isPadding)

/-- One more field, unless there are `most` already. -/
def close (most : Nat) (s : FieldScan) (name value : Bytes) : Progress FieldScan Headers :=
  if s.fields.length ≥ most then .fault .tooManyHeaders
  else .more { fields := s.fields ++ [(Bytes.toLatin name, trimValue value)], place := .line }

/-- The scan after one more byte. -/
def step (most : Nat) (s : FieldScan) (b : UInt8) : Progress FieldScan Headers :=
  match s.place with
  | .line =>
    if b = cr then .more { s with place := .lastReturn }
    else if b = lf then .done (Headers.ofList s.fields)
    else if isTokenByte b then .more { s with place := .name [b] }
    else .fault .headerName
  | .lastReturn => if b = lf then .done (Headers.ofList s.fields) else .fault .newLine
  | .name read =>
    if b = ':'.toNat.toUInt8 then .more { s with place := .value read [] }
    else if isTokenByte b then .more { s with place := .name (read ++ [b]) }
    else .fault .headerName
  | .value name read =>
    if b = cr then .more { s with place := .valueReturn name read }
    else if b = lf then close most s name read
    else if isValueByte b then .more { s with place := .value name (read ++ [b]) }
    else .fault .headerValue
  | .valueReturn name read => if b = lf then close most s name read else .fault .headerValue

end FieldScan

/-! ## Response heads -/

/-- A response head, as far as an answer to `CONNECT` is concerned. -/
structure ResponseHead where
  code : Nat
  reason : Text
  headers : Headers
  deriving DecidableEq, Repr

/-- Where in a response head the next byte stands. -/
inductive ResponseScan where
  /-- Before the start line; after a carriage return if `returned`. -/
  | before (returned : Bool)
  /-- In the version; what is still expected of it. -/
  | version (expected : Bytes)
  | minorVersion
  | versionEnd
  /-- In the status code; its value and the number of digits to come. -/
  | code (value toCome : Nat)
  | codeEnd (code : Nat)
  /-- In the reason; empty for good once a byte was not ASCII. -/
  | reason (code : Nat) (read : Bytes)
  /-- After the carriage return of the start line. -/
  | lineReturn (code : Nat) (reason : Text)
  | fields (code : Nat) (reason : Text) (scan : FieldScan)
  deriving DecidableEq, Repr

namespace ResponseScan

/-- The reason phrase; a phrase that is not ASCII is not kept. -/
def reasonText (read : Bytes) : Text := if read.all (· < 0x80) then Bytes.toLatin read else []

/-- The version that every head begins with, without its last digit. -/
def versionStart : Bytes := ascii "HTTP/1."

/-- The scan within a version. -/
def versionStep (expected : Bytes) (b : UInt8) : Progress ResponseScan ResponseHead :=
  match expected with
  | [last] => if b = last then .more .minorVersion else .fault .version
  | next :: expected => if b = next then .more (.version expected) else .fault .version
  | [] => .fault .version

/-- The scan after one more byte. -/
def step (s : ResponseScan) (b : UInt8) : Progress ResponseScan ResponseHead :=
  match s with
  | .before true => if b = lf then .more (.before false) else .fault .newLine
  | .before false =>
    if b = cr then .more (.before true)
    else if b = lf then .more (.before false)
    else versionStep versionStart b
  | .version expected => versionStep expected b
  | .minorVersion => if b = 0x30 ∨ b = 0x31 then .more .versionEnd else .fault .version
  | .versionEnd => if b = sp then .more (.code 0 3) else .fault .version
  | .code value toCome =>
    if 0x30 ≤ b ∧ b ≤ 0x39 then
      let value := 10 * value + (b.toNat - 0x30)
      if toCome ≤ 1 then .more (.codeEnd value) else .more (.code value (toCome - 1))
    else .fault .status
  | .codeEnd number =>
    if b = sp then .more (.reason number [])
    else if b = cr then .more (.lineReturn number [])
    else if b = lf then .more (.fields number [] {})
    else .fault .status
  | .reason number read =>
    if b = cr then .more (.lineReturn number (reasonText read))
    else if b = lf then .more (.fields number (reasonText read) {})
    else if isReasonByte b then .more (.reason number (read ++ [b]))
    else .fault .status
  | .lineReturn number phrase => if b = lf then .more (.fields number phrase {}) else .fault .status
  | .fields number phrase scan =>
    match FieldScan.step maxResponseFields scan b with
    | .more scan => .more (.fields number phrase scan)
    | .done headers => .done { code := number, reason := phrase, headers }
    | .fault f => .fault f

end ResponseScan

/-- Reads a response head. -/
def ResponseHead.parse (bytes : Bytes) : Parsed ResponseHead :=
  feed ResponseScan.step (.before false) bytes

/-! ## Request heads -/

/-- The minor version of HTTP/1. -/
inductive Minor where
  | zero
  | one
  deriving DecidableEq, Repr

/-- A request head. -/
structure RequestHead where
  method : Bytes
  target : Bytes
  version : Minor
  headers : Headers
  deriving DecidableEq, Repr

/-- Where in a request head the next byte stands. -/
inductive RequestScan where
  /-- Before the start line; after a carriage return if `returned`. -/
  | before (returned : Bool)
  | method (read : Bytes)
  | target (method read : Bytes)
  /-- In the version; what is still expected of it. -/
  | version (method target expected : Bytes)
  | minorVersion (method target : Bytes)
  /-- After the version; after a carriage return if `returned`. -/
  | lineEnd (method target : Bytes) (version : Minor) (returned : Bool)
  | fields (method target : Bytes) (version : Minor) (scan : FieldScan)
  deriving DecidableEq, Repr

namespace RequestScan

/-- The scan after one more byte. -/
def step (s : RequestScan) (b : UInt8) : Progress RequestScan RequestHead :=
  match s with
  | .before true => if b = lf then .more (.before false) else .fault .newLine
  | .before false =>
    if b = cr then .more (.before true)
    else if b = lf then .more (.before false)
    else if isTokenByte b then .more (.method [b])
    else .fault .token
  | .method read =>
    if b = sp then .more (.target read [])
    else if isTokenByte b then .more (.method (read ++ [b]))
    else .fault .token
  | .target m read =>
    if b = sp then
      if read.isEmpty then .fault .token
      else .more (.version m read ResponseScan.versionStart)
    else if isTargetByte b then .more (.target m (read ++ [b]))
    else .fault .token
  | .version m t expected =>
    match expected with
    | [last] => if b = last then .more (.minorVersion m t) else .fault .version
    | next :: expected =>
      if b = next then .more (.version m t expected) else .fault .version
    | [] => .fault .version
  | .minorVersion m t =>
    if b = 0x30 then .more (.lineEnd m t .zero false)
    else if b = 0x31 then .more (.lineEnd m t .one false)
    else .fault .version
  | .lineEnd m t minor returned =>
    if b = lf then .more (.fields m t minor {})
    else if b = cr ∧ returned = false then .more (.lineEnd m t minor true)
    else .fault .newLine
  | .fields m t minor scan =>
    match FieldScan.step maxRequestFields scan b with
    | .more scan => .more (.fields m t minor scan)
    | .done headers => .done { method := m, target := t, version := minor, headers }
    | .fault f => .fault f

end RequestScan

/-- Reads a request head. -/
def RequestHead.parse (bytes : Bytes) : Parsed RequestHead :=
  feed RequestScan.step (.before false) bytes

end InterceptingProxy.Http
