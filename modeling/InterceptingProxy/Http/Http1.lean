import InterceptingProxy.Encoding.Hex
import InterceptingProxy.Http.Head
import InterceptingProxy.Router

set_option autoImplicit false

/-! # HTTP/1 connections

Requests are read off the connection one after the other (`readRequests`). The length of a body is
told by a field, or the body comes in chunks. Responses are sent in the order of the requests; the
connection ends after the response to a request that asks for that, and after a `CONNECT` that was
granted. -/

namespace InterceptingProxy.Http1

/-- The field that tells the length of a body. -/
def lengthName : Text := "content-length".toList

/-- The field that tells how a body is encoded. -/
def encodingName : Text := "transfer-encoding".toList

/-- The field that concerns the connection as such. -/
def connectionName : Text := "connection".toList

/-- Whether the `connection` field holds a word. -/
def connectionHas (word : String) (h : Headers) : Bool :=
  ((h.texts connectionName).flatMap listItems).any (Text.lower · == word.toList)

/-- Whether the connection goes on after the response to a request. -/
def keepsAlive (r : Request) : Bool :=
  !connectionHas "close" r.headers
    && (r.version != .http10 || connectionHas "keep-alive" r.headers)

/-! ## Writing -/

/-- A request as a client sends it: the length of its body is told if it is known and not zero, and
    a body of unknown length is sent in chunks. -/
def sent (length : Option Nat) (r : Request) : Request :=
  let h := r.headers
  match length with
  | some 0 => r
  | some n =>
    if h.contains lengthName then r
    else { r with headers := h.insert lengthName (Bytes.ofLatin (Text.ofNat n)) }
  | none =>
    if h.contains encodingName ∨ h.contains lengthName then r
    else { r with headers := h.insert encodingName (ascii "chunked") }

/-- Tells where the body of a response ends. Responses to `HEAD` tell nothing. -/
def frameBody (r : Request) (response : Response) : Headers :=
  if response.streamed then
    if r.version = .http10 then response.headers
    else response.headers.insert encodingName (ascii "chunked")
  else if r.method = "HEAD".toList ∨ response.status = 204 ∨ response.status = 304 then
    response.headers
  else
    response.headers.insert lengthName (Bytes.ofLatin (Text.ofNat response.body.flatten.length))

/-- Tells whether the connection goes on, where that is not what the version says anyway. -/
def announce (r : Request) (h : Headers) : Headers :=
  match keepsAlive r, r.version with
  | false, .http11 => h.insert connectionName (ascii "close")
  | true, .http10 => h.insert connectionName (ascii "keep-alive")
  | _, _ => h

/-- What a client gets for a request. -/
def finish (r : Request) : Routed → Routed
  | .response response => .response { response with headers := announce r (frameBody r response) }
  | tunnel => tunnel

/-! ## Chunks -/

/-- What follows the next line, and the line without its end. -/
def takeLine : Bytes → Option (Bytes × Bytes)
  | [] => none
  | b :: rest =>
    if b = Http.lf then some ([], rest)
    else (takeLine rest).map fun (line, after) =>
      (if b = Http.cr ∧ line.isEmpty then [] else b :: line, after)

/-- A body that was cut short. -/
def cutShort : RequestEnd := .broken (.internal "error reading a body from connection".toList)

/-- The value of the hexadecimal digits at the start of a line. -/
def chunkSize? (line : Bytes) : Option Nat :=
  match (Bytes.toLatin line).map Hex.digitValue? |>.takeWhile Option.isSome with
  | [] => none
  | digits => some ((digits.filterMap id).foldl (fun n d => 16 * n + d) 0)

/-- Reads the fields behind the last chunk. `fuel` bounds the number of lines. -/
def readTrailers : Nat → Bytes → Option (Headers × Bytes)
  | 0, _ => none
  | fuel + 1, bytes => do
    let (line, rest) ← takeLine bytes
    if line.isEmpty then return ({}, rest)
    let (name, value) ← splitFirst 0x3A line
    let (more, rest) ← readTrailers fuel rest
    return (⟨((Bytes.toLatin name).lower, Http.FieldScan.trimValue value) :: more.fields⟩, rest)

/-- Reads a body in chunks. `fuel` bounds the number of chunks. -/
def readChunks : Nat → Bytes → RequestBody × Bytes
  | 0, bytes => ({ ending := cutShort }, bytes)
  | fuel + 1, bytes =>
    let size := (takeLine bytes).bind fun (line, rest) => (chunkSize? line).map (·, rest)
    match size with
    | none => ({ ending := cutShort }, [])
    | some (0, rest) =>
      match readTrailers (rest.length + 1) rest with
      | none => ({ ending := cutShort }, [])
      | some (⟨[]⟩, rest) => ({}, rest)
      | some (fields, rest) => ({ ending := .trailers fields }, rest)
    | some (n, rest) =>
      if rest.length < n then ({ pieces := [rest], ending := cutShort }, [])
      else match takeLine (rest.drop n) with
        | some ([], after) =>
          let (body, after) := readChunks fuel after
          ({ body with pieces := rest.take n :: body.pieces }, after)
        | _ => ({ pieces := [rest.take n], ending := cutShort }, [])

/-! ## Reading -/

/-- What stands on a connection. -/
inductive Incoming where
  | request (r : Request) (body : RequestBody)
  /-- Something that is refused with the given status. -/
  | malformed (status : Nat)

/-- How the body of a request is delimited. -/
inductive Framing where
  | chunks
  | length (n : Nat)
  deriving DecidableEq, Repr

/-- The length that a value tells. -/
def lengthValue? (value : Bytes) : Option Nat :=
  let digits := Bytes.toLatin value
  if digits.isEmpty || !digits.all Char.isDigit then none else some (digitsValue digits)

/-- The last item of a list of encodings. -/
def lastEncoding (value : Text) : Text := Text.lower ((listItems value).getLastD [])

/-- How the body of a request is delimited; `none` if that is not told properly. -/
def framing? (head : Http.RequestHead) : Option Framing :=
  match head.headers.values encodingName, head.version with
  | _ :: _, .zero => none
  | e :: es, .one =>
    if ((e :: es).getLast?.bind visibleText?).map lastEncoding = some "chunked".toList then
      some .chunks
    else none
  | [], _ =>
    match (head.headers.values lengthName).mapM lengthValue? with
    | none => none
    | some [] => some (.length 0)
    | some (n :: more) => if more.all (· == n) then some (.length n) else none

/-- The request that a head stands for. -/
def requestOf? (head : Http.RequestHead) : Option Request := do
  let target ← (Utf8.decode head.target).toOption
  let uri ← Uri.parse? target
  return { method := Bytes.toLatin head.method, uri, headers := head.headers
           version := if head.version = .zero then .http10 else .http11 }

/-- The longest target that is read. -/
def maxTargetSize : Nat := 65534

/-- Reads one request, and what follows it; nothing if its head is not complete. -/
def readRequest (bytes : Bytes) : Option (Incoming × Bytes) :=
  match Http.RequestHead.parse bytes with
  | .incomplete => none
  | .malformed .tooManyHeaders => some (.malformed 431, [])
  | .malformed _ => some (.malformed 400, [])
  | .complete head rest =>
    if head.target.length > maxTargetSize then some (.malformed 414, [])
    else match requestOf? head, framing? head with
    | some r, some (.length n) =>
      let body : RequestBody :=
        { pieces := if n = 0 then [] else [rest.take n]
          ending := if rest.length < n then cutShort else .plain }
      some (.request r body, rest.drop n)
    | some r, some .chunks =>
      let (body, rest) := readChunks (rest.length + 1) rest
      some (.request r body, rest)
    | _, _ => some (.malformed 400, [])

/-- Reads requests; every one takes a byte, so the bytes bound their number. -/
def readRequestsWithin : Nat → Bytes → List Incoming
  | 0, _ => []
  | fuel + 1, bytes =>
    match readRequest bytes with
    | none => []
    | some (incoming, rest) => incoming :: readRequestsWithin fuel rest

/-- What a connection starts with that speaks HTTP/2. -/
def http2Preface : Bytes := ascii "PRI * HTTP/2.0\r\n\r\nSM\r\n\r\n"

/-- All requests that stand on a connection; none if it speaks HTTP/2. -/
def readRequests (bytes : Bytes) : List Incoming :=
  if http2Preface.isPrefixOf bytes then [] else readRequestsWithin (bytes.length + 1) bytes

/-! ## Serving -/

/-- Whether the body of a request has come to its end. -/
def isWhole (body : RequestBody) : Bool :=
  match body.ending with
  | .broken _ => false
  | _ => true

/-- Serves what stands on a connection; each response is given with the version it is sent in. -/
def serve (router : Router) (conn : RoutedConnection) :
    List Incoming → StateM Surroundings (List (HttpVersion × Routed))
  | [] => return []
  | .malformed status :: _ => return [(.http11, .response (.ofStatus status))]
  | .request r body :: rest => do
    let routed ← router.route conn r body
    let goesOn := match routed with
      | .response _ => keepsAlive r && isWhole body
      | .tunnel _ _ => false
    let answered := (r.version, finish r routed)
    if goesOn then return answered :: (← serve router conn rest) else return [answered]

end InterceptingProxy.Http1
