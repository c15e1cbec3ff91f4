import InterceptingProxy.Grpc.Service

set_option autoImplicit false

/-! # gRPC-Web

gRPC-Web carries calls where trailers cannot be read: the trailers follow the messages as one more
frame of the body. In its text form bodies are in base64, piece by piece. `Web.around` translates
requests and responses, and leaves other requests over HTTP/2 as they are. -/

namespace InterceptingProxy.Grpc.Web

/-- The forms of a body. -/
inductive Form where
  | binary
  | text
  deriving DecidableEq, Repr

/-- Content types of the binary form. -/
def binaryTypes : List Text :=
  ["application/grpc-web", "application/grpc-web+proto"].map String.toList

/-- Content types of the text form. -/
def textTypes : List Text :=
  ["application/grpc-web-text", "application/grpc-web-text+proto"].map String.toList

namespace Form

/-- The form that a field asks for; binary unless it names a type of the text form. -/
def ofField (h : Headers) (name : Text) : Form :=
  if (h.text? name).any textTypes.contains then .text else .binary

/-- The content type of responses. -/
def contentType : Form → Bytes
  | .binary => ascii "application/grpc-web+proto"
  | .text => ascii "application/grpc-web-text+proto"

end Form

/-- Whether a request is in one of the two forms. -/
def isWeb (r : Request) : Bool := (binaryTypes ++ textTypes).contains r.contentType

/-! ## Requests -/

/-- A failure in the translation. -/
def fault (reason : Text) : Status := .internal ("tonic-web: ".toList ++ reason)

/-- The end of a body that was in base64, with `left` symbols still to be decoded. -/
def endOfText (left : Bytes) : RequestEnd → RequestEnd
  | .broken s => .broken (fault s.message)
  | .trailers _ => .broken (fault "malformed base64 request has unencoded trailers".toList)
  | .plain =>
    if left.isEmpty then .plain else .broken (fault "malformed base64 request".toList)

/-- Decodes pieces in base64. Symbols that make no whole group wait for the next piece. -/
def decodePieces (ending : RequestEnd) : Bytes → List Bytes → RequestBody
  | left, [] => { ending := endOfText left ending }
  | left, piece :: rest =>
    let symbols := left ++ piece
    let whole := symbols.length / 4 * 4
    match Base64.decode false (symbols.take whole) with
    | .error f => { ending := .broken (fault f.message) }
    | .ok bytes =>
      let body := decodePieces ending (symbols.drop whole) rest
      { body with pieces := bytes :: body.pieces }

/-- The body of the call that a body in the given form stands for. -/
def decodeBody (form : Form) (body : RequestBody) : RequestBody :=
  match form, body.ending with
  | .text, ending => decodePieces ending [] body.pieces
  | .binary, .broken s => { body with ending := .broken (fault s.message) }
  | .binary, _ => body

/-- The encodings that the translated request accepts for its response as a whole. -/
def acceptEncoding : Bytes := ascii "identity,deflate,gzip"

/-- The native request that a request stands for. -/
def nativeRequest (r : Request) : Request :=
  let h := (r.headers.remove contentLengthName).insert contentTypeName responseType
  let h := h.insert "te".toList (ascii "trailers")
  { r with headers := h.insert "accept-encoding".toList acceptEncoding }

/-! ## Responses -/

/-- The flag of the frame that holds trailers. -/
def trailersFlag : UInt8 := 128

/-- The lines of trailers. -/
def trailerLines (trailers : Headers) : Bytes :=
  trailers.fields.flatMap fun (name, value) =>
    Bytes.ofLatin name ++ ascii ":" ++ value ++ ascii "\r\n"

/-- The response in the given form. -/
def webResponse (form : Form) (r : Response) : Response :=
  let pieces := r.body ++ (r.trailers.map fun t => rawFrame trailersFlag (trailerLines t)).toList
  { r with
    headers := r.headers.insert contentTypeName form.contentType
    body := match form with
      | .binary => pieces
      | .text => pieces.map (Base64.encode true)
    trailers := none }

/-! ## Reading responses -/

/-- A part of a response body as a client sees it. -/
inductive Part where
  /-- A message, decompressed, with its flag. -/
  | message (flag : UInt8) (content : Bytes)
  | trailers (lines : List Text)
  /-- What is left behind the last whole frame. -/
  | rest (left : Bytes)

/-- The lines of a trailers frame. -/
def linesOf (content : Bytes) : List Text :=
  ((splitOn '\n' (Bytes.toLatin content)).map (dropEndWhile (· == '\r'))).filter (!·.isEmpty)

/-- What a frame holds. -/
def partOf (flag : UInt8) (content : Bytes) : Part :=
  if flag = trailersFlag then .trailers (linesOf content)
  else if flag = 1 then .message flag ((Gzip.decode content).toOption.getD [])
  else .message flag content

/-- The parts of a body in binary form. -/
def partsOf (body : Bytes) : List Part :=
  match body with
  | [] => []
  | flag :: a :: b :: c :: d :: rest =>
    let length := Bytes.toNatBE [a, b, c, d]
    if rest.length < length then [.rest body]
    else partOf flag (rest.take length) :: partsOf (rest.drop length)
  | _ => [.rest body]
  termination_by body.length
  decreasing_by
    rw [List.length_drop]
    simp only [List.length_cons]
    omega

/-- The parts of a response body in the form that its content type names. -/
def parts (r : Response) : List Part :=
  match Form.ofField r.headers contentTypeName with
  | .binary => partsOf r.body.flatten
  | .text => partsOf (r.body.flatMap fun piece => (Base64.decode true piece).toOption.getD [])

/-! ## Service -/

/-- Translates around a service of native calls. -/
def around (native : Request → RequestBody → StateM Surroundings Response) (r : Request)
    (body : RequestBody) : StateM Surroundings Response :=
  if isWeb r then
    if r.method = "POST".toList then do
      let form := Form.ofField r.headers contentTypeName
      let response ← native (nativeRequest r) (decodeBody form body)
      return webResponse (.ofField r.headers "accept".toList) response
    else return .ofStatus 405
  else if r.version = .http2 then native r body
  else return .ofStatus 400

end InterceptingProxy.Grpc.Web
