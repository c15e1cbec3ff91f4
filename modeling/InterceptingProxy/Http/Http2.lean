import InterceptingProxy.Router

set_option autoImplicit false

/-! # HTTP/2 connections

Requests of an HTTP/2 connection are independent of each other. Fields that concern one connection
only cannot be sent over HTTP/2 and are left out; `te` may only be sent by clients and only say
`trailers`. -/

namespace InterceptingProxy.Http2

/-- Fields that are never sent. -/
def connectionNames : List Text :=
  ["keep-alive", "proxy-connection", "transfer-encoding", "upgrade"].map String.toList

/-- The names listed in the first `connection` value. -/
def namedFields (h : Headers) : List Text :=
  (((h.text? "connection".toList).map listItems).getD []).map Text.lower

/-- The fields of a message that can be sent. -/
def carried (ofRequest : Bool) (h : Headers) : Headers :=
  let h := h.removeAll connectionNames
  let te := "te".toList
  let h :=
    if ofRequest && (h.get? te).all (· == ascii "trailers") then h else h.remove te
  h.removeAll ("connection".toList :: namedFields h)

/-- A request as a client sends it: the length of its body is told if it is known and not zero. -/
def sent (length : Option Nat) (r : Request) : Request :=
  let headers := carried true r.headers
  let name := "content-length".toList
  { r with
    version := .http2
    headers := match length with
      | some (n + 1) =>
        if headers.contains name then headers
        else headers.insert name (Bytes.ofLatin (Text.ofNat (n + 1)))
      | _ => headers }

/-- What a client gets for a request. -/
def finish : Routed → Routed
  | .response r => .response { r with headers := carried false r.headers }
  | routed => routed

/-- Serves the requests of a connection. -/
def serve (router : Router) (conn : RoutedConnection) :
    List (Request × RequestBody) → StateM Surroundings (List Routed)
  | [] => return []
  | (r, body) :: rest => do
    let routed ← router.route conn r body
    return finish routed :: (← serve router conn rest)

end InterceptingProxy.Http2
