import InterceptingProxy.Status

set_option autoImplicit false

/-! # Bodies and responses

A body comes in pieces. The body of a request may break off, which is told by a status; a response
is told whole, with the trailers that follow its body. -/

namespace InterceptingProxy

/-- How the body of a request ends. -/
inductive RequestEnd where
  | plain
  | trailers (fields : Headers)
  | broken (status : Status)

/-- The body of a request. -/
structure RequestBody where
  pieces : List Bytes := []
  ending : RequestEnd := .plain

/-- Content in pieces of the given size; the last piece may be shorter. -/
def piecesOf (size : Nat) (content : Bytes) : List Bytes :=
  if content.isEmpty then []
  else if size = 0 then [content]
  else content.take size :: piecesOf size (content.drop size)
  termination_by content.length
  decreasing_by
    simp_wf
    have : content ≠ [] := by simp_all
    have := List.length_pos_iff.2 this
    omega

/-- A response. -/
structure Response where
  status : Nat := 200
  headers : Headers := {}
  body : List Bytes := []
  trailers : Option Headers := none
  /-- Whether the length of the body is unknown when the head is sent. -/
  streamed : Bool := false

namespace Response

/-- A response without a body. -/
def ofStatus (status : Nat) : Response := { status }

end Response

end InterceptingProxy
