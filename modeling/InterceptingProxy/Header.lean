import InterceptingProxy.Text.Utf8

set_option autoImplicit false

/-! # Header fields

`Headers` is an ordered list of fields with lower-case names. What an operation does is seen
through `values`: the values of one name in their order. The order of fields of different names
carries no meaning. Values are bytes; a value is text only if all its bytes are visible ASCII
(`visibleText?`). -/

namespace InterceptingProxy

/-- Header fields of a message, or metadata of a call. -/
structure Headers where
  fields : List (Text × Bytes) := []
  deriving DecidableEq, Repr

/-- A value as text, if it is all visible ASCII, spaces and tabs. -/
def visibleText? (value : Bytes) : Option Text :=
  if value.all fun b => (0x20 ≤ b && b < 0x7F) || b == 0x09 then some (Bytes.toLatin value)
  else none

/-- A byte that may stand in a header value: no control character other than tab. -/
def isValueByte (b : UInt8) : Bool := (0x20 ≤ b && b ≠ 0x7F) || b == 0x09

/-- The pieces between commas of a value, without the spaces around them. -/
def listItems (value : Text) : List Text := (splitOn ',' value).map Text.trim

namespace Headers

/-- Fields given in order, names in any case. -/
def ofList (fields : List (Text × Bytes)) : Headers :=
  ⟨fields.map fun (name, value) => (name.lower, value)⟩

/-- The values of a name, in order. -/
def values (h : Headers) (name : Text) : List Bytes :=
  h.fields.filterMap fun (n, value) => if n = name then some value else none

/-- The first value of a name. -/
def get? (h : Headers) (name : Text) : Option Bytes := (h.values name).head?

/-- The first value of a name, as text. -/
def text? (h : Headers) (name : Text) : Option Text := (h.get? name).bind visibleText?

/-- The values of a name that are text. -/
def texts (h : Headers) (name : Text) : List Text := (h.values name).filterMap visibleText?

/-- Whether a name has a value. -/
def contains (h : Headers) (name : Text) : Bool := h.fields.any fun (n, _) => n = name

/-- One more value for a name, after those it has. -/
def append (h : Headers) (name : Text) (value : Bytes) : Headers :=
  ⟨h.fields ++ [(name, value)]⟩

/-- All fields of another header after those of this one. -/
def appendAll (h other : Headers) : Headers := ⟨h.fields ++ other.fields⟩

/-- Without the values of a name. -/
def remove (h : Headers) (name : Text) : Headers :=
  ⟨h.fields.filter fun (n, _) => n ≠ name⟩

/-- Without the values of several names. -/
def removeAll (h : Headers) (names : List Text) : Headers := names.foldl remove h

/-- The only value of a name. -/
def insert (h : Headers) (name : Text) (value : Bytes) : Headers :=
  (h.remove name).append name value

/-- For each name of `other`, its values in place of those of this header. -/
def extend (h other : Headers) : Headers :=
  ⟨h.fields.filter (fun (n, _) => !other.contains n) ++ other.fields⟩

/-- Without the values of a name that satisfy `p`. -/
def removeValues (h : Headers) (name : Text) (p : Bytes → Bool) : Headers :=
  ⟨h.fields.filter fun (n, value) => !(n = name && p value)⟩

end Headers

end InterceptingProxy
