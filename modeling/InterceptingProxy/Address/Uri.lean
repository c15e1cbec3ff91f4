import InterceptingProxy.Text.Utf8

set_option autoImplicit false

/-! # Request targets and destinations as URIs

A `Uri` is an optional scheme, an optional authority and a path with query. `Uri.parse?` reads the
forms of a request target: `/path`, `*`, `authority`, and `scheme://authority/path`. The rules for
characters are those of the grammar's parts (`isAuthorityChar`, `isPathChar`, `isQueryChar`); a
fragment is read and forgotten.

An authority (`scanAuthority`) ends at the first `/`, `?` or `#`. Brackets enclose an IPv6 literal
and come in one pair, at most one colon may stand outside userinfo and brackets, and a percent
sign is allowed only before an `@` or between the brackets. -/

namespace InterceptingProxy

/-! ## Authorities -/

/-- A character that an authority may hold. -/
def isAuthorityChar (c : Char) : Bool :=
  c.isAlphanum || "!$&'()*+,-.:;=@[]_~".toList.contains c

/-- What has been met while reading an authority. -/
structure AuthorityScan where
  /-- Colons since the last `@` or closing bracket. -/
  colons : Nat := 0
  opened : Bool := false
  closed : Bool := false
  /-- A percent sign since the last `@` or closing bracket. -/
  percent : Bool := false
  /-- The last character was an `@`. -/
  afterAt : Bool := false
  deriving DecidableEq, Repr

namespace AuthorityScan

/-- Most colons between brackets or in userinfo. -/
def maxColons : Nat := 8

/-- The scan after one more character; `none` if it cannot stand there. -/
def step (s : AuthorityScan) (c : Char) : Option AuthorityScan :=
  let s' := { s with afterAt := false }
  match c with
  | ':' => if s.colons ≥ maxColons then none else some { s' with colons := s.colons + 1 }
  | '[' => if s.percent || s.opened then none else some { s' with opened := true }
  | ']' =>
    if !s.opened || s.closed then none
    else some { s' with closed := true, colons := 0, percent := false }
  | '@' => some { s with afterAt := true, colons := 0, percent := false }
  | '%' => some { s' with percent := true }
  | c => if isAuthorityChar c then some s' else none

/-- Whether an authority may end here. -/
def complete (s : AuthorityScan) : Bool :=
  s.opened == s.closed && s.colons ≤ 1 && !s.afterAt && !s.percent

end AuthorityScan

/-- The authority at the start of a text, and what follows it from the first `/`, `?` or `#`. -/
def scanAuthority (s : AuthorityScan) : Text → Option (Text × Text)
  | [] => if s.complete then some ([], []) else none
  | c :: rest =>
    if c = '/' ∨ c = '?' ∨ c = '#' then if s.complete then some ([], c :: rest) else none
    else do
      let s ← s.step c
      let (authority, rest) ← scanAuthority s rest
      return (c :: authority, rest)

/-- A text that is an authority as a whole. -/
def parseAuthority? (t : Text) : Option Text :=
  match scanAuthority {} t with
  | some (a :: authority, []) => some (a :: authority)
  | _ => none

namespace Authority

/-- What follows the userinfo. -/
def hostPort (authority : Text) : Text :=
  match splitLast '@' authority with
  | some (_, hostPort) => hostPort
  | none => authority

/-- What precedes the last `@`. -/
def userinfo? (authority : Text) : Option Text := (splitLast '@' authority).map Prod.fst

/-- The host, with its brackets if it has them. -/
def host (authority : Text) : Text :=
  match hostPort authority with
  | '[' :: rest => '[' :: rest.takeWhile (· ≠ ']') ++ [']']
  | hostPort => hostPort.takeWhile (· ≠ ':')

/-- A port: a decimal number below 65536, maybe after a plus sign. -/
def parsePort? (digits : Text) : Option Nat :=
  let digits := match digits with
    | '+' :: rest => rest
    | digits => digits
  if digits.isEmpty || !digits.all Char.isDigit then none
  else
    let n := digitsValue digits
    if n < 65536 then some n else none

/-- The port after the last colon, if it is one. -/
def port? (authority : Text) : Option Nat :=
  (splitLast ':' authority).bind fun (_, digits) => parsePort? digits

end Authority

/-! ## Paths and queries -/

/-- A path with its query, as written; a path may be empty. -/
structure PathAndQuery where
  path : Text
  query : Option Text := none
  deriving DecidableEq, Repr

namespace PathAndQuery

/-- A character that a path may hold. -/
def isPathChar (c : Char) : Bool :=
  let n := c.toNat
  n == 0x21 || (0x24 ≤ n && n ≤ 0x3B) || n == 0x3D || (0x40 ≤ n && n ≤ 0x5F)
    || (0x61 ≤ n && n ≤ 0x7A) || n == 0x7C || n == 0x7E || n ≥ 0x7F
    || n == 0x22 || n == 0x7B || n == 0x7D

/-- A character that a query may hold. -/
def isQueryChar (c : Char) : Bool :=
  let n := c.toNat
  n == 0x21 || (0x24 ≤ n && n ≤ 0x3B) || n == 0x3D || (0x3F ≤ n)

/-- Reads a path with an optional query; a fragment ends it and is dropped unread. -/
def parse? (t : Text) : Option PathAndQuery :=
  let path := t.takeWhile fun c => c ≠ '?' ∧ c ≠ '#'
  if !path.all isPathChar then none
  else match t.drop path.length with
    | '?' :: rest =>
      let query := rest.takeWhile (· ≠ '#')
      if query.all isQueryChar then some ⟨path, some query⟩ else none
    | _ => some ⟨path, none⟩

/-- Reads a path that stands alone: it begins as a path or a query does, or is `*`. -/
def ofPath? (t : Text) : Option PathAndQuery :=
  if t = ['*'] ∨ t.head?.any (fun c => c = '/' ∨ c = '?' ∨ c = '#') then parse? t else none

/-- The written form; an empty one is a slash. -/
def toText (p : PathAndQuery) : Text :=
  match p.path, p.query with
  | [], none => ['/']
  | path, none => path
  | path, some query => path ++ '?' :: query

/-- The path alone; an empty one is a slash. -/
def pathText (p : PathAndQuery) : Text := if p.path.isEmpty then ['/'] else p.path

end PathAndQuery

/-! ## URIs -/

/-- A request target or the address of a destination. -/
structure Uri where
  /-- The scheme as written, in lower case if it is `http` or `https`. -/
  scheme : Option Text := none
  authority : Option Text := none
  target : PathAndQuery := ⟨[], none⟩
  deriving DecidableEq, Repr

namespace Uri

/-- Most bytes of a URI. -/
def maxLength : Nat := 65534

/-- Most characters of a scheme. -/
def maxSchemeLength : Nat := 64

/-- A character that a scheme may hold. -/
def isSchemeChar (c : Char) : Bool := c.isAlphanum || "+-.~".toList.contains c

/-- A scheme at the start of a text and what follows its `://`; the outer `none` means a scheme
    that is too long. -/
def scheme? (t : Text) : Option (Option Text × Text) :=
  let written := t.takeWhile isSchemeChar
  match stripPrefix "://".toList (t.drop written.length) with
  | none => some (none, t)
  | some rest =>
    let known := Text.lower written
    if known = "http".toList ∨ known = "https".toList then some (some known, rest)
    else if written.length > maxSchemeLength then none
    else some (some written, rest)

/-- Reads a URI in one of its four forms. -/
def parse? (t : Text) : Option Uri :=
  if t.utf8.length > maxLength then none
  else match t with
    | [] => none
    | ['*'] => some { target := ⟨['*'], none⟩ }
    | '/' :: _ => (PathAndQuery.parse? t).map fun target => { target }
    | [_] => (parseAuthority? t).map fun a => { authority := some a }
    | t => do
      let (scheme, rest) ← scheme? t
      let (authority, rest) ← scanAuthority {} rest
      match scheme with
      | none => if rest.isEmpty then return { authority := some authority } else none
      | some scheme =>
        if authority.isEmpty then none
        else
          let target ← PathAndQuery.parse? rest
          return { scheme := some scheme, authority := some authority, target }

/-- The path; nothing when the URI is an authority alone. -/
def path (u : Uri) : Text :=
  if u.scheme.isNone && u.target.path.isEmpty && u.target.query.isNone then []
  else u.target.pathText

/-- The path and query; none when the URI is an authority alone. -/
def pathAndQuery? (u : Uri) : Option PathAndQuery :=
  if u.scheme.isSome || u.authority.isNone then some u.target else none

end Uri

end InterceptingProxy
