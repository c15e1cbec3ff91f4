import InterceptingProxy.Text

set_option autoImplicit false

/-! # IP address literals

`IpAddr.parse?` reads the strict text forms. An IPv4 literal is four decimal numbers up to 255
without leading zeros, parted by dots. An IPv6 literal is eight groups of one to four hexadecimal
digits parted by colons, where one `::` stands for at least one group of zeros and the last two
groups may be written as an IPv4 literal. No zone, no prefix length, no brackets. -/

namespace InterceptingProxy

/-- An IP address, by the bytes of its network form. -/
inductive IpAddr where
  | v4 (bytes : Bytes)
  | v6 (bytes : Bytes)
  deriving DecidableEq, Repr

namespace IpAddr

/-- The value of a hexadecimal digit. -/
def digitValue? (radix : Nat) (c : Char) : Option Nat :=
  let value :=
    if '0' ≤ c ∧ c ≤ '9' then some (c.toNat - '0'.toNat)
    else if 'a' ≤ c ∧ c ≤ 'f' then some (c.toNat - 'a'.toNat + 10)
    else if 'A' ≤ c ∧ c ≤ 'F' then some (c.toNat - 'A'.toNat + 10)
    else none
  value.filter (· < radix)

/-- The longest run of digits at the start, as values, and what follows it. -/
def digits (radix : Nat) : Text → List Nat × Text
  | [] => ([], [])
  | c :: rest =>
    match digitValue? radix c with
    | some d =>
      let (more, rest) := digits radix rest
      (d :: more, rest)
    | none => ([], c :: rest)

/-- A decimal number up to 255, of at most three digits and without a leading zero. -/
def octet (t : Text) : Option (UInt8 × Text) :=
  let (ds, rest) := digits 10 t
  let value := ds.foldl (fun n d => 10 * n + d) 0
  if ds.isEmpty || ds.length > 3 || value > 255 || (ds.length > 1 && ds.head? == some 0) then none
  else some (value.toUInt8, rest)

/-- A group of one to four hexadecimal digits. -/
def group (t : Text) : Option (Nat × Text) :=
  let (ds, rest) := digits 16 t
  if ds.isEmpty || ds.length > 4 then none
  else some (ds.foldl (fun n d => 16 * n + d) 0, rest)

/-- The text after the given character, if it comes first. -/
def skip (c : Char) : Text → Option Text
  | [] => none
  | d :: rest => if c = d then some rest else none

/-- Four octets parted by dots. -/
def v4Bytes (t : Text) : Option (Bytes × Text) := do
  let (a, t) ← octet t
  let (b, t) ← octet (← skip '.' t)
  let (c, t) ← octet (← skip '.' t)
  let (d, t) ← octet (← skip '.' t)
  return ([a, b, c, d], t)

/-- Reads up to `limit` groups, each after a colon unless it is the first. The result is the
    groups, whether they end in an IPv4 literal, and what follows them. -/
def groups (limit : Nat) (first : Bool) (t : Text) : List Nat × Bool × Text :=
  match limit with
  | 0 => ([], false, t)
  | limit + 1 =>
    let start := if first then some t else skip ':' t
    let literal := if limit = 0 then none else start.bind v4Bytes
    match literal with
    | some ([a, b, c, d], rest) =>
      ([256 * a.toNat + b.toNat, 256 * c.toNat + d.toNat], true, rest)
    | _ =>
      match start.bind group with
      | some (g, rest) =>
        let (more, ended, rest) := groups limit false rest
        (g :: more, ended, rest)
      | none => ([], false, t)

/-- The two bytes of each group. -/
def groupBytes (gs : List Nat) : Bytes := gs.flatMap fun g => [(g / 256).toUInt8, g.toUInt8]

/-- Eight groups, of which a `::` may leave out a run of zeros. -/
def v6Bytes (t : Text) : Option (Bytes × Text) :=
  let (head, literal, rest) := groups 8 true t
  if head.length = 8 then some (groupBytes head, rest)
  else if literal then none
  else do
    let rest ← skip ':' (← skip ':' rest)
    let (tail, _, rest) := groups (7 - head.length) true rest
    let zeros := List.replicate (8 - head.length - tail.length) 0
    return (groupBytes (head ++ zeros ++ tail), rest)

/-- The address that a text denotes. -/
def parse? (t : Text) : Option IpAddr :=
  match v4Bytes t with
  | some (bytes, []) => some (.v4 bytes)
  | _ =>
    match v6Bytes t with
    | some (bytes, []) => some (.v6 bytes)
    | _ => none

/-- The address with the given network form, if the length fits either version. -/
def ofBytes? (bytes : Bytes) : Option IpAddr :=
  if bytes.length = 4 then some (.v4 bytes)
  else if bytes.length = 16 then some (.v6 bytes)
  else none

end IpAddr

end InterceptingProxy
