import InterceptingProxy.Address.HostPort

set_option autoImplicit false

/-! # Destinations that bypass the outbound proxy

A comma-separated list of hosts. An entry covers its host and every host below it; `*` covers
everything. Ports play no role. -/

namespace InterceptingProxy

/-- The hosts dialed directly although an outbound proxy is configured. -/
structure NoProxy where
  entries : List Text := []
  deriving DecidableEq, Repr

namespace NoProxy

/-- One entry in its canonical form: no spaces around it, no leading dots, lower case. -/
def normalise (entry : Text) : Text := Text.lower (entry.trim.dropWhile (· == '.'))

/-- Reads a comma-separated list; empty entries are dropped. -/
def parse (value : Text) : NoProxy :=
  ⟨((splitOn ',' value).map normalise).filter (!·.isEmpty)⟩

/-- Whether one entry covers an address. -/
def entryMatches (address entry : Text) : Bool :=
  let host := Text.lower (hostOf address)
  let covered := hostOf entry
  entry == ['*'] || entry == address || host == covered
    || match stripSuffix covered host with
      | some before => before.getLast? == some '.'
      | none => false

/-- Whether an address bypasses the outbound proxy. -/
def covers (np : NoProxy) (address : Text) : Bool := np.entries.any (entryMatches address)

end NoProxy

end InterceptingProxy
