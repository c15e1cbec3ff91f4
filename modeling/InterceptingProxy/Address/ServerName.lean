import InterceptingProxy.Address.IpAddr
import InterceptingProxy.Text.Utf8

set_option autoImplicit false

/-! # Names of TLS servers

A client tells a TLS server which name it wants to reach, and checks the certificate against it. A
name is a DNS name or an IP address. The labels of a DNS name are joined by single dots, the last
of which may end the name; a label consists of letters, digits, underscores and inner hyphens, and
the last label has a character that is no digit. -/

namespace InterceptingProxy

/-- A name that a TLS server may be asked for. -/
inductive ServerName where
  | dns (name : Text)
  | ip (address : IpAddr)
  deriving DecidableEq, Repr

namespace ServerName

/-- Most characters of a label. -/
def maxLabel : Nat := 63

/-- Most characters of a name. -/
def maxName : Nat := 253

/-- A character of a label other than a hyphen. -/
def isLabelChar (c : Char) : Bool := c.isAlphanum || c == '_'

/-- A label: at most `maxLabel` characters, no hyphen at the start or the end. -/
def isLabel (label : Text) : Bool :=
  !label.isEmpty && label.length ≤ maxLabel
    && label.all (fun c => isLabelChar c || c == '-')
    && label.head? != some '-' && label.getLast? != some '-'

/-- The labels of a name, without the empty one after a dot at the end. -/
def labels (name : Text) : List Text :=
  match stripSuffix ['.'] name with
  | some start => splitOn '.' start
  | none => splitOn '.' name

/-- A name of labels, the last of which is no number. -/
def isDnsName (name : Text) : Bool :=
  name.length ≤ maxName && (labels name).all isLabel
    && (labels name).getLast?.any fun label => !label.all Char.isDigit

/-- The name that a text denotes. -/
def parse? (t : Text) : Option ServerName :=
  if isDnsName t then some (.dns t) else (IpAddr.parse? t).map .ip

/-- Whether a certificate for the given DNS names is one for this name. -/
def isAmong (names : List Text) : ServerName → Bool
  | .dns name => names.contains (Text.lower ((stripSuffix ['.'] name).getD name))
  | .ip _ => false

end ServerName

end InterceptingProxy
