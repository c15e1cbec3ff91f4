import InterceptingProxy.Config.Flags
import InterceptingProxy.ProxyError
import InterceptingProxy.Text.Duration

set_option autoImplicit false

/-! # The configuration of a server

A `ServerConfig` starts from defaults and is changed by a list of settings, applied in order, so
that the last one to write a field counts; interceptors, endpoint options and roots add up. The
result is checked once, at the end (`ServerConfig.build`). The parts that a user plugs in (the
dialer `D`, interceptors `I`, endpoint options `E`) are of any types. -/

namespace InterceptingProxy

/-- Everything a server is built from. -/
structure ServerConfig (D I E : Type) where
  interface : Text := defaultInterface
  /-- 0 picks a free port. -/
  port : Nat := 0
  certificate : Option Text := none
  key : Option Text := none
  /-- The destination of calls that name none themselves. -/
  destination : Option Text := none
  /-- The outbound dialer; that of the environment if none is set. -/
  dialer : Option D := none
  interceptors : List I := []
  endpointOptions : List E := []
  secretsFile : Option Text := none
  /-- In milliseconds. -/
  connectTimeout : Nat := 10000
  systemProxy : Bool := false
  /-- Roots trusted in addition to the public ones when a connection is encrypted again. -/
  outboundRoots : List Bytes := []
  deriving DecidableEq, Repr

/-- One change of a configuration. -/
inductive Setting (D I E : Type) where
  | port (port : Nat)
  | interface (interface : Text)
  /-- Certificate and key together. -/
  | tls (certificate key : Text)
  | certificateFile (path : Text)
  | keyFile (path : Text)
  | noTls
  | destination (destination : Text)
  | dialer (dialer : D)
  | interceptor (interceptor : I)
  | endpointOptions (options : List E)
  | secretsFile (path : Text)
  | connectTimeout (milliseconds : Nat)
  | outboundRoots (roots : List Bytes)
  /-- Everything that flags determine. -/
  | flags (flags : Flags)
  deriving DecidableEq, Repr

namespace ServerConfig

variable {D I E : Type}

/-- A destination, unless it is empty. -/
def givenDestination (destination : Option Text) : Option Text := destination.filter (!·.isEmpty)

/-- The configuration after one setting. -/
def apply (c : ServerConfig D I E) : Setting D I E → ServerConfig D I E
  | .port port => { c with port }
  | .interface interface => { c with interface }
  | .tls certificate key => { c with certificate := some certificate, key := some key }
  | .certificateFile path => { c with certificate := some path }
  | .keyFile path => { c with key := some path }
  | .noTls => { c with certificate := none, key := none }
  | .destination destination => { c with destination := givenDestination (some destination) }
  | .dialer dialer => { c with dialer := some dialer }
  | .interceptor interceptor => { c with interceptors := c.interceptors ++ [interceptor] }
  | .endpointOptions options => { c with endpointOptions := c.endpointOptions ++ options }
  | .secretsFile path => { c with secretsFile := some path }
  | .connectTimeout milliseconds => { c with connectTimeout := milliseconds }
  | .outboundRoots roots => { c with outboundRoots := c.outboundRoots ++ roots }
  | .flags flags =>
    { c with
      interface := flags.interface
      port := flags.port
      certificate := flags.certificate
      key := flags.key
      destination := givenDestination flags.destination
      secretsFile := flags.secretsFile
      systemProxy := flags.systemProxy }

/-- The configuration after all settings, from the defaults on. -/
def ofSettings (settings : List (Setting D I E)) : ServerConfig D I E := settings.foldl apply {}

/-- Refuses an empty interface, and a certificate or key without the other. -/
def validate (c : ServerConfig D I E) : Except ProxyError Unit :=
  if (Text.trim c.interface).isEmpty then .error (.config "interface must not be empty".toList)
  else match c.certificate, c.key with
    | some _, none => .error (.config "a certificate was given without a key".toList)
    | none, some _ => .error (.config "a key was given without a certificate".toList)
    | _, _ => .ok ()

/-- The configuration that settings lead to, if it is valid. -/
def build (settings : List (Setting D I E)) : Except ProxyError (ServerConfig D I E) := do
  let c := ofSettings settings
  c.validate
  return c

/-- The address to listen on: interface and port, with brackets around an IPv6 literal. -/
def listenAddress (c : ServerConfig D I E) : Text :=
  let interface := Text.trim c.interface
  let port := ':' :: Text.ofNat c.port
  if ':' ∈ interface ∧ interface.head? ≠ some '[' then '[' :: interface ++ ']' :: port
  else interface ++ port

/-! ## Description -/

/-- An optional text. -/
def describeOption : Option Text → Text
  | some t => "Some(".toList ++ t.quoted ++ ")".toList
  | none => "None".toList

/-- A truth value. -/
def describeBool (b : Bool) : Text := if b then "true".toList else "false".toList

/-- The fields with their values, for people to read. -/
def describedFields (c : ServerConfig D I E) : List (String × Text) :=
  [("interface", c.interface.quoted),
    ("port", Text.ofNat c.port),
    ("cert_file", describeOption c.certificate),
    ("key_file", describeOption c.key),
    ("destination", describeOption c.destination),
    ("custom_dialer", describeBool c.dialer.isSome),
    ("interceptors", Text.ofNat c.interceptors.length),
    ("endpoint_options", Text.ofNat c.endpointOptions.length),
    ("tls_secrets_file", describeOption c.secretsFile),
    ("connect_timeout", Text.ofMilliseconds c.connectTimeout),
    ("enable_system_proxy", describeBool c.systemProxy),
    ("outbound_root_certificates", Text.ofNat c.outboundRoots.length)]

/-- The configuration for people to read. -/
def describe (c : ServerConfig D I E) : Text :=
  let fields := c.describedFields.map fun (name, value) => name.toList ++ ": ".toList ++ value
  "ServerConfig \x7b ".toList ++ List.intercalate ", ".toList fields ++ " \x7d".toList

end ServerConfig

end InterceptingProxy
