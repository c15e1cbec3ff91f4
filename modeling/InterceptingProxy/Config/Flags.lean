import InterceptingProxy.Config.Options

set_option autoImplicit false

/-! # The flags of the program

What can be set on the command line or by variables of the environment. -/

namespace InterceptingProxy

/-- Interface bound when none is configured. -/
def defaultInterface : Text := "localhost".toList

/-- Log level when none is given. -/
def defaultLogLevel : Text := "info".toList

/-- The values of all flags. -/
structure Flags where
  interface : Text := defaultInterface
  port : Nat := 0
  certificate : Option Text := none
  key : Option Text := none
  destination : Option Text := none
  logLevel : Text := defaultLogLevel
  systemProxy : Bool := false
  secretsFile : Option Text := none
  deriving DecidableEq, Repr

namespace Flags

/-- A flag, with the variable named after it. -/
def spec (name : String) (kind : OptionKind) (suffix : String) : OptionSpec :=
  { name := name.toList, kind, environmentName := ("GRPC_PROXY_" ++ suffix).toList }

/-- The interface to listen on. -/
def interfaceSpec : OptionSpec := spec "interface" .text "INTERFACE"

/-- The port to listen on. -/
def portSpec : OptionSpec := spec "port" .port "PORT"

/-- The certificate used to intercept TLS. -/
def certificateSpec : OptionSpec := spec "cert" .path "CERT"

/-- The private key of the certificate. -/
def keySpec : OptionSpec := spec "key" .path "KEY"

/-- The destination for calls that name none. -/
def destinationSpec : OptionSpec := spec "destination" .text "DESTINATION"

/-- How much is logged. -/
def logLevelSpec : OptionSpec := spec "log_level" .text "LOG_LEVEL"

/-- Whether to tell how system traffic is routed through the proxy. -/
def systemProxySpec : OptionSpec := spec "system_proxy" .switch "SYSTEM_PROXY"

/-- The file that TLS secrets are written to. -/
def secretsSpec : OptionSpec := spec "tls_secrets_file" .path "TLS_SECRETS_FILE"

/-- All flags in the order in which their variables are read. -/
def specs : List OptionSpec :=
  [interfaceSpec, portSpec, certificateSpec, keySpec, destinationSpec, logLevelSpec,
    systemProxySpec, secretsSpec]

/-- Reads the command line and the environment. -/
def parse (environment : Text → Option Text) (words : List Text) : Except OptionFault Flags := do
  let s ← OptionScan.parse specs environment words
  let port ← match s.value? portSpec with
    | some value => portSpec.portNumber value
    | none => pure 0
  return {
    interface := (s.value? interfaceSpec).getD defaultInterface
    port
    certificate := s.value? certificateSpec
    key := s.value? keySpec
    destination := s.value? destinationSpec
    logLevel := (s.value? logLevelSpec).getD defaultLogLevel
    systemProxy := s.value? systemProxySpec == some "true".toList
    secretsFile := s.value? secretsSpec }

end Flags

end InterceptingProxy
