import InterceptingProxy.Server

set_option autoImplicit false

/-! # The program

What a run of the program shows: its exit code, its output, and the log of a server that keeps
running. -/

namespace InterceptingProxy.Program

/-- What a run shows. -/
structure Outcome where
  /-- The exit code; none while the server keeps running. -/
  code : Option Nat
  /-- What is written to standard output, the log included. -/
  output : List Text := []
  /-- What is written to standard error. -/
  errors : List Text := []
  deriving DecidableEq, Repr

/-- The name of the program. -/
def name : Text := "grpc-proxy".toList

/-- What a flag is for. -/
def purpose (spec : OptionSpec) : Text :=
  let texts : List (String × String) :=
    [("interface", "Interface to listen on"),
      ("port", "Port to listen on (0 picks a free port)"),
      ("cert", "PEM certificate used to intercept TLS"),
      ("key", "PEM private key for --cert"),
      ("destination", "Destination for calls that name none (host:port)"),
      ("log_level", "Log level (trace, debug, info, warn, error); RUST_LOG takes precedence"),
      ("system_proxy", "Print how to route system traffic through the proxy"),
      ("tls_secrets_file", "Write TLS session secrets to this file (NSS key log format)")]
  ((texts.find? fun (flag, _) => flag.toList = spec.name).map fun (_, text) => text.toList).getD []

/-- The help that is shown on request and after a failure. -/
def help : List Text :=
  ["grpc-proxy - intercepting proxy for gRPC traffic".toList, [],
    "Usage: ".toList ++ name ++ " [OPTIONS]".toList, [], "Options:".toList]
    ++ Flags.specs.map (fun spec =>
      "      ".toList ++ spec.usage ++ "  ".toList ++ purpose spec ++ " [env: ".toList
        ++ spec.environmentName ++ "=]".toList)
    ++ ["  -h, --help  Print help".toList, "  -V, --version  Print version".toList]

/-- The lowest level that is logged: the environment's, else that of the flags; none when the text
    names no level. -/
def threshold (environment : Text → Option Text) (flags : Flags) : Option LogLevel :=
  LogLevel.parse? ((environment "RUST_LOG".toList).getD flags.logLevel)

/-- The notices that are logged. -/
def logged (lowest : Option LogLevel) (notices : List Notice) : List Text :=
  match lowest with
  | none => []
  | some lowest => (notices.filter (lowest.rank ≤ ·.level.rank)).map (·.text)

/-- The failure of a stage, with what led to it. -/
def failure (stage : String) (e : ProxyError) : Outcome :=
  { code := some 1
    output := help
    errors := ["Error: ".toList ++ stage.toList ++ ": ".toList ++ e.chain] }

/-- What a server that runs notes last. -/
def started (flags : Flags) : List Notice :=
  .info "grpc-proxy listening" ::
    (if flags.systemProxy then
      [.info "System proxy is not changed automatically, point the OS HTTP(S) proxy here"]
    else [])

/-- Runs with flags that were understood. -/
def runWith (taken : Text → Bool) (files : FileTree) (environment : Text → Option Text)
    (random : Bytes) (flags : Flags) : Outcome :=
  match Server.prepare (D := Unit) (I := Unit) (E := Unit) [.flags flags] files random with
  | .error e => failure "Failed to configure proxy" e
  | .ok (server, _, notices) =>
    match server.bind taken with
    | .error e => failure "Failed to bind listener" e
    | .ok bound =>
      { code := none
        output := logged (threshold environment flags) (notices ++ bound ++ started flags) }

/-- Runs the program. -/
def run (taken : Text → Bool) (files : FileTree) (environment : Text → Option Text)
    (random : Bytes) (words : List Text) : Outcome :=
  match Flags.parse environment words with
  | .ok flags => runWith taken files environment random flags
  | .error .displayHelp => { code := some 0, output := help }
  | .error .displayVersion => { code := some 0, output := [name] }
  | .error fault => { code := some 2, errors := ["error: ".toList ++ fault.message] }

end InterceptingProxy.Program
