import InterceptingProxy.Text.Quoted

set_option autoImplicit false

/-! # Command line options

Long options with values and switches, each with an environment variable as a second source. The
words are read from left to right. An option keeps waiting for its value until the next option
starts or the words end, so a word that is no option at all is reported before a bad value that
stands in front of it. Variables are looked at only for options that were not given. -/

namespace InterceptingProxy

/-- What an option takes. -/
inductive OptionKind where
  /-- Any text. -/
  | text
  /-- A path, which must not be empty. -/
  | path
  /-- A number below 65536. -/
  | port
  /-- No value on the command line; `true` or `false` in the environment. -/
  | switch
  deriving DecidableEq, Repr

/-- An option. -/
structure OptionSpec where
  name : Text
  kind : OptionKind
  environmentName : Text
  deriving DecidableEq, Repr

/-- Why the words or variables are refused, or what is shown instead of running. -/
inductive OptionFault where
  | displayHelp
  | displayVersion
  | unknownArgument (word : Text)
  /-- An option without its value, or a switch with a bad one. -/
  | invalidValue (option value : Text)
  /-- A value that is not a port number. -/
  | valueValidation (option value reason : Text)
  | argumentConflict (option : Text)
  /-- A value for an option that takes none. -/
  | tooManyValues (option value : Text)
  deriving DecidableEq, Repr

/-- The first line of the wording of a fault. -/
def OptionFault.message : OptionFault → Text
  | .displayHelp => []
  | .displayVersion => []
  | .unknownArgument word => "unexpected argument '".toList ++ word ++ "' found".toList
  | .invalidValue option [] =>
    "a value is required for '".toList ++ option ++ "' but none was supplied".toList
  | .invalidValue option value =>
    "invalid value '".toList ++ value ++ "' for '".toList ++ option ++ "'".toList
  | .valueValidation option value reason =>
    "invalid value '".toList ++ value ++ "' for '".toList ++ option ++ "': ".toList ++ reason
  | .argumentConflict option =>
    "the argument '".toList ++ option ++ "' cannot be used multiple times".toList
  | .tooManyValues option value =>
    "unexpected value '".toList ++ value ++ "' for '".toList ++ option
      ++ "' found; no more were expected".toList

namespace OptionSpec

/-- The option with the name of its value, as messages show it. -/
def usage (o : OptionSpec) : Text :=
  match o.kind with
  | .switch => "--".toList ++ o.name
  | _ => "--".toList ++ o.name ++ " <".toList ++ o.name.map Char.toUpper ++ ">".toList

/-- The number that a text denotes: decimal digits after an optional sign. -/
def number? (t : Text) : Except Text Int :=
  let (negative, digits) := match t with
    | '-' :: rest => (true, rest)
    | '+' :: rest => (false, rest)
    | t => (false, t)
  if t.isEmpty then .error "cannot parse integer from empty string".toList
  else if digits.isEmpty || !digits.all Char.isDigit then
    .error "invalid digit found in string".toList
  else
    let n : Int := if negative then -(digitsValue digits : Int) else digitsValue digits
    if n ≥ 0x8000000000000000 then .error "number too large to fit in target type".toList
    else if n < -0x8000000000000000 then .error "number too small to fit in target type".toList
    else .ok n

/-- Most that a port can be. -/
def maxPort : Nat := 65535

/-- The port that a text denotes. -/
def portNumber (o : OptionSpec) (value : Text) : Except OptionFault Nat :=
  match number? value with
  | .error reason => .error (.valueValidation o.usage value reason)
  | .ok n =>
    if 0 ≤ n ∧ n ≤ maxPort then .ok n.toNat
    else
      .error (.valueValidation o.usage value
        ((toString n).toList ++ " is not in 0..=".toList ++ Text.ofNat maxPort))

/-- Checks a value. -/
def check (o : OptionSpec) (value : Text) : Except OptionFault Unit :=
  match o.kind with
  | .text => .ok ()
  | .path => if value.isEmpty then .error (.invalidValue o.usage value) else .ok ()
  | .port => (o.portNumber value).map fun _ => ()
  | .switch =>
    if value = "true".toList ∨ value = "false".toList then .ok ()
    else .error (.invalidValue o.usage value)

end OptionSpec

/-! ## Reading -/

/-- The options read so far, and the one that waits for its value. -/
structure OptionScan where
  given : List (OptionSpec × Text) := []
  pending : Option (OptionSpec × Option Text) := none
  /-- No word is an option any more. -/
  onlyWords : Bool := false
  deriving DecidableEq, Repr

namespace OptionScan

/-- The value given for an option. -/
def value? (s : OptionScan) (o : OptionSpec) : Option Text :=
  (s.given.find? fun (p, _) => p.name = o.name).map Prod.snd

/-- Records an option with its value. -/
def record (s : OptionScan) (o : OptionSpec) (value : Text) : Except OptionFault OptionScan :=
  if (s.value? o).isSome then .error (.argumentConflict o.usage)
  else do
    o.check value
    return { s with given := s.given ++ [(o, value)] }

/-- Records the option that waits for its value. -/
def settle (s : OptionScan) : Except OptionFault OptionScan :=
  match s.pending with
  | none => .ok s
  | some (o, none) => .error (.invalidValue o.usage [])
  | some (o, some value) => { s with pending := none }.record o value

/-- A word that begins with two dashes, without them: its name and the value after `=`. -/
def longName (word : Text) : Text × Option Text :=
  match splitFirst '=' word with
  | some (name, value) => (name, some value)
  | none => (word, none)

/-- The scan after an option with a long name. -/
def long (specs : List OptionSpec) (s : OptionScan) (word : Text) :
    Except OptionFault OptionScan :=
  let (name, value) := longName word
  let option := "--".toList ++ name
  match specs.find? (·.name = name) with
  | none =>
    if name = "help".toList ∨ name = "version".toList then
      match value with
      | some value => .error (.tooManyValues option value)
      | none => do
        let _ ← s.settle
        throw (if name = "help".toList then .displayHelp else .displayVersion)
    else .error (.unknownArgument option)
  | some o =>
    match o.kind, value with
    | .switch, some value => .error (.tooManyValues option value)
    | .switch, none => do (← s.settle).record o "true".toList
    | _, some value => do (← s.settle).record o value
    | _, none => do return { ← s.settle with pending := some (o, none) }

/-- The scan after a word. -/
def step (specs : List OptionSpec) (s : OptionScan) (word : Text) :
    Except OptionFault OptionScan :=
  match s.onlyWords, word with
  | true, word => .error (.unknownArgument word)
  | false, ['-', '-'] => .ok { s with onlyWords := true }
  | false, '-' :: '-' :: rest => s.long specs rest
  | false, '-' :: c :: _ =>
    if c = 'h' ∨ c = 'V' then do
      let _ ← s.settle
      throw (if c = 'h' then .displayHelp else .displayVersion)
    else .error (.unknownArgument ['-', c])
  | false, word =>
    match s.pending with
    | some (o, none) => .ok { s with pending := some (o, some word) }
    | _ => .error (.unknownArgument word)

/-- Takes the options that were not given from the environment. -/
def addEnvironment (specs : List OptionSpec) (environment : Text → Option Text) (s : OptionScan) :
    Except OptionFault OptionScan :=
  specs.foldlM (fun s o =>
    match s.value? o, environment o.environmentName with
    | none, some value => s.record o value
    | _, _ => .ok s) s

/-- Reads the words and the environment. -/
def parse (specs : List OptionSpec) (environment : Text → Option Text) (words : List Text) :
    Except OptionFault OptionScan := do
  let s ← words.foldlM (step specs) {}
  (← s.settle).addEnvironment specs environment

end OptionScan

end InterceptingProxy
