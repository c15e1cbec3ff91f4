import InterceptingProxy.Program

set_option autoImplicit false

/-! # The command line

Hands the words of the command line, the environment and the files that matter to `Program.run`,
prints what comes of it, and ends with its exit code. -/

namespace InterceptingProxy.Main

/-- The names of the environment variables that matter. -/
def variableNames : List Text := "RUST_LOG".toList :: Flags.specs.map (·.environmentName)

/-- Looks the variables up. -/
def readEnvironment : IO (List (Text × Text)) := do
  let values ← variableNames.mapM fun name => do
    return (name, (← IO.getEnv (String.ofList name)).map String.toList)
  return values.filterMap fun (name, value) => value.map (name, ·)

/-- What stands under the given names. -/
def readNode (names : List Text) : IO (Option FileNode) := do
  let path := (← IO.currentDir) / String.ofList ('/' :: List.intercalate ['/'] names)
  if ← path.isDir then return some .directory
  if !(← path.pathExists) then return none
  try return some (.file (← IO.FS.readBinFile path).data.toList)
  catch _ => return none

/-- All places that steps from the top lead through. -/
def places (steps : List Text) : List (List Text) :=
  (List.range (steps.length + 1)).map fun k => (steps.take k).foldl FileTree.follow []

/-- The files that a run may look at: those that stand in the working directory, and those that the
    flags name. -/
def readFiles (flags : Except OptionFault Flags) : IO FileTree := do
  let directory ← IO.currentDir
  let empty : FileTree := { root := directory.toString.toList }
  let listed := (← directory.readDir).toList.map fun entry =>
    empty.rootNames ++ [entry.fileName.toList]
  let named := match flags with
    | .ok flags => [flags.certificate, flags.key, flags.secretsFile].filterMap id
    | .error _ => []
  (listed ++ (named.filterMap empty.steps?).flatMap places).foldlM (fun files names => do
    match files.node? names, ← readNode names with
    | none, some node => return files.put names node
    | _, _ => return files) empty

/-- Runs the program once and returns its exit code. -/
def run (words : List String) : IO UInt32 := do
  let values ← readEnvironment
  let environment := fun name => (values.find? fun (n, _) => n = name).map Prod.snd
  let words := words.map String.toList
  let files ← readFiles (Flags.parse environment words)
  let random := (← IO.getRandomBytes 8).data.toList
  let outcome := Program.run (fun _ => false) files environment random words
  for line in outcome.output do IO.println (String.ofList line)
  for line in outcome.errors do IO.eprintln (String.ofList line)
  return UInt32.ofNat (outcome.code.getD 0)

end InterceptingProxy.Main

/-- The command line. -/
def main (words : List String) : IO UInt32 := InterceptingProxy.Main.run words
