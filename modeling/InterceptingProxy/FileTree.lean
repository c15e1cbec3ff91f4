import InterceptingProxy.IoError
import InterceptingProxy.Text.Utf8

set_option autoImplicit false

/-! # File trees

The files that the proxy reads and writes: certificates, keys and the key log. A `FileTree` holds
them by the names on the way from the top of the file system. A path is resolved step by step, from
the top or from the working directory, so that a missing directory and a file in the place of a
directory are told apart. -/

namespace InterceptingProxy

/-- What a name in a directory stands for. -/
inductive FileNode where
  | file (content : Bytes)
  | directory
  deriving DecidableEq, Repr

/-- Files and directories, by the names on the way from the top. -/
structure FileTree where
  /-- The path of the working directory. It is there, and so is every directory on the way. -/
  root : Text
  nodes : List (List Text × FileNode) := []
  deriving DecidableEq, Repr

/-- An entry of a directory: its name and whether it is a regular file. -/
structure DirEntry where
  name : Bytes
  isFile : Bool
  deriving DecidableEq, Repr

namespace FileTree

/-- The names in a path. -/
def namesIn (path : Text) : List Text := (splitOn '/' path).filter (!·.isEmpty)

/-- The names on the way to the working directory. -/
def rootNames (t : FileTree) : List Text := namesIn t.root

/-- The node with the given names on the way. -/
def node? (t : FileTree) (names : List Text) : Option FileNode :=
  if names <+: t.rootNames then some .directory
  else (t.nodes.find? fun (n, _) => n = names).map Prod.snd

/-- The tree with one more node, in place of what stood there. -/
def put (t : FileTree) (names : List Text) (node : FileNode) : FileTree :=
  { t with nodes := t.nodes.filter (fun (n, _) => n ≠ names) ++ [(names, node)] }

/-- The directories on the way, outermost first. -/
def parents (names : List Text) : List (List Text) :=
  ((List.range names.length).map names.take).filter (!·.isEmpty)

/-- The tree with a node in the working directory or below it, and the directories on the way. -/
def add (t : FileTree) (path : Text) (node : FileNode) : FileTree :=
  let names := t.rootNames ++ namesIn path
  let t := (parents names).foldl (fun t p => if (t.node? p).isSome then t else t.put p .directory) t
  t.put names node

/-- The path of an entry of a directory. A slash that ends the directory is not written twice. -/
def join (directory name : Text) : Text :=
  if directory.getLast?.all (· = '/') then directory ++ name else directory ++ '/' :: name

/-- Whether a path starts at the top: it begins with a slash or with the path of the working
    directory. Other paths start in the working directory. -/
def StartsAtTop (t : FileTree) (path : Text) : Prop :=
  path.head? = some '/' ∨ path = t.root ∨ t.root ++ ['/'] <+: path

instance (t : FileTree) (path : Text) : Decidable (t.StartsAtTop path) :=
  inferInstanceAs (Decidable (_ ∨ _ ∨ _))

/-- The steps of a path from the top on. The empty path has none and leads nowhere. -/
def steps? (t : FileTree) (path : Text) : Option (List Text) :=
  if path = [] then none
  else if t.StartsAtTop path then some (splitOn '/' path)
  else some (t.rootNames ++ splitOn '/' path)

/-- Where one step leads from the directory with the given names: it stays, goes up or goes down. -/
def follow (names : List Text) (step : Text) : List Text :=
  if step = [] ∨ step = ['.'] then names
  else if step = ['.', '.'] then names.dropLast
  else names ++ [step]

/-- Follows steps from the node with the given names. -/
def walk (t : FileTree) (names : List Text) : List Text → Except IoError (List Text × FileNode)
  | [] =>
    match t.node? names with
    | some node => .ok (names, node)
    | none => .error .noSuchFile
  | step :: rest =>
    match t.node? names with
    | none => .error .noSuchFile
    | some (.file _) => .error .notADirectory
    | some .directory => walk t (follow names step) rest

/-- What a path leads to. -/
def find (t : FileTree) (path : Text) : Except IoError (List Text × FileNode) :=
  match t.steps? path with
  | some steps => t.walk [] steps
  | none => .error .noSuchFile

/-- Whether a path leads to a regular file. -/
def isFile (t : FileTree) (path : Text) : Bool :=
  match t.find path with
  | .ok (_, .file _) => true
  | _ => false

/-- Whether a path leads to anything. -/
def pathExists (t : FileTree) (path : Text) : Bool := (t.find path).toBool

/-- The working directory and the directories above it. -/
def rootDirectories (t : FileTree) : List (List Text × FileNode) :=
  (List.range (t.rootNames.length + 1)).map fun k => (t.rootNames.take k, .directory)

/-- The entries of a directory. -/
def list (t : FileTree) (path : Text) : Except IoError (List DirEntry) := do
  match ← t.find path with
  | (_, .file _) => throw .notADirectory
  | (names, .directory) =>
    return (t.rootDirectories ++ t.nodes).filterMap fun (n, node) =>
      if n.dropLast = names ∧ n ≠ [] then
        n.getLast?.map fun last =>
          { name := last.utf8
            isFile := match node with
              | .file _ => true
              | .directory => false }
      else none

/-- Opens a file for appending, creating it if it is not there. A path that ends in a slash asks for
    a directory. The result is the tree with the file and the names on the way to it. -/
def openAppend (t : FileTree) (path : Text) : Except IoError (FileTree × List Text) := do
  match t.find path with
  | .ok (names, .file _) => return (t, names)
  | .ok (_, .directory) => throw .isADirectory
  | .error e =>
    match t.steps? path with
    | none => throw e
    | some steps =>
      let named := dropEndWhile (·.isEmpty) steps
      match ← t.walk [] named.dropLast with
      | (_, .file _) => throw .notADirectory
      | (names, .directory) =>
        if named ≠ steps then throw .isADirectory
        let names := names ++ named.getLast?.toList
        return (t.put names (.file []), names)

/-- The content of a file, by the names on the way to it. -/
def content (t : FileTree) (names : List Text) : Bytes :=
  match t.node? names with
  | some (.file bytes) => bytes
  | _ => []

/-- Adds bytes to the end of a file. -/
def append (t : FileTree) (names : List Text) (bytes : Bytes) : FileTree :=
  t.put names (.file (t.content names ++ bytes))

end FileTree

end InterceptingProxy
