/-!
# Paths and file trees

A path is a text of steps with slashes between them. What the steps lead to is for a file tree to
say; here are first the forms of paths, and what a form alone decides.

What a session knows of files. A `FileTree` has a root, and a working directory somewhere below
it. A path is followed step by step, from the root or from the working directory; each step is
taken in a directory that is there, so the first step that cannot be taken is what the error
tells of. A file may be written wherever its directory is there already.
-/

namespace ForkTape.CommandLine

/-! ## Paths -/

namespace Path

/-- The most bytes that a path can have. -/
def longest : Nat := 4095

/-- The most bytes that the name of a file or directory can have. -/
def longestName : Nat := 255

/-- The steps of a path. An empty step comes from a slash at the start, at the end or beside
another slash. -/
def steps (path : String) : List String :=
  path.splitOn "/"

/-- The steps that name something, and do not merely stay where they are. -/
def names (path : String) : List String :=
  (steps path).filter fun step => step != "" && step != "."

/-- Whether a path starts at the root of the file tree. -/
def isAbsolute (path : String) : Bool :=
  path.toList.head? == some '/'

/-- Whether a path ends in a slash, as only that of a directory may. -/
def endsInSlash (path : String) : Bool :=
  path.toList.getLast? == some '/'

/-- The steps to where the last step of a path is taken, which slashes may follow; the empty step
at their end can be taken in directories only. -/
def stepsToLast (path : String) : List String :=
  ((steps path).reverse.dropWhile (· == "")).tail.reverse ++ [""]

/-- What follows the last dot of a file's name, if something precedes that dot. -/
def extension? (path : String) : Option String :=
  match (names path).getLast? with
  | none | some ".." => none
  | some name =>
      let (ending, rest) := name.toList.reverse.span (· != '.')
      match rest with
      | _ :: _ :: _ => some (String.ofList ending.reverse)
      | _ => none

/-- Whether a path is that of a program file. -/
def isProgram (path : String) : Bool :=
  extension? path == some "bf" || extension? path == some "b"

end Path

/-! ## File trees -/

/-- Why a file cannot be read or written. -/
inductive FileError
  | notFound
  /-- A file stands where a directory is needed. -/
  | notADirectory
  /-- A directory stands where a file is needed. -/
  | isADirectory
  /-- A device has no room for what is written. -/
  | noSpace
  /-- The path, or a name in it, is longer than any path or name can be. -/
  | nameTooLong
  /-- The file is not well-formed UTF-8. -/
  | notText
  /-- The path is not that of a program file. -/
  | wrongExtension (path : String)
  /-- A reason of the system's own. -/
  | other (reason : String)
  deriving DecidableEq, Repr, Inhabited

/-- The text of the error. -/
def FileError.message : FileError → String
  | notFound => "No such file or directory (os error 2)"
  | notADirectory => "Not a directory (os error 20)"
  | isADirectory => "Is a directory (os error 21)"
  | noSpace => "No space left on device (os error 28)"
  | nameTooLong => "File name too long (os error 36)"
  | notText => "stream did not contain valid UTF-8"
  | wrongExtension path => s!"expected a .bf or .b file, got {path}"
  | other reason => reason

/-- Where bytes go that are not kept in a file. There is nothing to read there. -/
inductive Device
  /-- Drops what is written. -/
  | null
  /-- Never has room. -/
  | full
  /-- Shows what is written. -/
  | screen
  deriving DecidableEq, Repr, Inhabited

/-- What stands at a place of a file tree. -/
inductive Node
  | directory
  | file (bytes : List UInt8)
  | device (device : Device)
  deriving DecidableEq, Repr, Inhabited

/-- A place of a file tree: the names on the way to it from the root, the last one first. The
root is the empty list, and its own parent. -/
abbrev Place := List String

/-- A file tree: what stands where, and all that its screen has shown. The directories on the way
to a node or to the working directory need not be listed. -/
structure FileTree where
  nodes : List (Place × Node)
  workingDirectory : Place
  shown : List UInt8
  deriving DecidableEq, Repr, Inhabited

namespace FileTree

/-- The directories that are there beside the working directory. -/
def standardDirectories : List String :=
  ["bin", "boot", "dev", "etc", "home", "lib", "media", "mnt", "opt", "proc", "root", "run",
    "sbin", "srv", "sys", "tmp", "usr", "var"]

/-- The devices, by name. -/
def standardDevices : List (String × Device) :=
  [("null", .null), ("full", .full), ("stdin", .null), ("stdout", .screen), ("stderr", .null)]

/-- What every tree of a session holds. -/
def standardNodes : List (Place × Node) :=
  standardDirectories.map (fun name => ([name], .directory))
    ++ standardDevices.map fun (name, device) => ([name, "dev"], .device device)

/-- The tree whose working directory holds files at the given paths, and nothing else. -/
def ofFiles (files : List (String × List UInt8)) : FileTree :=
  let workingDirectory := ["session", "tmp"]
  let place (path : String) : Place := (Path.names path).reverse ++ workingDirectory
  ⟨files.map (fun (path, bytes) => (place path, .file bytes)) ++ standardNodes,
    workingDirectory, []⟩

/-- Whether a place is on the way to something. -/
def leadsOn (tree : FileTree) (place : Place) : Bool :=
  place.isSuffixOf tree.workingDirectory
    || tree.nodes.any fun (further, _) => place.isSuffixOf further

/-- What stands at a place. -/
def node? (tree : FileTree) (place : Place) : Option Node :=
  match tree.nodes.lookup place with
  | some node => some node
  | none => if tree.leadsOn place then some .directory else none

/-- Take one step of a path in the directory at a place. Whether there is anything where the step
leads is for the next one to find out. -/
def take (tree : FileTree) (place : Place) (step : String) : Except FileError Place :=
  match tree.node? place with
  | none => .error .notFound
  | some .directory =>
      if step = "" ∨ step = "." then .ok place
      else if step = ".." then .ok place.tail
      else if Path.longestName < step.utf8ByteSize then .error .nameTooLong
      else .ok (step :: place)
  | some _ => .error .notADirectory

/-- The place that steps of a path lead to, from where the path starts. -/
def follow (tree : FileTree) (path : String) (steps : List String) : Except FileError Place :=
  if path.isEmpty then .error .notFound
  else if Path.longest < path.utf8ByteSize then .error .nameTooLong
  else steps.foldlM tree.take (if Path.isAbsolute path then [] else tree.workingDirectory)

/-- Read the file at a path. -/
def read (tree : FileTree) (path : String) : Except FileError (List UInt8) := do
  match tree.node? (← tree.follow path (Path.steps path)) with
  | none => .error .notFound
  | some .directory => .error .isADirectory
  | some (.file bytes) => .ok bytes
  | some (.device _) => .ok []

/-- The place that a path names for a file to be written. With a slash at its end it names a
directory, even if there is none. -/
def destination (tree : FileTree) (path : String) : Except FileError Place := do
  if Path.endsInSlash path then
    let _ ← tree.follow path (Path.stepsToLast path)
    .error .isADirectory
  else tree.follow path (Path.steps path)

/-- Put a file at a place. -/
def put (tree : FileTree) (place : Place) (bytes : List UInt8) : FileTree :=
  { tree with
    nodes := (place, .file bytes) :: tree.nodes.filter fun (other, _) => other != place }

/-- Write bytes to a device. -/
def send (tree : FileTree) (device : Device) (bytes : List UInt8) : Except FileError FileTree :=
  match device with
  | .null => .ok tree
  | .full => .error .noSpace
  | .screen => .ok { tree with shown := tree.shown ++ bytes }

/-- Write the file at a path. It replaces the one that is there. -/
def write (tree : FileTree) (path : String) (bytes : List UInt8) :
    Except FileError FileTree := do
  let place ← tree.destination path
  match tree.node? place with
  | some .directory => .error .isADirectory
  | some (.device device) => tree.send device bytes
  | some (.file _) | none => .ok (tree.put place bytes)

end FileTree

end ForkTape.CommandLine
