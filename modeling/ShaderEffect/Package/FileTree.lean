/-!
# File trees

Files and directories, and the operations that packaging needs of a file system. Paths are texts
with slashes between the names, as on the command line. They start at the current directory, or at
the root if a slash comes first.
-/

namespace ShaderEffect

/-- Why a file operation fails. -/
inductive FileError where
  | notFound
  | alreadyExists
  | notADirectory
  | isADirectory
  | nameTooLong
  | nulInPath
  /-- Another failure, as the system describes it. -/
  | other (description : String)
  deriving DecidableEq

/-- The wording of a file error. -/
def FileError.message : FileError → String
  | notFound => "No such file or directory (os error 2)"
  | alreadyExists => "File exists (os error 17)"
  | notADirectory => "Not a directory (os error 20)"
  | isADirectory => "Is a directory (os error 21)"
  | nameTooLong => "File name too long (os error 36)"
  | nulInPath => "file name contained an unexpected NUL byte"
  | other description => description

/-- The file operations that commands use. -/
structure FileAccess (m : Type → Type) where
  /-- The content of a file. -/
  read : String → m (Except FileError (List UInt8))
  /-- Create a directory and the missing ones above it. -/
  createDirectories : String → m (Except FileError Unit)
  /-- Create a file, or replace its content. -/
  write : String → List UInt8 → m (Except FileError Unit)

/-- Whether a path starts at the root. -/
def isRooted (path : String) : Bool :=
  path.toList.head? == some '/'

/-- Whether a path ends with a slash. -/
def endsInSlash (path : String) : Bool :=
  path.toList.getLast? == some '/'

/-- The path of a file in a directory. -/
def joinPath (directory file : String) : String :=
  if isRooted file || directory.isEmpty then file
  else if endsInSlash directory then directory ++ file
  else directory ++ "/" ++ file

/-- The texts between the slashes of a path. -/
def splitSlashes : List Char → List (List Char)
  | [] => [[]]
  | c :: rest =>
    if c = '/' then [] :: splitSlashes rest
    else (splitSlashes rest).modifyHead (c :: ·)

/-- The names along a path. A dot stands for the directory so far; only at the end it is kept,
because there the directory has to exist already. -/
def pathNames (path : String) : List String :=
  let names := ((splitSlashes path.toList).map String.ofList).filter (!·.isEmpty)
  let last := names.getLast?.filter (· == ".")
  names.filter (· != ".") ++ last.toList

/-- The longest name of a file, in bytes. -/
def maxNameSize : Nat := 255

/-- The longest path, in bytes. -/
def maxPathSize : Nat := 4095

/-- Why a path cannot name anything, whatever files there are. -/
def pathError? (path : String) : Option FileError :=
  if path.toList.contains '\x00' then some .nulInPath
  else if maxPathSize < path.utf8ByteSize then some .nameTooLong
  else none

/-- A file or a directory. -/
inductive FileNode where
  | file (content : List UInt8)
  | directory
  deriving DecidableEq

/-- The files and directories by their names from the root on. The current directory and those above
it need not be listed. -/
structure FileTree where
  nodes : List (List String × FileNode) := []
  current : List String := []

namespace FileTree

/-- An empty current directory in a system with the directories that every system has. -/
def fresh : FileTree where
  nodes :=
    ["bin", "dev", "etc", "home", "lib", "opt", "root", "usr", "var"].map (([·], .directory)) ++
      [(["dev", "null"], .file []), (["etc", "passwd"], .file []), (["usr", "bin"], .directory)]
  current := ["tmp", "work"]

/-- What is at a place. -/
def node? (tree : FileTree) (place : List String) : Option FileNode :=
  if place.isPrefixOf tree.current then some .directory else tree.nodes.lookup place

/-- Put a node at a place. -/
def insert (tree : FileTree) (place : List String) (node : FileNode) : FileTree :=
  { tree with nodes := (tree.nodes.filter (·.1 != place)) ++ [(place, node)] }

/-- The place that a path starts from. -/
def start (tree : FileTree) (path : String) : List String :=
  if isRooted path then [] else tree.current

/-- The place that a name leads to from a directory. Above the root is the root. -/
def step (tree : FileTree) (place : List String) (name : String) :
    Except FileError (List String) :=
  match tree.node? place with
  | none => throw .notFound
  | some (.file _) => throw .notADirectory
  | some .directory =>
    if maxNameSize < name.utf8ByteSize then throw .nameTooLong
    else if name = "." then return place
    else if name = ".." then return place.dropLast
    else return place ++ [name]

/-- The place that names lead to from a directory. All but the last have to exist. -/
def walk (tree : FileTree) (place : List String) : List String → Except FileError (List String)
  | [] => return place
  | name :: rest => do
    let next ← tree.step place name
    tree.walk next rest

/-- The place of a file. After a slash at the end of its path it would have to be a directory. -/
def locate (tree : FileTree) (path : String) : Except FileError (List String) := do
  if let some error := pathError? path then throw error
  tree.walk (tree.start path) (pathNames path ++ if endsInSlash path then ["."] else [])

/-- Create a single directory. -/
def makeDirectory (tree : FileTree) (start names : List String) : Except FileError FileTree := do
  let place ← tree.walk start names
  match tree.node? place with
  | some _ => throw .alreadyExists
  | none => return tree.insert place .directory

/-- Whether names lead to a directory. -/
def isDirectory (tree : FileTree) (start names : List String) : Bool :=
  match tree.walk start names with
  | .ok place => tree.node? place == some .directory
  | .error _ => false

/-- Create a directory that may exist already. -/
def ensureDirectory (tree : FileTree) (start names : List String) : Except FileError FileTree :=
  match tree.makeDirectory start names with
  | .ok tree => return tree
  | .error error => if tree.isDirectory start names then return tree else throw error

/-- The tree after an attempt, and whether that succeeded. -/
def attempt (tree : FileTree) (result : Except FileError FileTree) :
    FileTree × Except FileError Unit :=
  match result with
  | .ok tree => (tree, .ok ())
  | .error error => (tree, .error error)

/-- Create the directory with the given names, the last one first, and the missing ones above it.
What was created stays, also if a later step fails. -/
def createAll (tree : FileTree) (start : List String) :
    List String → FileTree × Except FileError Unit
  | [] => (tree, .ok ())
  | name :: above =>
    let names := (name :: above).reverse
    match tree.makeDirectory start names with
    | .error .notFound =>
      match tree.createAll start (if name = "." then above.drop 1 else above) with
      | (tree, .ok ()) => tree.attempt (tree.ensureDirectory start names)
      | failed => failed
    | _ => tree.attempt (tree.ensureDirectory start names)
termination_by names => names.length
decreasing_by
  simp only [List.length_cons]
  split
  · simp only [List.length_drop]; omega
  · omega

/-- Create a directory and the missing ones above it. -/
def createDirectories (tree : FileTree) (path : String) : FileTree × Except FileError Unit :=
  match pathError? path with
  | some error => (tree, .error error)
  | none => tree.createAll (tree.start path) (pathNames path).reverse

/-- Create a file, or replace its content. -/
def write (tree : FileTree) (path : String) (content : List UInt8) :
    Except FileError FileTree := do
  let place ← tree.locate path
  match tree.node? place with
  | some .directory => throw .isADirectory
  | _ => return tree.insert place (.file content)

/-- The content of a file. -/
def read (tree : FileTree) (path : String) : Except FileError (List UInt8) := do
  let place ← tree.locate path
  match tree.node? place with
  | none => throw .notFound
  | some .directory => throw .isADirectory
  | some (.file content) => return content

/-- Whether names along a path come before others, or are the same. -/
def namesBefore : List String → List String → Bool
  | [], _ => true
  | _ :: _, [] => false
  | a :: as, b :: bs => a < b || (a == b && namesBefore as bs)

/-- The files below the current directory, in the order of their names along the path. -/
def files (tree : FileTree) : List (List String × List UInt8) :=
  let below := tree.nodes.filterMap fun (place, node) =>
    match node with
    | .file content =>
      if tree.current.isPrefixOf place then some (place.drop tree.current.length, content)
      else none
    | .directory => none
  below.mergeSort fun a b => namesBefore a.1 b.1

/-- File operations on a tree that is the state of a computation. -/
def access : FileAccess (StateM FileTree) where
  read path := do return (← get).read path
  createDirectories path := do
    let (tree, result) := (← get).createDirectories path
    set tree
    return result
  write path content := do
    match (← get).write path content with
    | .ok tree =>
      set tree
      return .ok ()
    | .error error => return .error error

end FileTree

end ShaderEffect
