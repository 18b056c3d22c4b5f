import BuildMatrix.Text.Utf8

/-!
# File trees

Files and directories as a value, and what a path leads to in them. A path is walked component by
component: an empty component and a single dot stay where they are, a double dot goes up, and every
component needs a directory to be looked up in, so a path through a missing name leads nowhere even
when it comes back up again.
-/

namespace BuildMatrix.Storage

/-- A file or a directory. -/
inductive Node where
  /-- A regular file. -/
  | file (content : Bytes)
  /-- A directory with what is in it, by name. -/
  | directory (entries : List (String × Node))
deriving Inhabited

/-- What a path leads to. -/
inductive Found where
  /-- A regular file. -/
  | file (content : Bytes)
  /-- A directory. -/
  | directory
  /-- Nothing: a component does not exist. -/
  | missing
  /-- Nothing: a component is looked up in a regular file. -/
  | blocked
deriving DecidableEq

/-- What every path leads to, however the files are kept. -/
abbrev Files := String → Found

/-- The kind of a node. -/
def Node.found : Node → Found
  | .file content => .file content
  | .directory _ => .directory

/-- Follow components from a node whose ancestors are `above`, nearest first. The root is its own
parent. -/
def walk (above : List Node) (node : Node) : (components : List String) → Found
  | [] => node.found
  | component :: rest =>
    match node with
    | .file _ => .blocked
    | .directory entries =>
      if component = "" ∨ component = "." then walk above node rest
      else if component = ".." then
        match above with
        | [] => walk [] node rest
        | parent :: higher => walk higher parent rest
      else
        match entries.lookup component with
        | none => .missing
        | some child => walk (node :: above) child rest

/-- The components of a path. -/
def components (path : String) : List String :=
  (List.splitOn '/' path.toList).map String.ofList

/-- A path that starts at the root. -/
def isAbsolute (path : String) : Bool :=
  path.toList.head? = some '/'

/-- A file tree together with the directory that relative paths start from. -/
structure Disk where
  /-- The root directory. -/
  root : Node
  /-- The absolute path of the current directory. -/
  current : String

/-- What a path leads to on a disk; the empty path leads nowhere. -/
def Disk.files (disk : Disk) : Files := fun path =>
  if path = "" then .missing
  else if isAbsolute path then walk [] disk.root (components path)
  else walk [] disk.root (components disk.current ++ components path)

/-- Replace or add an entry of a directory. -/
def setEntry (name : String) (node : Node) : List (String × Node) → List (String × Node)
  | [] => [(name, node)]
  | first :: rest =>
    if first.1 = name then (name, node) :: rest else first :: setEntry name node rest

/-- A tree with a node at the end of a list of names; missing directories on the way are made, and a
file on the way gives way to one. -/
def place (names : List String) (node tree : Node) : Node :=
  match names with
  | [] => node
  | name :: rest =>
    let entries :=
      match tree with
      | .directory entries => entries
      | .file _ => []
    let child := (entries.lookup name).getD (.directory [])
    .directory (setEntry name (place rest node child) entries)

/-- A directory's path with a file name after it. -/
def join (directory name : String) : String :=
  if directory = "" then name
  else if directory.toList.getLast? = some '/' then directory ++ name
  else directory ++ "/" ++ name

end BuildMatrix.Storage
