import IGate.Failure
import IGate.Path
import IGate.Text.Utf8

/-! Files and directories: what a path leads to, how files are read, and how files and directories
are made. A tree of them in memory, and what is the same on every machine. -/

namespace IGate

/-- What a machine does for those who use its files. `append` makes sure that a file is there to be
appended to. -/
structure FileSystem (m : Type → Type) where
  read : String → m (Except IoError Bytes)
  append : String → m (Except IoError Unit)
  makeDirectory : String → m (Except IoError Unit)
  isDirectory : String → m Bool

namespace FileSystem

variable {m : Type → Type} [Monad m]

def keep (s : FileSystem m) (path : String) (made : Except IoError Unit) :
    m (Except IoError Unit) := do
  match made with
  | .error (.system .fileExists) =>
    return if ← s.isDirectory path then .ok () else .error (.system .fileExists)
  | _ => return made

/-- Makes a directory, after those that it lies in if they are missing. The names come last name
first. -/
def makeNames (s : FileSystem m) (absolute : Bool) : List String → m (Except IoError Unit)
  | [] => return .ok ()
  | name :: above => do
    let path := (Path.mk absolute (name :: above).reverse).text
    let made ← s.makeDirectory path
    match made with
    | .error (.system .noSuchFile) =>
      match ← s.makeNames absolute above with
      | .error e => return .error e
      | .ok () => s.keep path (← s.makeDirectory path)
    | _ => s.keep path made

def makeDirectories (s : FileSystem m) (p : Path) : m (Except IoError Unit) :=
  s.makeNames p.absolute p.names.reverse

end FileSystem

inductive Node where
  | directory
  | file (content : Bytes)
  deriving DecidableEq

/-- A place is told by the names from the root to it. Paths that are not absolute begin `here`. -/
structure Files where
  nodes : List (List String × Node)
  here : List String

/-- Where a path leads: to something, or to a name that is free in a directory. -/
inductive Spot where
  | taken (place : List String) (node : Node)
  | free (place : List String)

namespace Files

def longestName : Nat := 255

def longestPath : Nat := 4095

def node? (f : Files) (place : List String) : Option Node :=
  if place = [] then some .directory else f.nodes.lookup place

def walk (f : Files) (place : List String) (names : List String) : Except IoError Spot :=
  match names, f.node? place with
  | _, none => .error (.system .noSuchFile)
  | [], some node => .ok (.taken place node)
  | _ :: _, some (.file _) => .error (.system .notADirectory)
  | name :: rest, some .directory =>
    if name = "" ∨ name = "." then f.walk place rest
    else if name = ".." then f.walk place.dropLast rest
    else if longestName < name.utf8ByteSize then .error (.system .nameTooLong)
    else
      let next := place ++ [name]
      if rest = [] ∧ f.node? next = none then .ok (.free next) else f.walk next rest
termination_by names.length

def find (f : Files) (path : String) : Except IoError Spot :=
  if '\x00' ∈ path.toList then .error IoError.zeroByte
  else if path = "" then .error (.system .noSuchFile)
  else if longestPath < path.utf8ByteSize then .error (.system .nameTooLong)
  else f.walk (if Path.isAbsolute path then [] else f.here) (path.splitOn "/")

def read (f : Files) (path : String) : Except IoError Bytes :=
  match f.find path with
  | .error e => .error e
  | .ok (.free _) => .error (.system .noSuchFile)
  | .ok (.taken _ .directory) => .error (.system .isADirectory)
  | .ok (.taken _ (.file content)) => .ok content

def isDirectory (f : Files) (path : String) : Bool :=
  match f.find path with
  | .ok (.taken _ .directory) => true
  | _ => false

def put (f : Files) (place : List String) (node : Node) : Files :=
  { f with nodes := (place, node) :: f.nodes }

def append (f : Files) (path : String) (bytes : Bytes) : Except IoError Unit × Files :=
  match f.find path with
  | .error e => (.error e, f)
  | .ok (.taken _ .directory) => (.error (.system .isADirectory), f)
  | .ok (.taken place (.file content)) => (.ok (), f.put place (.file (content ++ bytes)))
  | .ok (.free place) => (.ok (), f.put place (.file bytes))

def makeDirectory (f : Files) (path : String) : Except IoError Unit × Files :=
  match f.find path with
  | .error e => (.error e, f)
  | .ok (.taken _ _) => (.error (.system .fileExists), f)
  | .ok (.free place) => (.ok (), f.put place .directory)

def system : FileSystem (StateM Files) where
  read path := do return (← get).read path
  append path := modifyGet (·.append path [])
  makeDirectory path := modifyGet (·.makeDirectory path)
  isDirectory path := do return (← get).isDirectory path

def names (f : Files) (path : String) : List String :=
  match f.find path with
  | .ok (.taken place .directory) =>
    (f.nodes.filterMap fun n =>
      if n.1 ≠ [] ∧ n.1.dropLast = place then n.1.getLast? else none).eraseDups
  | _ => []

def contents (f : Files) (path : String) : List (String × Bytes) :=
  ((f.names path).mergeSort fun a b => decide (a ≤ b)).map fun name =>
    (name, ((f.read (Path.join path name)).toOption).getD [])

/-- A tree in a directory of its own, with a name that no path can have, on a machine with the
usual directories. -/
def ofEntries (entries : List (List String × Node)) : Files :=
  let usual := ["bin", "boot", "dev", "etc", "home", "lib", "mnt", "opt", "proc", "root", "run",
    "sbin", "srv", "sys", "tmp", "usr", "var"]
  let here := ["tmp", "/"]
  let above := entries.flatMap fun e =>
    (List.range e.1.length).map fun n => (here ++ e.1.take n, Node.directory)
  ⟨entries.map (fun e => (here ++ e.1, e.2)) ++ above ++ [(here, .directory)] ++
    (["dev", "null"], .file []) :: usual.map fun name => ([name], .directory), here⟩

end Files

end IGate
