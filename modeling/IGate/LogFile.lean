import IGate.Config.Basic
import IGate.Files
import IGate.Notice

/-! What is written to a log, and the file that it is written to. -/

namespace IGate.LogFile

def extension : String := "log"

/-- The root without blanks around it, the date if there is a file for each day, and the
extension, with dots between them. An empty root is left out. -/
def name (root : String) (rotate : Bool) (date : String) : String :=
  let parts := [Text.trim root, if rotate then date else ""].filter (· != "")
  String.intercalate "." (parts ++ [extension])

def path? (c : LogConfig) (date : String) : Option String :=
  c.directory.map fun directory => Path.join directory (name c.fileRoot c.rotate date)

inductive Error where
  | directory (cause : IoError)
  | file (cause : IoError)
  deriving DecidableEq

namespace Error

def cause : Error → IoError
  | directory cause => cause
  | file cause => cause

def message : Error → String
  | directory cause => "failed to create log directory: " ++ cause.message
  | file cause => "failed to create log file: " ++ cause.message

end Error

/-- Sees to it that there is a file to append to. Directories are made only when it cannot be
opened without. -/
def create {m : Type → Type} [Monad m] (s : FileSystem m) (path : String) :
    m (Except Error Unit) := do
  match ← s.append path with
  | .ok () => return .ok ()
  | .error _ =>
    match ← s.makeDirectories (Path.ofText path).parent with
    | .error e => return .error (.directory e)
    | .ok () => return (← s.append path).mapError .file

/-- How much a level lets through, from nothing to all. A level that is not known means `info`. -/
def depth (level : String) : Nat :=
  match level.toLower with
  | "off" => 0
  | "error" => 1
  | "warn" => 2
  | "debug" => 4
  | "trace" => 5
  | _ => 3

def admits (level : String) (n : Notice) : Bool := depth n.level.name ≤ depth level

end IGate.LogFile
