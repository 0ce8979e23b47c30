/-! Paths: names with slashes between them. Empty names and single dots change nothing. -/

namespace IGate

structure Path where
  absolute : Bool
  names : List String
  deriving DecidableEq

namespace Path

def isAbsolute (s : String) : Bool := s.toList.head? == some '/'

def ofText (s : String) : Path :=
  ⟨isAbsolute s, (s.splitOn "/").filter fun name => name != "" && name != "."⟩

def text (p : Path) : String :=
  (if p.absolute then "/" else "") ++ String.intercalate "/" p.names

/-- The directory that a file lies in. -/
def parent (p : Path) : Path := { p with names := p.names.dropLast }

/-- A path from a directory on. One from the root stands for itself. -/
def join (directory name : String) : String :=
  if isAbsolute name || directory == "" then name
  else if directory.toList.getLast? == some '/' then directory ++ name
  else directory ++ "/" ++ name

end Path

end IGate
