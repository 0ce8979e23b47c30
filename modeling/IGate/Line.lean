import IGate.Text.Blank

/-! Lines of text: their ends, and the comments a server writes between them. -/

namespace IGate.Line

def terminator : String := "\r\n"

def isEnding (c : Char) : Bool := c == ' ' || c == '\n' || c == '\r'

/-- The text without the spaces, carriage returns and line feeds at its end. -/
def rtrim (s : String) : String := String.ofList (Text.dropEnd isEnding s.toList)

@[simp] theorem toList_rtrim (s : String) : (rtrim s).toList = Text.dropEnd isEnding s.toList := by
  simp [rtrim]

/-- A line that the server sends on its own behalf. -/
def isComment (s : String) : Bool := s.toList.head? == some '#'

/-- The text with a terminator, unless it ends in a line feed already. -/
def terminate (s : String) : String :=
  if s.toList.getLast? = some '\n' then s else s ++ terminator

end IGate.Line
