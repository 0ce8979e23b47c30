import IGate.Toml.Span

/-! A report on a document: the line that something is wrong in, with a mark below what is wrong,
and a message. -/

namespace IGate.Toml

structure Report where
  document : String
  span : Option Span
  message : String
  deriving DecidableEq

namespace Report

def blanks (n : Nat) : String := String.ofList (List.replicate n ' ')

def bytes (cs : List Char) : Nat := cs.foldl (fun n c => n + c.utf8Size) 0

/-- What stands before a place in its line. The end of the document belongs to the line of the last
character, even if that ends the line. -/
def before (cs : List Char) (place : Nat) : List Char :=
  let last := min place (cs.length - 1)
  let inLine := ((cs.take last).reverse.takeWhile (· != '\n')).length
  (cs.take place).drop (last - inLine)

def line (cs : List Char) (place : Nat) : Nat :=
  ((cs.take (min place (cs.length - 1))).filter (· == '\n')).length

/-- How far a place is from the start of its line. This is counted in characters, but in bytes
where a character of several bytes stands at the place. -/
def column (cs : List Char) (place : Nat) : Nat :=
  let passed := before cs place
  match cs[place]? with
  | some c => if c.utf8Size = 1 then passed.length else bytes passed
  | none => passed.length

/-- The lines of the excerpt. There is a mark for each byte of the part in question, but at least
one, and no more than the line has bytes. -/
def excerpt (document : String) (span : Span) : List String :=
  let cs := document.toList
  let line := line cs span.start
  let column := column cs span.start
  let content := (document.splitOn "\n").getD line ""
  let number := toString (line + 1)
  let margin := blanks (number.length + 1) ++ "|"
  let part := bytes ((cs.take span.stop).drop span.start)
  let marks := max 1 (min part content.utf8ByteSize)
  ["TOML parse error at line " ++ number ++ ", column " ++ toString (column + 1),
    margin,
    number ++ " | " ++ content,
    margin ++ blanks (column + 1) ++ String.ofList (List.replicate marks '^')]

def text (r : Report) : String :=
  let lines := match r.span with
    | some span => excerpt r.document span
    | none => []
  String.join ((lines ++ [r.message]).map (· ++ "\n"))

end Report

end IGate.Toml
