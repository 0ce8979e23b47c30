import IGate.Toml.Reader
import IGate.Toml.Value

/-! Blanks, comments, texts and keys. -/

namespace IGate.Toml

open Reader

/-! Between items -/

def isBlank (c : Char) : Bool := c == ' ' || c == '\t'

/-- A character that may stand in a comment: no control but the tab. -/
def isPlain (c : Char) : Bool := c == '\t' || (' ' ≤ c && c != '\x7f')

def blanks : Reader Unit := discard (takeWhile isBlank)

def newline : Reader Unit := (char '\n').or (do char '\r'; char '\n')

def comment : Reader Unit := do char '#'; discard (takeWhile isPlain)

def ending : Reader Unit := newline.or eof

def lineEnd : Reader Unit :=
  wanting "`#`" (wanting "newline" (do blanks; discard (opt comment); ending))

def gapSteps : Nat → Reader Unit
  | 0 => return ()
  | n + 1 => do
    blanks
    match ← opt (look any) with
    | some '#' => do comment; newline; gapSteps n
    | some '\n' | some '\r' => do newline; gapSteps n
    | _ => return ()

/-- Blanks, comments and ends of lines, as they may stand inside an array. -/
def gap : Reader Unit := fun c => gapSteps (c.rest.length + 1) c

/-! Digits -/

def digitValue (c : Char) : Nat :=
  if c.isDigit then c.toNat - 0x30
  else if 'a' ≤ c ∧ c ≤ 'f' then c.toNat - 0x57
  else c.toNat - 0x37

def isHexDigit (c : Char) : Bool :=
  c.isDigit || ('a' ≤ c && c ≤ 'f') || ('A' ≤ c && c ≤ 'F')

def valueOf (radix : Nat) (ds : List Char) : Nat :=
  ds.foldl (fun n c => n * radix + digitValue c) 0

/-! Escapes -/

def letters : List (Char × Char) :=
  [('b', '\x08'), ('f', '\x0c'), ('n', '\n'), ('r', '\r'), ('t', '\t'), ('\\', '\\'), ('"', '"')]

def code (n : Nat) : Reader Char :=
  (takeExactly n isHexDigit).checked fun ds =>
    let code := valueOf 16 ds
    if code.isValidChar then .ok (Char.ofNat code) else .error .outOfRange

def isAscii (c : Char) : Bool := c.toNat < 0x80

def escapes : List String :=
  ["`b`", "`f`", "`n`", "`r`", "`t`", "`u`", "`U`", "`\\`", "`\"`"]

def escape : Reader Char := do
  let d ← look any
  match letters.lookup d, d with
  | some e, _ => do discard any; return e
  | none, 'u' => do discard any; about "unicode 4-digit hex code" (firm (code 4))
  | none, 'U' => do discard any; about "unicode 8-digit hex code" (firm (code 8))
  | none, _ => do
    discard (opt (satisfy isAscii))
    firm (stuck ⟨some "escape sequence", escapes, none⟩)

/-! Texts of one line -/

def isUnescaped (c : Char) : Bool := isPlain c && c != '"' && c != '\\'

def isLiteral (c : Char) : Bool := isPlain c && c != '\''

def unescaped : Reader (List Char) := takeSome isUnescaped

def escaped : Reader (List Char) := do char '\\'; return [← escape]

def basicText : Reader String := do
  char '"'
  let parts ← many (unescaped.or escaped)
  about "basic string" (firm (char '"'))
  return String.ofList parts.flatten

def literalText : Reader String :=
  about "literal string" do
    char '\''
    let cs ← takeWhile isLiteral
    firm (char '\'')
    return String.ofList cs

/-! Texts of several lines. Each end of a line is one line feed. -/

def lineFeed : Reader (List Char) := do newline; return ['\n']

/-- A backslash at the end of a line takes the blanks and line ends after it away. -/
def fold : Reader (List Char) := do
  discard (many1 (do char '\\'; blanks; newline; many ((newline).or (discard (takeSome isBlank)))))
  return []

def basicContent : Reader (List Char) := unescaped.or (fold.or (escaped.or lineFeed))

def literalContent : Reader (List Char) := (takeSome isLiteral).or lineFeed

/-- One or two quotes before something that they do not end. -/
def quotes (q : Char) (next : Reader Unit) : Reader (List Char) :=
  (do word [q, q]; look next; return [q, q]).or (do char q; look next; return [q])

def body (q : Char) (content : Reader (List Char)) : Reader (List Char) := do
  let first ← many content
  let more ← many do
    return (← quotes q (discard content)) ++ (← many1 content).flatten
  let last ← opt (quotes q (word [q, q, q]))
  return first.flatten ++ more.flatten ++ last.getD []

/-- A line end right after the opening quotes does not count. -/
def longText (name : String) (q : Char) (content : Reader (List Char)) : Reader String :=
  about name do
    word [q, q, q]
    discard (opt newline)
    let cs ← firm (body q content)
    firm (word [q, q, q])
    return String.ofList cs

def text : Reader String :=
  (longText "multiline basic string" '"' basicContent).or (basicText.or
    ((longText "multiline literal string" '\'' literalContent).or literalText))

/-! Keys -/

def isBare (c : Char) : Bool := c.isAlphanum || c == '_' || c == '-'

def simpleKey : Reader String := do
  match ← look any with
  | '"' => basicText
  | '\'' => literalText
  | _ => return String.ofList (← takeSome isBare)

/-- No key has more parts, and no value lies in more brackets. -/
def maxDepth : Nat := 79

def key : Reader (List Key × Key) :=
  let part : Reader Key := do blanks; let k ← located simpleKey; blanks; return k
  let parts : Reader (List Key × Key) := do
    let first ← part
    let more ← many (do char '.'; part)
    return ((first :: more).dropLast, (first :: more).getLast (List.cons_ne_nil first more))
  (about "key" parts).checked fun k => if k.1.length < maxDepth then .ok k else .error .tooDeep

def equals : Reader Unit := wanting "`=`" (wanting "`.`" (char '='))

end IGate.Toml
