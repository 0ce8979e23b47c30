import IGate.Toml.Number
import IGate.Toml.Table

/-! Values as they are written, arrays and tables in braces among them. -/

namespace IGate.Toml

open Reader

/-- Items with commas between them, and perhaps one after the last. -/
def items (item : Reader (Located Value)) : Reader (List (Located Value)) := do
  if (← opt (look (char ']'))).isSome then return []
  let vs ← separated (do gap; let v ← item; gap; return v) (char ',')
  if !vs.isEmpty then discard (opt (char ','))
  gap
  return vs

def array (item : Reader (Located Value)) : Reader Value := do
  char '['
  let vs ← firm (items item)
  wanting "`]`" (about "array" (firm (char ']')))
  return .array vs

def pair (item : Reader (Located Value)) (after : Reader Unit) : Reader Pair := do
  let (path, k) ← key
  firm do
    equals
    blanks
    let v ← item
    after
    return ⟨path, k, v⟩

/-- A conflict is told without a place of its own. -/
def settle {α : Type} (r : Except Conflict α) : Except Complaint α :=
  r.mapError fun e => .because e.message

/-- Pairs with commas between them and none after the last. -/
def pairs (item : Reader (Located Value)) : Reader Entries :=
  checked (fun ps => settle (ofPairs ps)) do
    let ps ← separated (pair item blanks) (char ',')
    blanks
    return ps

def braces (item : Reader (Located Value)) : Reader Value := do
  char '\x7b'
  let es ← firm (pairs item)
  wanting "`\x7d`" (about "inline table" (firm (char '\x7d')))
  return .table .braces es

def unquoted (r : Reader Value) : Reader Value := wanting "`'`" (wanting "`\"`" (about "string" r))

def valueBy (nested : (Reader (Located Value) → Reader Value) → Reader Value) :
    Reader (Located Value) :=
  located do
    match ← look any with
    | '"' | '\'' => return .string (← text)
    | '[' => nested array
    | '\x7b' => nested braces
    | '_' => wanting "leading digit" integer
    | '.' => wanting "leading digit" float
    | 't' => unquoted (do firm (word "true".toList); return .boolean true)
    | 'f' => unquoted (do firm (word "false".toList); return .boolean false)
    | 'i' => unquoted (infinite false)
    | 'n' => unquoted notANumber
    | c => if isSign c || c.isDigit then number else unquoted (stuck .bare)

/-- A value with at most so many brackets around any part of it. -/
def value : Nat → Reader (Located Value)
  | 0 => valueBy fun _ => firm (stuck .tooDeep)
  | depth + 1 => valueBy fun r => r (value depth)

end IGate.Toml
