import IGate.Toml.Span

/-! Readers: each takes something off the front of a text, or gets stuck somewhere and complains.
Where one is stuck for good, no other is tried in its place. -/

namespace IGate.Toml

/-- How many characters are read, and what is left to read. -/
structure Cursor where
  place : Nat
  rest : List Char

/-- What is wrong at a place: what is not well-formed, what could have stood there, and why what
stands there cannot be. -/
structure Complaint where
  subject : Option String
  wanted : List String
  cause : Option String
  deriving DecidableEq

namespace Complaint

def bare : Complaint := ⟨none, [], none⟩

def because (cause : String) : Complaint := ⟨none, [], some cause⟩

def outOfRange : Complaint := because "value is out of range"

def tooDeep : Complaint := because "recursion limit exceeded"

def about (c : Complaint) (subject : String) : Complaint :=
  { c with subject := c.subject.or (some subject) }

def wanting (c : Complaint) (what : String) : Complaint := { c with wanted := c.wanted ++ [what] }

def message (c : Complaint) : String :=
  String.intercalate "\n" ((c.subject.map ("invalid " ++ ·)).toList ++
    (if c.wanted.isEmpty then [] else ["expected " ++ String.intercalate ", " c.wanted]) ++
    c.cause.toList)

end Complaint

inductive Outcome (α : Type) where
  | read (a : α) (c : Cursor)
  | stuck (final : Bool) (complaint : Complaint) (c : Cursor)

def Reader (α : Type) := Cursor → Outcome α

namespace Reader

variable {α β : Type}

instance : Monad Reader where
  pure a c := .read a c
  bind r f c :=
    match r c with
    | .read a c => f a c
    | .stuck final complaint c => .stuck final complaint c

def stuck (complaint : Complaint) : Reader α := fun c => .stuck false complaint c

/-! Characters. What does not fit is left where it is. -/

def satisfy (p : Char → Bool) : Reader Char := fun c =>
  match c.rest with
  | d :: rest => if p d then .read d ⟨c.place + 1, rest⟩ else .stuck false .bare c
  | [] => .stuck false .bare c

def any : Reader Char := satisfy fun _ => true

def char (d : Char) : Reader Unit := discard (satisfy (· == d))

def word (w : List Char) : Reader Unit := fun c =>
  if w.isPrefixOf c.rest then .read () ⟨c.place + w.length, c.rest.drop w.length⟩
  else .stuck false .bare c

def takeUpTo (n : Nat) (p : Char → Bool) : Reader (List Char) := fun c =>
  let ds := (c.rest.take n).takeWhile p
  .read ds ⟨c.place + ds.length, c.rest.drop ds.length⟩

def takeWhile (p : Char → Bool) : Reader (List Char) := fun c =>
  takeUpTo c.rest.length p c

def eof : Reader Unit := fun c =>
  match c.rest with
  | [] => .read () c
  | _ :: _ => .stuck false .bare c

/-! Choices -/

/-- Nothing is read where the reader is stuck. -/
def opt (r : Reader α) : Reader (Option α) := fun c =>
  match r c with
  | .read a c => .read (some a) c
  | .stuck false _ _ => .read none c
  | .stuck true complaint c => .stuck true complaint c

def or (r s : Reader α) : Reader α := fun c =>
  match r c with
  | .stuck false _ _ => s c
  | outcome => outcome

/-- Where this is stuck, it is stuck for good. -/
def firm (r : Reader α) : Reader α := fun c =>
  match r c with
  | .stuck _ complaint c => .stuck true complaint c
  | outcome => outcome

def look (r : Reader α) : Reader α := fun c =>
  match r c with
  | .read a _ => .read a c
  | .stuck final complaint _ => .stuck final complaint c

/-! Complaints -/

def complain (f : Complaint → Complaint) (r : Reader α) : Reader α := fun c =>
  match r c with
  | .stuck final complaint c => .stuck final (f complaint) c
  | outcome => outcome

def about (subject : String) (r : Reader α) : Reader α := r.complain (·.about subject)

def wanting (what : String) (r : Reader α) : Reader α := r.complain (·.wanting what)

/-- What is read has to pass a test. If not, the reader is stuck where it began. -/
def test (final : Bool) (f : α → Except Complaint β) (r : Reader α) : Reader β := fun c =>
  match r c with
  | .read a rest =>
    match f a with
    | .ok b => .read b rest
    | .error complaint => .stuck final complaint c
  | .stuck final complaint c => .stuck final complaint c

def checked (f : α → Except Complaint β) (r : Reader α) : Reader β := r.test false f

def suchThat (p : α → Bool) (r : Reader α) : Reader α :=
  r.checked fun a => if p a then .ok a else .error .bare

def takeSome (p : Char → Bool) : Reader (List Char) := (takeWhile p).suchThat (!·.isEmpty)

def takeExactly (n : Nat) (p : Char → Bool) : Reader (List Char) :=
  (takeUpTo n p).suchThat (·.length == n)

/-! Repetitions. Each step but the last reads at least one character. -/

def manySteps (r : Reader α) : Nat → Reader (List α)
  | 0 => pure []
  | n + 1 => do
    match ← opt r with
    | some a => return a :: (← manySteps r n)
    | none => return []

def many (r : Reader α) : Reader (List α) := fun c => manySteps r (c.rest.length + 1) c

def many1 (r : Reader α) : Reader (List α) := do return (← r) :: (← many r)

/-- One or more with separators between them. A separator with nothing behind it is left. -/
def separated1 (r : Reader α) (separator : Reader Unit) : Reader (List α) := do
  return (← r) :: (← many (do separator; r))

def separated (r : Reader α) (separator : Reader Unit) : Reader (List α) := do
  return (← opt (separated1 r separator)).getD []

def located (r : Reader α) : Reader (Located α) := fun c =>
  match r c with
  | .read a rest => .read ⟨a, some ⟨c.place, rest.place⟩⟩ rest
  | .stuck final complaint c => .stuck final complaint c

end Reader

end IGate.Toml
