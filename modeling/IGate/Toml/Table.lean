import IGate.Toml.Text

/-! Tables that grow while a document is read. A table may be opened once, and a dotted key does
not reach into a table that a header or braces have closed. -/

namespace IGate.Toml

/-- Why a table cannot take a key: there is one already, perhaps in a table that is known by its
path, or a value stands where a table is needed. -/
inductive Conflict where
  | duplicate (name : String) (table : Option (List String))
  | notATable (path : List String) (kind : String)
  deriving DecidableEq

def Conflict.message : Conflict → String
  | duplicate name none => "duplicate key `" ++ name ++ "`"
  | duplicate name (some []) => "duplicate key `" ++ name ++ "` in document root"
  | duplicate name (some path) =>
    "duplicate key `" ++ name ++ "` in table `" ++ String.intercalate "." path ++ "`"
  | notATable path kind =>
    "dotted key `" ++ String.intercalate "." path ++ "` attempted to extend non-table type (" ++
      kind ++ ")"

abbrev Edit (α : Type) := Form → Entries → Except Conflict (α × Form × Entries)

/-! How a name is written as a key -/

def escapedChar (c : Char) : String :=
  match letters.find? (·.2 == c) with
  | some (letter, _) => String.ofList ['\\', letter]
  | none =>
    if isPlain c then c.toString
    else
      let hex := (Nat.toDigits 16 c.toNat).map Char.toUpper
      "\\u" ++ String.ofList (List.replicate (4 - hex.length) '0' ++ hex)

/-- A name without quotes if it can be, and otherwise in quotes that spare it escapes. -/
def written (name : String) : String :=
  let cs := name.toList
  if cs.all isBare && !cs.isEmpty then name
  else if cs.all isUnescaped then "\"" ++ name ++ "\""
  else if cs.all isLiteral then "'" ++ name ++ "'"
  else "\"" ++ String.join (cs.map escapedChar) ++ "\""

/-- Follows a path from a table, opening the tables that are missing, and edits the table at its
end. A key that holds headers in double brackets stands for the last of its tables. The names that
were passed before are given. -/
def follow {α : Type} (dotted : Bool) (edit : Edit α) (passed : List String) : List Key → Edit α
  | [], form, es => edit form es
  | key :: path, form, es =>
    let passed := passed ++ [key.value]
    match es.find? key.value with
    | none => do
      let opened := if dotted then Form.dotted else .implied
      let (a, f, inner) ← follow dotted edit passed path opened []
      return (a, form, es ++ [(key, ⟨.table f inner, none⟩)])
    | some ⟨.table .braces _, _⟩ => throw (.notATable passed "inline table")
    | some ⟨.table f inner, span⟩ =>
      if dotted && f == .header then throw (.duplicate key.value none)
      else do
        let (a, f, inner) ← follow dotted edit passed path f inner
        return (a, form, es.replace key.value ⟨.table f inner, span⟩)
    | some ⟨.tables items, span⟩ => do
      match items.getLast? with
      | some ⟨.table f inner, last⟩ =>
        let (a, f, inner) ← follow dotted edit passed path f inner
        let items := items.dropLast ++ [⟨.table f inner, last⟩]
        return (a, form, es.replace key.value ⟨.tables items, span⟩)
      | _ => throw (.notATable passed "array")
    | some v => throw (.notATable passed v.value.kind)

structure Pair where
  path : List Key
  key : Key
  value : Located Value

/-- Gives a key a value. The path of the table that the pair belongs to is told in a conflict if it
is known. -/
def putPair (table : Option (List String)) (p : Pair) (form : Form) (es : Entries) :
    Except Conflict (Form × Entries) := do
  let put : Edit Unit := fun form es =>
    if !p.path.isEmpty && form != .dotted then throw (.duplicate p.key.value none)
    else if (es.find? p.key.value).isSome then throw (.duplicate p.key.value table)
    else return ((), form, es ++ [(p.key, p.value)])
  return (← follow true put [] p.path form es).2

def ofPairs (pairs : List Pair) : Except Conflict Entries :=
  pairs.foldlM (fun es p => return (← putPair none p .braces es).2) []

/-- What the pairs of a document go into: the root, a table of its own, or one of several. -/
inductive Place where
  | root
  | table (path : List Key) (key : Key)
  | repeated (path : List Key) (key : Key)

def Place.names : Place → List String
  | root => []
  | table path key | repeated path key => (path ++ [key]).map (·.value)

/-- A document so far: what is finished, and the table that is open. The span of a table is that of
its header and goes on to its last value. -/
structure Draft where
  root : Located Entries
  place : Place
  form : Form
  entries : Entries
  span : Option Span

namespace Draft

def empty : Draft := ⟨⟨[], none⟩, .root, .header, [], some ⟨0, 0⟩⟩

def spanOf (tables : List (Located Value)) : Option Span := do
  let first ← (← tables.head?).span
  let last ← (← tables.getLast?).span
  return ⟨first.start, last.stop⟩

def taken (path : List Key) (key : Key) : Conflict :=
  .duplicate (written key.value) (some (path.map (·.value)))

def close (d : Draft) : Except Conflict (Located Entries) := do
  let table : Located Value := ⟨.table d.form d.entries, d.span⟩
  match d.place with
  | .root => return ⟨d.entries, d.span⟩
  | .table path key =>
    let edit : Edit Unit := fun form es =>
      match es.find? key.value with
      | none => return ((), form, es ++ [(key, table)])
      | some _ => throw (taken path key)
    return { d.root with value := (← follow false edit [] path .header d.root.value).2.2 }
  | .repeated path key =>
    let edit : Edit Unit := fun form es =>
      match es.find? key.value with
      | none => return ((), form, es ++ [(key, ⟨.tables [table], d.span⟩)])
      | some ⟨.tables items, _⟩ =>
        let items := items ++ [table]
        return ((), form, es.replace key.value ⟨.tables items, spanOf items⟩)
      | some _ => throw (taken path key)
    return { d.root with value := (← follow false edit [] path .header d.root.value).2.2 }

def put (d : Draft) (p : Pair) : Except Conflict Draft := do
  let (form, entries) ← putPair (some d.place.names) p d.form d.entries
  let span := match d.span, p.value.span with
    | some header, some value => some ⟨header.start, value.stop⟩
    | span, _ => span
  return { d with form, entries, span }

/-- Opens the table of a header. One that was only needed for a table inside it keeps that. -/
def openTable (d : Draft) (path : List Key) (key : Key) (span : Option Span) :
    Except Conflict Draft := do
  let root ← d.close
  let edit : Edit Entries := fun form es =>
    match es.find? key.value with
    | none => return ([], form, es)
    | some ⟨.table .implied inner, _⟩ => return (inner, form, es.erase key.value)
    | some _ => throw (taken path key)
  let (entries, _, value) ← follow false edit [] path .header root.value
  return ⟨{ root with value }, .table path key, .header, entries, span⟩

def openRepeated (d : Draft) (path : List Key) (key : Key) (span : Option Span) :
    Except Conflict Draft := do
  let root ← d.close
  let edit : Edit Unit := fun form es =>
    match es.find? key.value with
    | none => return ((), form, es ++ [(key, ⟨.tables [], none⟩)])
    | some ⟨.tables _, _⟩ => return ((), form, es)
    | some _ => throw (taken path key)
  let (_, _, value) ← follow false edit [] path .header root.value
  return ⟨{ root with value }, .repeated path key, .header, [], span⟩

end Draft

end IGate.Toml
