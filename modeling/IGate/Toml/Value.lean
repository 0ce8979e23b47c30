import IGate.Decimal.Binary64
import IGate.Text.Quoted
import IGate.Toml.Span

/-! The values of a TOML document. The keys of a table keep the order in which they came. -/

namespace IGate.Toml

/-- How a table came to be: written in braces, opened by a header, needed by the header of a table
inside it, or needed by a dotted key. -/
inductive Form where
  | braces
  | header
  | implied
  | dotted
  deriving DecidableEq

abbrev Key := Located String

inductive Value where
  | string (s : String)
  | integer (i : Int)
  | float (negative : Bool) (size : Binary64)
  | nan
  | boolean (b : Bool)
  | datetime
  | array (items : List (Located Value))
  | table (form : Form) (entries : List (Key × Located Value))
  /-- Tables opened by headers in double brackets. -/
  | tables (items : List (Located Value))

abbrev Entries := List (Key × Located Value)

namespace Entries

def find? (es : Entries) (name : String) : Option (Located Value) :=
  (List.find? (·.1.value == name) es).map Prod.snd

def replace (es : Entries) (name : String) (v : Located Value) : Entries :=
  es.map fun e => if e.1.value == name then (e.1, v) else e

def erase (es : Entries) (name : String) : Entries := es.filter (·.1.value != name)

end Entries

namespace Value

/-- What a reader that wanted something else is told it met. -/
def describe : Value → String
  | string s => "string " ++ Text.quote s
  | integer i => "integer `" ++ toString i ++ "`"
  | float negative size =>
    "floating point `" ++ (if negative then "-" else "") ++ size.text ++ "`"
  | nan => "floating point `NaN`"
  | boolean b => "boolean `" ++ toString b ++ "`"
  | datetime | table _ _ => "map"
  | array _ | tables _ => "sequence"

def kind : Value → String
  | string _ => "string"
  | integer _ => "integer"
  | float _ _ | nan => "float"
  | boolean _ => "boolean"
  | datetime => "datetime"
  | array _ | tables _ => "array"
  | table _ _ => "inline table"

end Value

end IGate.Toml
