import IGate.Toml.Literal
import IGate.Toml.Report

/-! Whole documents: lines that open tables and lines that give keys their values. -/

namespace IGate.Toml

open Reader

def header (opening closing : List Char) (name : String) :
    Reader (Located (List Key × Key)) := do
  let h ← located do
    word opening
    let k ← firm key
    wanting name (wanting "`.`" (firm (word closing)))
    return k
  firm lineEnd
  return h

def tableLine (d : Draft) : Reader Draft :=
  about "table header" do
    match ← look (takeExactly 2 fun _ => true) with
    | ['[', '['] =>
      checked (fun h => settle (d.openRepeated h.value.1 h.value.2 h.span))
        (header ['[', '['] [']', ']'] "`]]`")
    | _ =>
      checked (fun h => settle (d.openTable h.value.1 h.value.2 h.span))
        (header ['['] [']'] "`]`")

def pairLine (d : Draft) : Reader Draft :=
  checked (fun p => settle (d.put p)) (pair (value maxDepth) lineEnd)

def lines : Nat → Draft → Reader Draft
  | 0, d => return d
  | n + 1, d => do
    match ← opt (look any) with
    | none => return d
    | some '#' => do firm (do comment; ending); blanks; lines n d
    | some '[' => do let d ← firm (tableLine d); blanks; lines n d
    | some '\n' | some '\r' =>
      match ← opt newline with
      | some _ => do blanks; lines n d
      | none => return d
    | some _ => do let d ← firm (pairLine d); blanks; lines n d

/-- A mark of byte order at the front does not count. -/
def draft : Reader Draft := do
  discard (opt (char '\ufeff'))
  blanks
  let d ← fun c => lines (c.rest.length + 1) .empty c
  eof
  return d

/-- The table of a document, or a report on the character where it is not well-formed. -/
def parse (document : String) : Except Report (Located Entries) :=
  match draft ⟨0, document.toList⟩ with
  | .read d _ => d.close.mapError fun e => ⟨document, none, e.message⟩
  | .stuck _ complaint c =>
    .error ⟨document, some ⟨c.place, c.place + min 1 c.rest.length⟩, complaint.message⟩

end IGate.Toml
