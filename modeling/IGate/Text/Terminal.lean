import IGate.Text.Utf8

/-! Texts without what a terminal takes for a command: the sequences that an escape begins, and
controls other than white space. -/

namespace IGate.Terminal

/-- Where a terminal stands: in text, or in a sequence. An escape may have a tail; a control
sequence ends with a letter; a device sequence has parameters, a tail and data; a title ends with a
bell. -/
inductive Mode where
  | ground | escape | escapeTail | control | device | deviceParameter | deviceTail | data | title
  deriving DecidableEq

def isTail (b : UInt8) : Bool := 0x20 ≤ b && b ≤ 0x2f

def isParameter (b : UInt8) : Bool := 0x30 ≤ b && b ≤ 0x3f

def isFinal (b : UInt8) : Bool := 0x40 ≤ b && b ≤ 0x7e

def afterEscape (b : UInt8) : Mode :=
  if isTail b then .escapeTail
  else if b = 0x5b then .control
  else if b = 0x50 then .device
  else if b = 0x5d then .title
  else if b = 0x58 ∨ b = 0x5e ∨ b = 0x5f then .data
  else if isParameter b || isFinal b then .ground
  else .escape

/-- An escape begins a new sequence anywhere, and two controls give up the one that has begun. -/
def next (m : Mode) (b : UInt8) : Mode :=
  if b = 0x1b then .escape
  else if b = 0x18 ∨ b = 0x1a then .ground
  else
    match m with
    | .ground => .ground
    | .escape => afterEscape b
    | .escapeTail => if isParameter b || isFinal b then .ground else .escapeTail
    | .control => if isFinal b then .ground else .control
    | .device =>
      if isTail b then .deviceTail
      else if isParameter b then .deviceParameter
      else if isFinal b then .data
      else .device
    | .deviceParameter =>
      if isTail b then .deviceTail
      else if 0x3c ≤ b ∧ b ≤ 0x7e then .data
      else .deviceParameter
    | .deviceTail => if isParameter b || isFinal b then .data else .deviceTail
    | .data => if b = 0x9c then .ground else .data
    | .title => if b = 0x07 then .ground else .title

def isSpace (b : UInt8) : Bool := b == 0x09 || b == 0x0a || b == 0x0c || b == 0x0d

/-- Whether a byte shows. White space shows inside a short sequence too. -/
def shows (m : Mode) (b : UInt8) : Bool :=
  match m with
  | .ground => (0x20 ≤ b && b < 0x7f) || 0xc2 ≤ b || isSpace b
  | .escape | .escapeTail | .control => isSpace b
  | _ => false

/-- The bytes that show. Once one does, those after it are read as text until one does not, and
then the sequence goes on that was left. A whole character beyond the first 128 ends it. -/
def strip : Bool → Mode → Bytes → Bytes
  | _, _, [] => []
  | true, m, b :: rest =>
    if 0x80 ≤ b then b :: strip true .ground rest
    else if shows .ground b then b :: strip true m rest
    else strip false (next m b) rest
  | false, m, b :: rest =>
    if shows m b then b :: strip true (if 0x80 ≤ b then .ground else next m b) rest
    else strip false (next m b) rest

def plain (s : String) : String := Utf8.decodeLossy (strip false .ground (Utf8.encode s))

end IGate.Terminal
