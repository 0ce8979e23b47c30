import IGate.Text.Utf8

/-! Bytes in rows of sixteen: the offset, the bytes in hexadecimal, and the characters they are. -/

namespace IGate.HexDump

def rowLength : Nat := 16

/-- Hexadecimal digits in upper case, at least `width` of them. -/
def digits (width n : Nat) : List Char :=
  let ds := (Nat.toDigits 16 n).map Char.toUpper
  List.replicate (width - ds.length) '0' ++ ds

def cell (b : UInt8) : List Char := digits 2 b.toNat ++ [' ']

def blankCell : List Char := [' ', ' ', ' ']

/-- The character a byte stands for, or a dot where it shows none. -/
def glyph (b : UInt8) : Char :=
  if 0x20 ≤ b.toNat ∧ b.toNat ≤ 0x7e then Char.ofNat b.toNat else '.'

def row (offset : Nat) (bytes : Bytes) : List Char :=
  digits 4 offset ++ [':', ' ', ' '] ++ bytes.flatMap cell ++
    (List.replicate (rowLength - bytes.length) blankCell).flatten ++
    [' ', ' ', ' ', '*'] ++ bytes.map glyph ++ ['*']

def rowsFrom (offset : Nat) : Bytes → List String
  | [] => []
  | b :: bs =>
    String.ofList (row offset ((b :: bs).take rowLength)) ::
      rowsFrom (offset + rowLength) ((b :: bs).drop rowLength)
termination_by data => data.length
decreasing_by simp only [List.length_drop, List.length_cons, rowLength]; omega

def rows (data : Bytes) : List String := rowsFrom 0 data

end IGate.HexDump
