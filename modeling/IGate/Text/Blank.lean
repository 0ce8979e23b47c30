/-! Blank characters, and texts without the blanks around them. -/

namespace IGate.Text

/-- The white space of Unicode. -/
def isBlank (c : Char) : Bool :=
  (0x9 ≤ c.toNat && c.toNat ≤ 0xd) || c.toNat == 0x20 || c.toNat == 0x85 || c.toNat == 0xa0 ||
  c.toNat == 0x1680 || (0x2000 ≤ c.toNat && c.toNat ≤ 0x200a) || c.toNat == 0x2028 ||
  c.toNat == 0x2029 || c.toNat == 0x202f || c.toNat == 0x205f || c.toNat == 0x3000

/-- Leaves out the longest run of characters in `p` at the end. -/
def dropEnd (p : Char → Bool) (cs : List Char) : List Char :=
  (cs.reverse.dropWhile p).reverse

@[simp] theorem dropEnd_nil (p : Char → Bool) : dropEnd p [] = [] := rfl

def trimEnd (s : String) : String := String.ofList (dropEnd isBlank s.toList)

def trim (s : String) : String := String.ofList (dropEnd isBlank (s.toList.dropWhile isBlank))

@[simp] theorem toList_trimEnd (s : String) : (trimEnd s).toList = dropEnd isBlank s.toList := by
  simp [trimEnd]

@[simp] theorem toList_trim (s : String) :
    (trim s).toList = dropEnd isBlank (s.toList.dropWhile isBlank) := by
  simp [trim]

end IGate.Text
