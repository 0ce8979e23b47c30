/-! UTF-8: texts as bytes, and bytes as texts. A stretch of bytes that cannot begin a character
reads as one U+FFFD, so every list of bytes reads as some text. -/

namespace IGate

abbrev Bytes := List UInt8

namespace Utf8

def encode (s : String) : Bytes := s.toList.flatMap String.utf8EncodeChar

/-- Between two characters, or inside one: the value read so far, the bytes still owed, and the
range of the next of them. -/
inductive State where
  | start
  | within (value owed : Nat) (low high : UInt8)

def replacement : Char := '\ufffd'

def first (b : UInt8) : List Char × State :=
  let n := b.toNat
  if n < 0x80 then ([Char.ofNat n], .start)
  else if n < 0xc2 then ([replacement], .start)
  else if n < 0xe0 then ([], .within (n - 0xc0) 1 0x80 0xbf)
  else if n = 0xe0 then ([], .within 0 2 0xa0 0xbf)
  else if n = 0xed then ([], .within 0xd 2 0x80 0x9f)
  else if n < 0xf0 then ([], .within (n - 0xe0) 2 0x80 0xbf)
  else if n = 0xf0 then ([], .within 0 3 0x90 0xbf)
  else if n < 0xf4 then ([], .within (n - 0xf0) 3 0x80 0xbf)
  else if n = 0xf4 then ([], .within 4 3 0x80 0x8f)
  else ([replacement], .start)

def step : State → UInt8 → List Char × State
  | .start, b => first b
  | .within value owed low high, b =>
    if low ≤ b ∧ b ≤ high then
      let value := value * 64 + b.toNat % 64
      if owed ≤ 1 then ([Char.ofNat value], .start)
      else ([], .within value (owed - 1) 0x80 0xbf)
    else (replacement :: (first b).1, (first b).2)

def read : State → Bytes → List Char
  | .start, [] => []
  | .within .., [] => [replacement]
  | q, b :: rest => (step q b).1 ++ read (step q b).2 rest

def decodeLossy (bytes : Bytes) : String := String.ofList (read .start bytes)

/-- Reads bytes that are the UTF-8 of a text, and no others. -/
def decode? (bytes : Bytes) : Option String :=
  if encode (decodeLossy bytes) = bytes then some (decodeLossy bytes) else none

end Utf8

end IGate
