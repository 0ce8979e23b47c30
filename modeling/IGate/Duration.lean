/-! Lengths of time in nanoseconds, and their short text: the largest unit that gives a whole part,
then the fraction without its last zeros. -/

namespace IGate

abbrev Duration := Nat

namespace Duration

def perSecond : Nat := 1000000000
def perMilli : Nat := 1000000
def perMicro : Nat := 1000

def ofMillis (ms : Nat) : Duration := ms * perMilli

def ofSeconds (s : Nat) : Duration := s * perSecond

/-- Seconds and nanoseconds together, if the whole seconds fit in one word. -/
def ofParts? (s nanos : Nat) : Option Duration :=
  let d := ofSeconds s + nanos
  if d / perSecond < UInt64.size then some d else none

def millis (d : Duration) : Nat := d / perMilli

@[simp] theorem millis_ofMillis (ms : Nat) : millis (ofMillis ms) = ms := by
  simp [millis, ofMillis, perMilli]

/-- Whole milliseconds in one word: a longer time counts as the longest. -/
def millisWord (d : Duration) : UInt64 :=
  if millis d < UInt64.size then UInt64.ofNat (millis d) else UInt64.ofNat (UInt64.size - 1)

def decimals : Nat → Nat → List Char
  | 0, _ => []
  | width + 1, n => decimals width (n / 10) ++ [Nat.digitChar (n % 10)]

def inUnit (width : Nat) (unit : String) (d : Duration) : String :=
  let fraction := (decimals width d).reverse.dropWhile (· == '0') |>.reverse
  let point := if fraction.isEmpty then [] else '.' :: fraction
  toString (d / Nat.pow 10 width) ++ String.ofList point ++ unit

def text (d : Duration) : String :=
  if perSecond ≤ d then inUnit 9 "s" d
  else if perMilli ≤ d then inUnit 6 "ms" d
  else if perMicro ≤ d then inUnit 3 "µs" d
  else inUnit 0 "ns" d

end Duration

end IGate
