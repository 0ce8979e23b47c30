import IGate.Toml.Text

/-! Numbers, dates and times. -/

namespace IGate.Toml

open Reader

def isOctDigit (c : Char) : Bool := '0' ≤ c && c ≤ '7'

def isBinDigit (c : Char) : Bool := c == '0' || c == '1'

def isSign (c : Char) : Bool := c == '+' || c == '-'

def sign : Reader Bool := do return (← opt (satisfy isSign)) == some '-'

/-! Whole numbers -/

/-- More digits, before each of which one underscore may stand. -/
def moreDigits (p : Char → Bool) : Reader (List Char) :=
  many ((satisfy p).or (do char '_'; wanting "digit" (firm (satisfy p))))

def digits (p : Char → Bool) : Reader (List Char) := do return (← satisfy p) :: (← moreDigits p)

/-- There is no zero before other digits. -/
def wholeDigits : Reader (List Char) :=
  (do return (← satisfy fun c => c.isDigit && c != '0') :: (← moreDigits Char.isDigit)).or
    (do return [← satisfy Char.isDigit])

def decimal : Reader (Bool × List Char) :=
  about "integer" do return (← sign, ← wholeDigits)

def inRange (i : Int) : Except Complaint Value :=
  if Int64.maxValue.toInt < i then .error (.because "number too large to fit in target type")
  else if i < Int64.minValue.toInt then
    .error (.because "number too small to fit in target type")
  else .ok (.integer i)

def signed (negative : Bool) (n : Nat) : Int := if negative then -n else n

def radixInteger (name : String) (mark : Char) (radix : Nat) (p : Char → Bool) : Reader Value :=
  (about name do word ['0', mark]; firm (digits p)).test true fun ds => inRange (valueOf radix ds)

def integer : Reader Value := do
  match (← look (takeUpTo 2 fun _ => true)) with
  | ['0', 'x'] => radixInteger "hexadecimal integer" 'x' 16 isHexDigit
  | ['0', 'o'] => radixInteger "octal integer" 'o' 8 isOctDigit
  | ['0', 'b'] => radixInteger "binary integer" 'b' 2 isBinDigit
  | _ => decimal.test true fun (negative, ds) => inRange (signed negative (valueOf 10 ds))

/-! Numbers with a fraction or an exponent -/

def exponent : Reader Int := do
  discard (satisfy fun c => c == 'e' || c == 'E')
  let negative ← sign
  return signed negative (valueOf 10 (← firm (digits Char.isDigit)))

def fraction : Reader (List Char) := do char '.'; wanting "digit" (firm (digits Char.isDigit))

/-- A fraction, an exponent or both. What is too large to have a nearest number is refused, unless
it is below zero. -/
def finite : Reader Value :=
  let parts : Reader (Bool × Nat × Int) := do
    let (negative, whole) ← decimal
    let (places, power) ← (do return ([], ← exponent)).or
      (do return (← fraction, (← opt exponent).getD 0))
    return (negative, valueOf 10 (whole ++ places), power - places.length)
  parts.test true fun (negative, n, power) =>
    let size := Binary64.ofDecimal n power
    if size = .infinite ∧ !negative then .error .bare else .ok (.float negative size)

def infinite (negative : Bool) : Reader Value := do
  word "inf".toList
  return .float negative .infinite

def notANumber : Reader Value := do
  word "nan".toList
  return .nan

def float : Reader Value :=
  about "floating-point number"
    (finite.or (do let negative ← sign; (infinite negative).or notANumber))

/-! Dates and times -/

def bounded (n low high : Nat) : Reader Nat :=
  (takeExactly n Char.isDigit).checked fun ds =>
    let v := valueOf 10 ds
    if low ≤ v ∧ v ≤ high then .ok v else .error .outOfRange

def isLeap (year : Nat) : Bool := year % 4 == 0 && (year % 100 != 0 || year % 400 == 0)

def daysIn (year month : Nat) : Nat :=
  if month = 2 then (if isLeap year then 29 else 28)
  else if month ∈ [4, 6, 9, 11] then 30
  else 31

def date : Reader Unit := do
  let year ← bounded 4 0 9999
  char '-'
  let month ← firm (bounded 2 1 12)
  firm (char '-')
  discard (firm (bounded 2 1 (daysIn year month)))

def hour : Reader Unit := discard (bounded 2 0 23)

def minute : Reader Unit := discard (bounded 2 0 59)

def second : Reader Unit := do
  discard (bounded 2 0 60)
  discard (opt (do char '.'; takeSome Char.isDigit))

def time : Reader Unit := do
  hour
  char ':'
  firm (do minute; char ':'; second)

def offset : Reader Unit :=
  about "time offset" ((discard (satisfy fun c => c == 'Z' || c == 'z')).or
    (do discard (satisfy isSign); firm (do hour; char ':'; minute)))

def timeMark : Reader Unit := discard (satisfy fun c => c == 'T' || c == 't' || c == ' ')

/-- A date, a time, or both with a `T` or a blank between them and perhaps an offset. -/
def datetime : Reader Value := do
  (about "date-time" do
    date
    discard (opt (do timeMark; time; opt offset))).or (about "time" time)
  return .datetime

def number : Reader Value := datetime.or (float.or integer)

end IGate.Toml
