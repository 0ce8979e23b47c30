/-! Numbers with 53 binary digits: the one nearest to a decimal, and the fewest decimal digits that
are nearest to it and to no other. All arithmetic is exact. -/

namespace IGate

/-- A number that is not below zero: `mantissa * 2 ^ exponent`, or beyond all of these. -/
inductive Binary64 where
  | finite (mantissa : Nat) (exponent : Int)
  | infinite
  deriving DecidableEq

namespace Binary64

def precision : Nat := 53
def minExponent : Int := -1074
def maxExponent : Int := 971

def twoTo (n : Nat) : Nat := Nat.pow 2 n
def tenTo (n : Nat) : Nat := Nat.pow 10 n

/-- Rounds to the nearest, a half to the even neighbour. -/
def roundDiv (num den : Nat) : Nat :=
  let q := num / den
  let twice := 2 * (num % den)
  if twice < den then q else if den < twice then q + 1 else q + q % 2

def digitCount (n : Nat) : Nat := (Nat.toDigits 10 n).length

def bitCount (n : Nat) : Nat := if n = 0 then 0 else n.log2 + 1

/-- `m * 2 ^ e` with all of its digits in the mantissa. -/
def carry (m : Nat) (e : Int) : Binary64 :=
  let (m, e) := if m = twoTo precision then (m / 2, e + 1) else (m, e)
  if maxExponent < e then infinite else finite m e

/-- The nearest to `num / den`. The exponent is the least for which the mantissa fits. -/
def ofFraction (num den : Nat) : Binary64 :=
  let guess : Int := (bitCount num : Int) - (bitCount den : Int) - (precision : Int)
  let scaled (e : Int) : Nat × Nat :=
    if e < 0 then (num * twoTo (-e).toNat, den) else (num, den * twoTo e.toNat)
  let fits (e : Int) : Bool := (scaled e).1 / (scaled e).2 < twoTo precision
  let e := max minExponent (if fits guess then guess else guess + 1)
  carry (roundDiv (scaled e).1 (scaled e).2) e

/-- The nearest to `m * 10 ^ e`. What is far out of range is decided without the power. -/
def ofDecimal (m : Nat) (e : Int) : Binary64 :=
  let size := (digitCount m : Int) + e
  if m = 0 ∨ size < -400 then finite 0 minExponent
  else if 400 < size then infinite
  else if e < 0 then ofFraction m (tenTo (-e).toNat)
  else ofFraction (m * tenTo e.toNat) 1

/-! Arithmetic, rounded to the nearest -/

def ofNat (n : Nat) : Binary64 := ofFraction n 1

def fraction : Binary64 → Nat × Nat
  | finite m e => if e < 0 then (m, twoTo (-e).toNat) else (m * twoTo e.toNat, 1)
  | infinite => (1, 0)

def add (x y : Binary64) : Binary64 :=
  let (a, b) := x.fraction
  let (c, d) := y.fraction
  if b = 0 ∨ d = 0 then infinite else ofFraction (a * d + c * b) (b * d)

def div (x y : Binary64) : Binary64 :=
  let (a, b) := x.fraction
  let (c, d) := y.fraction
  if b = 0 then infinite else ofFraction (a * d) (b * c)

def lt (x y : Binary64) : Bool :=
  let (a, b) := x.fraction
  let (c, d) := y.fraction
  a * d < c * b

/-! The fewest digits -/

/-- The number and the ends of the numbers nearest to it, all times `scale`. -/
structure Interval where
  low : Nat
  value : Nat
  high : Nat
  scale : Nat
  closed : Bool

/-- The gap below a power of two is half as wide as the one above. -/
def interval (m : Nat) (e : Int) : Interval :=
  let unit := if e < 0 then 1 else twoTo e.toNat
  let scale := if e < 0 then 4 * twoTo (-e).toNat else 4
  let below := if m = twoTo (precision - 1) ∧ minExponent < e then 1 else 2
  ⟨(4 * m - below) * unit, 4 * m * unit, (4 * m + 2) * unit, scale, m % 2 = 0⟩

namespace Interval

def holds (i : Interval) (d : Nat) (k : Int) : Bool :=
  let ten := tenTo k.natAbs
  let point := if k < 0 then d * i.scale else d * ten * i.scale
  let low := if k < 0 then i.low * ten else i.low
  let high := if k < 0 then i.high * ten else i.high
  if i.closed then low ≤ point && point ≤ high else low < point && point < high

def floorAt (i : Interval) (k : Int) : Nat :=
  if k < 0 then i.value * tenTo k.natAbs / i.scale else i.value / (i.scale * tenTo k.natAbs)

/-- Twice the value on the grid of `10 ^ k`, against twice the middle of two neighbours. -/
def nearerBelow (i : Interval) (d : Nat) (k : Int) : Bool :=
  let ten := tenTo k.natAbs
  if k < 0 then 2 * i.value * ten < (2 * d + 1) * i.scale
  else 2 * i.value < (2 * d + 1) * i.scale * ten

def hit? (i : Interval) (k : Int) : Option Nat :=
  let d := i.floorAt k
  match i.holds d k, i.holds (d + 1) k with
  | true, true => some (if i.nearerBelow d k then d else d + 1)
  | true, false => some d
  | false, true => some (d + 1)
  | false, false => none

def search (i : Interval) : Nat → Int → Nat × Int
  | 0, k => (i.floorAt k, k)
  | fuel + 1, k =>
    match i.hit? k with
    | some d => (d, k)
    | none => search i fuel (k - 1)

def places : Nat := 330

end Interval

/-- Digits and decimal exponent. -/
def shortest (m : Nat) (e : Int) : Nat × Int :=
  if m = 0 then (0, 0)
  else (interval m e).search (2 * Interval.places) Interval.places

/-- `d * 10 ^ k` without an exponent, with at least one digit after the point. -/
def positional (d : Nat) (k : Int) : String :=
  let ds := Nat.toDigits 10 d
  let n := k.natAbs
  if 0 ≤ k then String.ofList (ds ++ (if d = 0 then [] else List.replicate n '0') ++ ['.', '0'])
  else
    let ds := List.replicate (n + 1 - ds.length) '0' ++ ds
    String.ofList (ds.take (ds.length - n) ++ ['.'] ++ ds.drop (ds.length - n))

def text : Binary64 → String
  | finite m e => let (d, k) := shortest m e; positional d k
  | infinite => "inf"

end Binary64

end IGate
