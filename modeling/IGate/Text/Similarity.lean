import IGate.Decimal.Binary64

/-! Whether a word looks like another that was misspelt. Letters match if they are equal and stand
at nearly the same place, each with one letter at most, and the first that fits is taken. -/

namespace IGate.Text

/-- How far apart two places may be. -/
def reach (a b : List Char) : Nat := max a.length b.length / 2 - 1

def place? (reach i : Nat) (taken : List Nat) (c : Char) (b : List Char) : Option Nat :=
  (b.zipIdx.find? fun x =>
    x.1 == c && i ≤ x.2 + reach && x.2 ≤ i + reach && !taken.contains x.2).map Prod.snd

/-- The letters of a word that match, with the places in `b` that they match. -/
def matched (reach : Nat) (b : List Char) : Nat → List Nat → List Char → List (Char × Nat)
  | _, _, [] => []
  | i, taken, c :: a =>
    match place? reach i taken c b with
    | some j => (c, j) :: matched reach b (i + 1) (j :: taken) a
    | none => matched reach b (i + 1) taken a

def matchings (a b : List Char) : List Char × List Char :=
  let found := matched (reach a b) b 0 [] a
  (found.map Prod.fst,
    (b.zipIdx.filter fun x => (found.map Prod.snd).contains x.2).map Prod.fst)

/-- Two letters that match out of order count as one exchange. -/
def exchanges (m : List Char × List Char) : Nat :=
  ((m.1.zip m.2).filter fun x => x.1 != x.2).length / 2

/-- The mean of three shares: of the letters of each word that match, and of the matching letters
that need no exchange. Each step is rounded. -/
def similarity (a b : String) : Binary64 :=
  let m := matchings a.toList b.toList
  let n := m.1.length
  if n = 0 then .ofNat 0
  else
    let share (k of : Nat) : Binary64 := (Binary64.ofNat k).div (.ofNat of)
    (((share n a.length).add (share n b.length)).add (share (n - exchanges m) n)).div (.ofNat 3)

def leastSimilarity : Binary64 := .ofDecimal 7 (-1)

/-- The most similar of some words, the last of several, if it is similar enough. -/
def nearest? (word : String) (among : List String) : Option String :=
  let better (best : Option String) (w : String) : Option String :=
    let s := similarity word w
    match best with
    | none => if leastSimilarity.lt s then some w else none
    | some v => if s.lt (similarity word v) then best else some w
  among.foldl better none

end IGate.Text
