/-! Addresses of sockets: `1.2.3.4:5`, or `[::1]:5` with eight groups of sixteen bits, of which one
run of zeros may be left out, and perhaps a scope. -/

namespace IGate

inductive SocketAddress where
  | v4 (octets : List Nat) (port : Nat)
  | v6 (groups : List Nat) (scope port : Nat)
  deriving DecidableEq

namespace SocketAddress

abbrev Reader (α : Type) := List Char → Option (α × List Char)

def digitValue (radix : Nat) (c : Char) : Option Nat :=
  let n := c.toNat
  let value :=
    if 0x30 ≤ n ∧ n ≤ 0x39 then some (n - 0x30)
    else if 0x61 ≤ n ∧ n ≤ 0x66 then some (n - 0x57)
    else if 0x41 ≤ n ∧ n ≤ 0x46 then some (n - 0x37)
    else none
  value.filter (· < radix)

def isDigit (radix : Nat) (c : Char) : Bool := (digitValue radix c).isSome

def numberOf (radix : Nat) (ds : List Char) : Nat :=
  ds.foldl (fun n c => n * radix + (digitValue radix c).getD 0) 0

/-- All digits at the front: at least one, at most `most`, a value of at most `limit`. -/
def number (radix : Nat) (most : Option Nat) (zeroFirst : Bool) (limit : Nat) : Reader Nat :=
  fun s =>
    let ds := s.takeWhile (isDigit radix)
    let tooMany := most.any (· < ds.length)
    let badZero := !zeroFirst && ds.head? == some '0' && 1 < ds.length
    if ds.isEmpty || tooMany || badZero || limit < numberOf radix ds then none
    else some (numberOf radix ds, s.dropWhile (isDigit radix))

def char (c : Char) : Reader Unit
  | d :: rest => if d = c then some ((), rest) else none
  | [] => none

def after (c : Char) (first : Bool) {α : Type} (r : Reader α) : Reader α :=
  fun s => if first then r s else (char c s).bind fun x => r x.2

def octet : Reader Nat := number 10 (some 3) false 255

def octets : Nat → Bool → Reader (List Nat)
  | 0, _, s => some ([], s)
  | n + 1, first, s => do
    let (o, s) ← after '.' first octet s
    let (os, s) ← octets n false s
    some (o :: os, s)

def ip4 : Reader (List Nat) := octets 4 true

def groupsOfOctets : List Nat → List Nat
  | a :: b :: rest => (a * 256 + b) :: groupsOfOctets rest
  | _ => []

/-- Up to `n` groups, the last two of which may be written as four octets. Tells whether they
were. -/
def groups : Nat → Bool → List Char → List Nat × Bool × List Char
  | 0, _, s => ([], false, s)
  | n + 1, first, s =>
    match if 0 < n then after ':' first ip4 s else none with
    | some (os, s) => (groupsOfOctets os, true, s)
    | none =>
      match after ':' first (number 16 (some 4) true 0xffff) s with
      | some (g, s) =>
        let (gs, mixed, s) := groups n false s
        (g :: gs, mixed, s)
      | none => ([], false, s)

/-- Eight groups, or fewer around a `::` that stands for at least one. -/
def ip6 : Reader (List Nat) := fun s => do
  let (head, mixed, s) := groups 8 true s
  if head.length = 8 then some (head, s)
  else if mixed then none
  else
    let (_, s) ← char ':' s
    let (_, s) ← char ':' s
    let (tail, _, s) := groups (7 - head.length) true s
    some (head ++ List.replicate (8 - head.length - tail.length) 0 ++ tail, s)

def portNumber : Reader Nat := fun s => do
  let (_, s) ← char ':' s
  number 10 none true 0xffff s

def scopeNumber : Reader Nat := fun s => do
  let (_, s) ← char '%' s
  number 10 none true 0xffffffff s

def readV4 : Reader SocketAddress := fun s => do
  let (os, s) ← ip4 s
  let (p, s) ← portNumber s
  some (v4 os p, s)

def readV6 : Reader SocketAddress := fun s => do
  let (_, s) ← char '[' s
  let (gs, s) ← ip6 s
  let (scope, s) := (scopeNumber s).getD (0, s)
  let (_, s) ← char ']' s
  let (p, s) ← portNumber s
  some (v6 gs scope p, s)

def parse? (s : String) : Option SocketAddress :=
  match (readV4 s.toList).or (readV6 s.toList) with
  | some (a, []) => some a
  | _ => none

/-! Printing -/

def hex (n : Nat) : String := String.ofList (Nat.toDigits 16 n)

def colons (gs : List Nat) : String := String.intercalate ":" (gs.map hex)

/-- The longest run of zeros, the first of several: where it starts and how long it is. -/
def zeroRun (gs : List Nat) : Nat × Nat :=
  let lengthAt (i : Nat) := ((gs.drop i).takeWhile (· == 0)).length
  (List.range gs.length).foldl
    (fun best i => if best.2 < lengthAt i then (i, lengthAt i) else best) (0, 0)

def octetText (os : List Nat) : String := String.intercalate "." (os.map toString)

def groupText : List Nat → String
  | [0, 0, 0, 0, 0, 0xffff, a, b] =>
    "::ffff:" ++ octetText [a / 256, a % 256, b / 256, b % 256]
  | gs =>
    let (start, length) := zeroRun gs
    if length ≤ 1 then colons gs
    else colons (gs.take start) ++ "::" ++ colons (gs.drop (start + length))

def host : SocketAddress → String
  | v4 os _ => octetText os
  | v6 gs _ _ => groupText gs

def text : SocketAddress → String
  | v4 os port => octetText os ++ ":" ++ toString port
  | v6 gs scope port =>
    let scopeText := if scope = 0 then "" else "%" ++ toString scope
    "[" ++ groupText gs ++ scopeText ++ "]:" ++ toString port

end SocketAddress

end IGate
