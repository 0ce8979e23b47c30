import IGate.Failure
import IGate.SocketAddress

/-! The address that a text `host:port` stands for, as far as it can be told without asking anyone:
a number in one of its spellings, or the name that every machine gives itself. -/

namespace IGate.Lookup

def lastColon? (s : List Char) : Option (List Char × List Char) :=
  let port := (s.reverse.takeWhile (· != ':')).reverse
  if port.length = s.length then none else some (s.take (s.length - port.length - 1), port)

/-- A port is a number of one word, perhaps with a plus sign. -/
def port? (s : List Char) : Option Nat :=
  let digits := match s with
    | '+' :: rest => rest
    | s => s
  match SocketAddress.number 10 none true 0xffff digits with
  | some (n, []) => some n
  | _ => none

/-! Numbers as hosts -/

/-- A number: hexadecimal behind `0x`, octal behind `0`, and otherwise decimal. -/
def number : SocketAddress.Reader Nat
  | '0' :: 'x' :: s => SocketAddress.number 16 none true 0xffffffff s
  | '0' :: 'X' :: s => SocketAddress.number 16 none true 0xffffffff s
  | '0' :: s => SocketAddress.number 8 none true 0xffffffff ('0' :: s)
  | s => SocketAddress.number 10 none true 0xffffffff s

def octets? : Nat → Nat → Option (List Nat)
  | 0, v => if v = 0 then some [] else none
  | n + 1, v => (octets? n (v / 256)).map (· ++ [v % 256])

/-- One to four numbers with dots between them. Each but the last is one octet, and the last is all
octets that are left. -/
def ip4? : Nat → List Char → Option (List Nat)
  | 0, _ => none
  | n + 1, s =>
    match number s with
    | some (v, []) => octets? (n + 1) v
    | some (v, '.' :: s) => if v ≤ 255 then (ip4? n s).map (v :: ·) else none
    | _ => none

def ip6? (s : List Char) : Option (List Nat × Nat) :=
  match SocketAddress.ip6 s with
  | some (groups, []) => some (groups, 0)
  | some (groups, s) =>
    match SocketAddress.scopeNumber s with
    | some (scope, []) => some (groups, scope)
    | _ => none
  | none => none

/-! Names as hosts -/

def isNameChar (c : Char) : Bool := c.isAlphanum || c == '-' || c == '_'

def longestLabel : Nat := 63

def longestName : Nat := 253

/-- Labels with dots between them, and perhaps one dot behind all. No dash is first. -/
def isName (s : List Char) : Bool :=
  let labels := (String.ofList s).splitOn "."
  let labels := if labels.getLast? == some "" then labels.dropLast else labels
  let isLabel (l : String) := 0 < l.length && l.length ≤ longestLabel && l.all isNameChar
  s == ['.'] || (!labels.isEmpty && labels.all isLabel && s.head? != some '-' &&
    (String.intercalate "." labels).length ≤ longestName)

def itself : List Nat := [127, 0, 0, 1]

def itselfName : String := "localhost"

def failed (reason : String) : IoError :=
  .described .other ("failed to lookup address information: " ++ reason)

def host (s : List Char) (port : Nat) : Except IoError SocketAddress :=
  if '\x00' ∈ s then .error IoError.zeroByte
  else if (String.ofList s).toLower = itselfName then .ok (.v4 itself port)
  else
    match ip4? 4 s, ip6? s with
    | some octets, _ => .ok (.v4 octets port)
    | none, some (groups, scope) => .ok (.v6 groups scope port)
    | none, none =>
      .error (failed
        (if isName s then "Temporary failure in name resolution"
          else "Name or service not known"))

def resolve (address : String) : Except IoError SocketAddress :=
  match SocketAddress.parse? address with
  | some a => .ok a
  | none =>
    match lastColon? address.toList with
    | none => .error (.described .invalidInput "invalid socket address")
    | some (name, digits) =>
      match port? digits with
      | none => .error (.described .invalidInput "invalid port value")
      | some port => host name port

/-! What can be bound -/

/-- What an address with a link of its own is told by. -/
def needsScope (groups : List Nat) : Bool :=
  let first := groups.headD 0
  (0xfe80 ≤ first && first < 0xfec0) || (0xff00 ≤ first && (first % 16 == 1 || first % 16 == 2))

/-- On a machine without links, all short addresses pass for its own, and of the long ones those
that are short ones in disguise, those of groups of machines, and the one that stands for all. -/
def bindable : SocketAddress → Except IoError Unit
  | .v4 _ _ => .ok ()
  | .v6 groups scope _ =>
    if needsScope groups && scope == 0 then .error (.system .invalidArgument)
    else if groups.all (· == 0) || groups.take 6 == [0, 0, 0, 0, 0, 0xffff] ||
        0xff00 ≤ groups.headD 0 then .ok ()
    else .error (.system .addressNotAvailable)

end IGate.Lookup
