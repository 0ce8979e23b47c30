import IGate.Line
import IGate.Text.Quoted
import IGate.Text.Uppercase

/-! Who logs in, and the line that says so:
`user CALLSIGN pass PASSCODE vers CLIENT VERSION`, then ` filter FILTER` if there is one. -/

namespace IGate

/-- The callsign is cut or padded to this many characters before its last blanks go. -/
def callsignLength : Nat := 8

inductive CredentialsError where
  | emptyCallsign
  | emptyPasscode
  deriving DecidableEq

def CredentialsError.message : CredentialsError → String
  | .emptyCallsign => "callsign must not be empty"
  | .emptyPasscode => "passcode must not be empty"

/-- A callsign in upper case, and the passcode as it was given. -/
structure Credentials where
  callsign : String
  passcode : String
  deriving DecidableEq

namespace Credentials

def padded (raw : String) : List Char :=
  (raw.toList ++ List.replicate callsignLength ' ').take callsignLength

def normalCallsign (raw : String) : String :=
  Text.upper (Text.trimEnd (String.ofList (padded raw)))

def new (callsign passcode : String) : Except CredentialsError Credentials :=
  if normalCallsign callsign = "" then .error .emptyCallsign
  else if passcode = "" then .error .emptyPasscode
  else .ok ⟨normalCallsign callsign, passcode⟩

/-- For a log: the passcode is left out. -/
def redacted (c : Credentials) : String :=
  "Credentials \x7b callsign: " ++ Text.quote c.callsign ++ ", passcode: \"<redacted>\" \x7d"

end Credentials

structure Login where
  credentials : Credentials
  clientName : String
  version : String
  filter : Option String
  deriving DecidableEq

namespace Login

/-- A blank filter is none. -/
def filterPart (filter : Option String) : String :=
  match filter with
  | none => ""
  | some f => if Text.trim f = "" then "" else " filter " ++ Text.trim f

def line (l : Login) : String :=
  "user " ++ l.credentials.callsign ++ " pass " ++ l.credentials.passcode ++ " vers " ++
    l.clientName ++ " " ++ l.version ++ filterPart l.filter

end Login

end IGate
