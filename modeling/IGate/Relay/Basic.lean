import IGate.Failure
import IGate.Text.Utf8

/-! What local software offers, and the counts kept of it. -/

namespace IGate

/-- Why there is no source of frames, or no frame from it. -/
inductive SourceError where
  | bind (address : String) (e : IoError)
  | receive (e : IoError)
  deriving DecidableEq

def SourceError.message : SourceError → String
  | .bind address e => "failed to bind frame source on " ++ address ++ ": " ++ e.message
  | .receive e => "recv error: " ++ e.message

inductive Reception where
  | frame (bytes : Bytes)
  | nothing
  | failed (e : SourceError)
  deriving DecidableEq

/-- Frames received, those of them the uplink took and those it refused, and failures. Each count is
assumed to stay below `2 ^ 64`. -/
structure RelayCounts where
  received : Nat
  forwarded : Nat
  refused : Nat
  sourceErrors : Nat
  deriving DecidableEq

def RelayCounts.zero : RelayCounts := ⟨0, 0, 0, 0⟩

def RelayCounts.text (c : RelayCounts) : String :=
  toString c.received ++ " received, " ++ toString c.forwarded ++ " forwarded, " ++
    toString c.refused ++ " refused, " ++ toString c.sourceErrors ++ " source errors"

end IGate
