import IGate.Failure
import IGate.Text.Utf8

/-! Bytes that have arrived and do not yet form a line. A line ends with its first line feed. -/

namespace IGate

def lineFeed : UInt8 := 10

/-- The longest line that is taken, with its line feed. -/
def maxLineLength : Nat := 8192

def readChunk : Nat := 1024

/-- What a buffer holds at its front. -/
inductive Scan where
  | line (raw rest : Bytes)
  | overlong
  | unfinished
  deriving DecidableEq

namespace LineBuffer

def split? (buffer : Bytes) : Option (Bytes × Bytes) :=
  match buffer.dropWhile (· != lineFeed) with
  | [] => none
  | feed :: rest => some (buffer.takeWhile (· != lineFeed) ++ [feed], rest)

@[simp] theorem split?_nil : split? [] = none := rfl

def scan (buffer : Bytes) : Scan :=
  match split? buffer with
  | some (raw, rest) => .line raw rest
  | none => if maxLineLength < buffer.length then .overlong else .unfinished

@[simp] theorem scan_nil : scan [] = .unfinished := rfl

theorem length_le_of_scan_unfinished {buffer : Bytes} (h : scan buffer = .unfinished) :
    buffer.length ≤ maxLineLength := by
  unfold scan at h
  split at h
  · cases h
  · split at h
    · cases h
    · omega

def overlongError : IoError :=
  .described .invalidData ("line exceeds " ++ toString maxLineLength ++ " bytes")

end LineBuffer

end IGate
