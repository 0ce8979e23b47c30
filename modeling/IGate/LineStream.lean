import IGate.Duration
import IGate.Line
import IGate.LineBuffer

/-! Lines over a stream of bytes. What the stream brings has a time at which it arrives; a read
waits for it until a deadline. A write goes on until every byte is taken or a write fails. -/

namespace IGate

/-- What a read meets: bytes, the end that is never passed, or one failure. -/
inductive Arrival where
  | chunk (bytes : Bytes)
  | finished
  | failed (e : IoError)
  deriving DecidableEq

inductive Reading where
  | line (text : String)
  | timedOut
  | failed (e : IoError)
  deriving DecidableEq

/-- Where written bytes go: how many of them one write takes, and what a flush does. -/
structure Outlet (σ : Type) where
  take : σ → Bytes → Except IoError Nat × σ
  flush : σ → Except IoError Unit × σ
  shutdown : σ → σ

/-- The receiving side: the buffer, what is still to come with the time it arrives, and the number
of reads that were answered. -/
structure Inflow where
  buffer : Bytes
  coming : List (Duration × Arrival)
  reads : Nat
  deriving DecidableEq

namespace Inflow

def empty : Inflow := ⟨[], [], 0⟩

/-- What is left of a chunk after a read goes before the rest. -/
def putBack (due : Duration) (left : Bytes) (coming : List (Duration × Arrival)) :
    List (Duration × Arrival) :=
  if left = [] then coming else (due, .chunk left) :: coming

/-- Reads until a line is complete, a read fails or the deadline has passed, and tells the time
when that is. Bytes that are there are read also after the deadline. -/
def readUntil (deadline now : Duration) (i : Inflow) : Reading × Inflow × Duration :=
  match h : LineBuffer.scan i.buffer with
  | .line raw rest => (.line (Utf8.decodeLossy raw), { i with buffer := rest }, now)
  | .overlong => (.failed LineBuffer.overlongError, i, now)
  | .unfinished =>
    have := LineBuffer.length_le_of_scan_unfinished h
    match i.coming with
    | [] => (.timedOut, i, max now deadline)
    | (due, arrival) :: rest =>
      if due ≤ max now deadline then
        match arrival with
        | .finished => (.failed .closedByPeer, { i with reads := i.reads + 1 }, max now due)
        | .failed e => (.failed e, { i with coming := rest, reads := i.reads + 1 }, max now due)
        | .chunk [] =>
          (.failed .closedByPeer, { i with coming := rest, reads := i.reads + 1 }, max now due)
        | .chunk (b :: bs) =>
          readUntil deadline (max now due)
            { buffer := i.buffer ++ (b :: bs).take readChunk
              coming := putBack due ((b :: bs).drop readChunk) rest
              reads := i.reads + 1 }
      else (.timedOut, i, max now deadline)
termination_by maxLineLength + 1 - i.buffer.length
decreasing_by simp only [List.length_append, List.length_take, List.length_cons, readChunk]; omega

/-- Waits at most `timeout` from `now`. The deadline is assumed to be one the clock can tell. -/
def readLine (i : Inflow) (now timeout : Duration) : Reading × Inflow × Duration :=
  readUntil (now + timeout) now i

def feed (i : Inflow) (due : Duration) (a : Arrival) : Inflow :=
  { i with coming := i.coming ++ [(due, a)] }

def clear (i : Inflow) : Inflow := { i with buffer := [] }

end Inflow

/-- What a writing call leaves: its result, the bytes that were taken, and the outlet after it. -/
structure Written (σ : Type) where
  result : Except IoError Unit
  wire : Bytes
  outlet : σ

namespace Outlet

variable {σ : Type}

/-- Writes what is left until nothing is, a write fails, or a write takes nothing. -/
def writeAll (o : Outlet σ) (s : σ) (data : Bytes) : Written σ :=
  match data with
  | [] => ⟨.ok (), [], s⟩
  | b :: bs =>
    match o.take s (b :: bs) with
    | (.error e, s') => ⟨.error e, [], s'⟩
    | (.ok 0, s') => ⟨.error (.ofKind .writeZero), [], s'⟩
    | (.ok (n + 1), s') =>
      let rest := o.writeAll s' (bs.drop n)
      ⟨rest.result, b :: bs.take n ++ rest.wire, rest.outlet⟩
termination_by data.length
decreasing_by simp only [List.length_drop, List.length_cons]; omega

def writeFrame (o : Outlet σ) (s : σ) (data : Bytes) : Written σ :=
  let w := o.writeAll s data
  match w.result with
  | .error _ => w
  | .ok () => ⟨(o.flush w.outlet).1, w.wire, (o.flush w.outlet).2⟩

def lineBytes (text : String) : Bytes := Utf8.encode (text ++ Line.terminator)

def writeLine (o : Outlet σ) (s : σ) (text : String) : Written σ := o.writeFrame s (lineBytes text)

end Outlet

structure LineStream (σ : Type) where
  inflow : Inflow
  outlet : σ

namespace LineStream

variable {σ : Type}

def readLine (s : LineStream σ) (now timeout : Duration) : Reading × LineStream σ × Duration :=
  let (reading, inflow, later) := s.inflow.readLine now timeout
  (reading, { s with inflow }, later)

def writeFrame (s : LineStream σ) (o : Outlet σ) (data : Bytes) :
    Except IoError Unit × Bytes × LineStream σ :=
  let w := o.writeFrame s.outlet data
  (w.result, w.wire, { s with outlet := w.outlet })

def writeLine (s : LineStream σ) (o : Outlet σ) (text : String) :
    Except IoError Unit × Bytes × LineStream σ :=
  s.writeFrame o (Outlet.lineBytes text)

/-- Shuts the writing side and drops what was received. -/
def close (s : LineStream σ) (o : Outlet σ) : LineStream σ :=
  ⟨s.inflow.clear, o.shutdown s.outlet⟩

/-- The number of bytes received and not yet returned in a line. -/
def buffered (s : LineStream σ) : Nat := s.inflow.buffer.length

end LineStream

end IGate
