import IGate.Client.Step

/-! What has come for a worker and not been taken yet, and which signal the worker gets next. -/

namespace IGate

/-- `outcome` is of the attempt or the write under way. Bytes come before what ends them. -/
structure Arrivals where
  outcome : Option Signal
  unread : Bytes
  ending : Option Signal
  deriving DecidableEq

namespace Arrivals

def none : Arrivals := ⟨.none, [], .none⟩

def interruption? (c : Client) (deadline : Duration) : Option Signal :=
  if c.shared.permit then some .wake
  else if deadline ≤ c.now then some .timeout
  else .none

/-- A wait for a line ends with a line that is there, then with what can be read, and only then
with an interruption. -/
def line? (a : Arrivals) (c : Client) (buffer : Bytes) (deadline : Duration) :
    Option (Signal × Arrivals) :=
  if LineBuffer.scan buffer ≠ .unfinished then some (.poll, a)
  else if a.unread ≠ [] then
    some (.received (a.unread.take readChunk), { a with unread := a.unread.drop readChunk })
  else (a.ending.or (interruption? c deadline)).map fun s => (s, a)

def outcome? (a : Arrivals) : Option (Signal × Arrivals) :=
  a.outcome.map fun s => (s, { a with outcome := .none })

/-- A write is over when its outcome is there. One of no bytes has none. -/
def write? (a : Arrivals) (rest : Bytes) : Option (Signal × Arrivals) :=
  a.outcome?.or (if rest = [] then some (.flushed, a) else .none)

/-- The next signal for a worker that waits, unless the worker is at rest. What the sink does with
a line is not told here. -/
def next? (a : Arrivals) (c : Client) : Option (Signal × Arrivals) :=
  match c.worker with
  | .none => .none
  | some w =>
    match w.phase with
    | .fresh | .between => some (.turn, a)
    | .idle deadline => (interruption? c deadline).map fun s => (s, a)
    | .connecting deadline => a.outcome?.or ((interruption? c deadline).map fun s => (s, a))
    | .greeting _ buffer deadline => a.line? c buffer deadline
    | .loggingIn _ rest =>
      (a.write? rest).or (if c.shared.permit then some (.wake, a) else .none)
    | .sending rest => a.write? rest
    | .polling deadline => a.line? c (w.link.getD []) deadline
    | .delivering _ => .none

end Arrivals

end IGate
