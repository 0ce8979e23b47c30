import IGate.LineStream

/-! A stream that follows a script: what it brings is fed to it, and its writing side takes as much
as it is told to. -/

namespace IGate

/-- An outlet with a limit for each write, a failure of every write after some bytes more, and a
failure of every flush. It counts its flushes and shutdowns. -/
structure Throttle where
  limit : Option Nat
  fault : Option (Nat × IoError)
  flushFault : Option IoError
  flushes : Nat
  shutdowns : Nat
  deriving DecidableEq

namespace Throttle

def unhindered : Throttle := ⟨none, none, none, 0, 0⟩

def underLimit (t : Throttle) (length : Nat) : Nat :=
  match t.limit with
  | none => length
  | some n => min n length

def take (t : Throttle) (data : Bytes) : Except IoError Nat × Throttle :=
  match t.fault with
  | none => (.ok (t.underLimit data.length), t)
  | some (0, e) => (.error e, t)
  | some (after, e) =>
    let n := min after (t.underLimit data.length)
    (.ok n, { t with fault := some (after - n, e) })

def flush (t : Throttle) : Except IoError Unit × Throttle :=
  match t.flushFault with
  | some e => (.error e, t)
  | none => (.ok (), { t with flushes := t.flushes + 1 })

def outlet : Outlet Throttle := ⟨take, flush, fun t => { t with shutdowns := t.shutdowns + 1 }⟩

end Throttle

namespace LineStream

/-- One step of a script: the stream's own moves, then the calls on it. -/
inductive Action where
  | feed (bytes : Bytes)
  | finish
  | failRead (e : IoError)
  | limitWrites (limit : Option Nat)
  | failWrites (after : Nat) (e : IoError)
  | failFlushes (e : IoError)
  | readLine (timeout : Duration)
  | writeLine (text : String)
  | writeFrame (data : Bytes)
  | close

inductive Answer where
  | nothing
  | read (r : Reading)
  | wrote (r : Except IoError Unit)

structure Scripted where
  stream : LineStream Throttle
  now : Duration
  wire : Bytes

namespace Scripted

def initial : Scripted := ⟨⟨Inflow.empty, Throttle.unhindered⟩, 0, []⟩

def arrive (s : Scripted) (a : Arrival) : Scripted :=
  { s with stream := { s.stream with inflow := s.stream.inflow.feed s.now a } }

def throttle (s : Scripted) (f : Throttle → Throttle) : Scripted :=
  { s with stream := { s.stream with outlet := f s.stream.outlet } }

def act (s : Scripted) (a : Action) : Answer × Scripted :=
  let s := { s with wire := [] }
  match a with
  | .feed bytes => (.nothing, s.arrive (.chunk bytes))
  | .finish => (.nothing, s.arrive .finished)
  | .failRead e => (.nothing, s.arrive (.failed e))
  | .limitWrites limit => (.nothing, s.throttle ({ · with limit }))
  | .failWrites after e => (.nothing, s.throttle ({ · with fault := some (after, e) }))
  | .failFlushes e => (.nothing, s.throttle ({ · with flushFault := some e }))
  | .readLine timeout =>
    let (r, stream, now) := s.stream.readLine s.now timeout
    (.read r, { s with stream, now })
  | .writeLine text =>
    let (r, wire, stream) := s.stream.writeLine Throttle.outlet text
    (.wrote r, { s with stream, wire })
  | .writeFrame data =>
    let (r, wire, stream) := s.stream.writeFrame Throttle.outlet data
    (.wrote r, { s with stream, wire })
  | .close => (.nothing, { s with stream := s.stream.close Throttle.outlet })

def run (s : Scripted) : List Action → List (Answer × Scripted)
  | [] => []
  | a :: rest => s.act a :: run (s.act a).2 rest

end Scripted

end LineStream

end IGate
