import IGate.Text.Utf8

/-! The queue of frames on their way out. Its room is counted in bytes: a frame takes its length
and four bytes more, and enters whole or not at all. -/

namespace IGate

def maxFrameLength : Nat := 300

def lengthPrefix : Nat := 4

def defaultCapacity : UInt64 := 2000

inductive Refusal where
  | emptyFrame
  | frameTooLarge (length : Nat)
  | full (needed free : UInt64)
  deriving DecidableEq

def Refusal.message : Refusal → String
  | .emptyFrame => "empty frame"
  | .frameTooLarge length =>
    "frame of " ++ toString length ++ " bytes exceeds the " ++ toString maxFrameLength ++
      "-byte maximum"
  | .full needed free =>
    "queue full: need " ++ toString needed.toNat ++ " bytes, " ++ toString free.toNat ++ " free"

/-- Oldest frame first. -/
structure Queue where
  capacity : UInt64
  used : UInt64
  frames : List Bytes
  deriving DecidableEq

namespace Queue

def empty (capacity : UInt64) : Queue := ⟨capacity, 0, []⟩

/-- The room that a frame of this length takes. -/
def cost (frame : Bytes) : UInt64 := UInt64.ofNat (frame.length + lengthPrefix)

def free (q : Queue) : UInt64 := q.capacity - q.used

def length (q : Queue) : Nat := q.frames.length

def isEmpty (q : Queue) : Bool := q.frames.isEmpty

def push (q : Queue) (frame : Bytes) : Queue :=
  { q with used := q.used + cost frame, frames := q.frames ++ [frame] }

def refusal? (q : Queue) (frame : Bytes) : Option Refusal :=
  if frame = [] then some .emptyFrame
  else if maxFrameLength < frame.length then some (.frameTooLarge frame.length)
  else if q.free < cost frame then some (.full (cost frame) q.free)
  else none

def enqueue (q : Queue) (frame : Bytes) : Except Refusal Queue :=
  match q.refusal? frame with
  | some r => .error r
  | none => .ok (q.push frame)

def dequeue (q : Queue) : Option (Bytes × Queue) :=
  match q.frames with
  | [] => none
  | frame :: rest => some (frame, { q with used := q.used - cost frame, frames := rest })

def drain (q : Queue) : Nat × Queue := (q.length, { q with used := 0, frames := [] })

@[simp] theorem frames_empty (c : UInt64) : (empty c).frames = [] := rfl
@[simp] theorem capacity_empty (c : UInt64) : (empty c).capacity = c := rfl
@[simp] theorem frames_push (q : Queue) (f : Bytes) : (q.push f).frames = q.frames ++ [f] := rfl
@[simp] theorem capacity_push (q : Queue) (f : Bytes) : (q.push f).capacity = q.capacity := rfl
@[simp] theorem frames_drain (q : Queue) : q.drain.2.frames = [] := rfl
@[simp] theorem drain_count (q : Queue) : q.drain.1 = q.frames.length := rfl

inductive Action where
  | enqueue (frame : Bytes)
  | dequeue
  | drain
  | query

inductive Answer where
  | taken
  | refused (why : Refusal)
  | front (frame : Option Bytes)
  | dropped (count : Nat)
  | nothing
  deriving DecidableEq

def act (q : Queue) : Action → Answer × Queue
  | .enqueue frame =>
    match q.enqueue frame with
    | .ok q' => (.taken, q')
    | .error why => (.refused why, q)
  | .dequeue =>
    match q.dequeue with
    | some (frame, q') => (.front (some frame), q')
    | none => (.front none, q)
  | .drain => (.dropped q.drain.1, q.drain.2)
  | .query => (.nothing, q)

def run (q : Queue) : List Action → List (Answer × Queue)
  | [] => []
  | a :: rest => q.act a :: run (q.act a).2 rest

end Queue

end IGate
