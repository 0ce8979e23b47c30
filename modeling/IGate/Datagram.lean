import IGate.Lookup
import IGate.Notice

/-! Datagrams: the socket that brings local frames, one in each, and the one that takes the lines
of the server. -/

namespace IGate

namespace Datagram

/-- The longest content of a datagram. -/
def maxLength : Nat := 65507

/-- No socket looks for a way for more than this. -/
def maxRequest : Nat := 65535

def send (reachable : Bool) (content : Bytes) : Except IoError Unit :=
  if maxRequest < content.length then .error (.system .messageTooLong)
  else if !reachable then .error (.system .networkUnreachable)
  else if maxLength < content.length then .error (.system .messageTooLong)
  else .ok ()

def forward (reachable : Bool) (target line : String) : Option Bytes × List Notice :=
  match send reachable (Utf8.encode line) with
  | .ok () => (some (Utf8.encode line), [])
  | .error e => (none, [.forwardFailed target e])

end Datagram

/-- A bound socket and the buffer that it receives into, which is one byte longer than a frame. -/
structure FrameSource where
  buffer : Bytes
  deriving DecidableEq

namespace FrameSource

def bufferLength : Nat := maxFrameLength + 1

def initial : FrameSource := ⟨List.replicate bufferLength 0⟩

/-- The system cuts a datagram to the buffer and leaves the rest of the buffer as it was. -/
def fill (s : FrameSource) (datagram : Bytes) : FrameSource :=
  ⟨datagram.take bufferLength ++ s.buffer.drop datagram.length⟩

/-- Takes one datagram: a frame, unless it is empty or too long for one. -/
def receive (s : FrameSource) (sender : String) (datagram : Bytes) :
    Reception × FrameSource × List Notice :=
  let s := s.fill datagram
  let length := min datagram.length bufferLength
  if length = 0 then (.nothing, s, [])
  else if maxFrameLength < length then (.nothing, s, [.oversized sender])
  else (.frame (s.buffer.take length), s, [.received length sender])

structure Inbox where
  source : FrameSource
  waiting : List Bytes
  deriving DecidableEq

namespace Inbox

def empty : Inbox := ⟨initial, []⟩

inductive Action where
  | arrive (datagram : Bytes)
  | receive
  deriving DecidableEq

/-- What a step brings: nothing is asked for when a datagram arrives. -/
def act (i : Inbox) (sender : String) : Action → Option Reception × Inbox × List Notice
  | .arrive datagram => (none, { i with waiting := i.waiting ++ [datagram] }, [])
  | .receive =>
    match i.waiting with
    | [] => (some .nothing, i, [])
    | datagram :: rest =>
      let (what, source, notices) := i.source.receive sender datagram
      (some what, ⟨source, rest⟩, notices)

def run (i : Inbox) (sender : String) : List Action → List (Option Reception × List Notice)
  | [] => []
  | a :: rest =>
    let (what, i, notices) := i.act sender a
    (what, notices) :: run i sender rest

end Inbox

/-- Binds a source to a text that stands for an address, where there is nothing to reach. -/
def bind (address : String) : Except SourceError (SocketAddress × List Notice) :=
  let bound := do
    let a ← Lookup.resolve address
    Lookup.bindable a
    return a
  match bound with
  | .ok a => .ok (a, [.listening address])
  | .error e => .error (.bind address e)

end FrameSource

end IGate
