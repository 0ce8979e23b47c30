import IGate.Client.Step

/-! Callers and the worker in moves that nothing comes between. A call and a turn of the worker are
several such moves each, and the moves of others may come between them in any order. A call that
nobody interrupts is the call of `Client.call`. -/

namespace IGate.Interleaving

/-- What a caller does next: look whether the link is up, queue a frame, clear `running`, store the
wake-up that follows from either, or nothing any more. -/
inductive Caller where
  | offering (frame : Bytes)
  | queueing (frame : Bytes)
  | queued
  | stopping
  | stopped
  | returned
  deriving DecidableEq

def Caller.move (s : Shared) : Caller → Caller × Shared
  | .offering frame => (if s.connected then .queueing frame else .returned, s)
  | .queueing frame =>
    match s.queue.enqueue frame with
    | .ok queue => (.queued, { s with queue })
    | .error _ => (.returned, s)
  | .stopping => (.stopped, { s with running := false })
  | .queued | .stopped => (.returned, s.wake)
  | .returned => (.returned, s)

/-- Where the worker is: before its test of `running`, with or without a link; about to take a
frame; writing one; about to test the queue for emptiness; in the poll, with what that test told;
about to publish that the link is lost or that it is up; without a link and not yet decided what to
do; asleep; in an attempt; in an attempt and about to test `running`; about to withdraw the link and
then the frames at its end; or gone. -/
inductive Place where
  | looping (linked : Bool)
  | taking
  | writing (frame : Bytes)
  | testing
  | polling (sawEmpty : Bool)
  | losing
  | deciding
  | idling
  | attempting
  | rechecking
  | winning
  | leaving
  | draining
  | gone
  deriving DecidableEq

namespace Place

def move (s : Shared) : Place → Place × Shared
  | .looping linked =>
    (if s.running then (if linked then .taking else .deciding) else .leaving, s)
  | .taking =>
    match s.queue.dequeue with
    | some (frame, queue) => (.writing frame, { s with queue })
    | none => (.testing, s)
  | .testing => (.polling s.queue.isEmpty, s)
  | .losing => (.looping false, { s with connected := false })
  | .rechecking => (if s.running then .attempting else .looping false, s)
  | .winning => (.looping true, { s with connected := true })
  | .leaving => (.draining, { s with connected := false })
  | .draining => (.gone, { s with queue := s.queue.drain.2 })
  | place => (place, s)

/-- What the worker waited for has come out well or badly. A worker without a link attempts one if
it is `well` to do so. -/
def settle (well : Bool) : Place → Place
  | .writing _ => if well then .testing else .losing
  | .polling _ => if well then .looping true else .losing
  | .deciding => if well then .attempting else .idling
  | .idling => .looping false
  | .attempting => if well then .winning else .looping false
  | place => place

def woken? : Place → Option Place
  | .polling _ => some (.looping true)
  | .idling => some (.looping false)
  | .attempting => some .rechecking
  | _ => none

def wake (s : Shared) (place : Place) : Place × Shared :=
  match place.woken? with
  | some next => if s.permit then (next, s.takePermit) else (place, s)
  | none => (place, s)

end Place

/-- Everything that takes part. Callers are told apart by their place in the list. -/
structure State where
  shared : Shared
  callers : List Caller
  worker : Place
  deriving DecidableEq

inductive Move where
  | write (frame : Bytes)
  | requestStop
  /-- A worker is there again, if none is. -/
  | start
  | caller (index : Nat)
  | worker
  | settle (well : Bool)
  | wake
  deriving DecidableEq

namespace State

def initial (capacity : UInt64) : State := ⟨Shared.initial capacity, [], .gone⟩

def moveCaller (s : State) (index : Nat) : State :=
  match s.callers[index]? with
  | some caller =>
    let (caller, shared) := caller.move s.shared
    { s with shared, callers := s.callers.set index caller }
  | none => s

def move (s : State) : Move → State
  | .write frame => { s with callers := s.callers ++ [.offering frame] }
  | .requestStop => { s with callers := s.callers ++ [.stopping] }
  | .start =>
    if s.worker = .gone then
      { s with shared := { s.shared with running := true }, worker := .looping false }
    else s
  | .caller index => s.moveCaller index
  | .worker =>
    let (worker, shared) := s.worker.move s.shared
    { s with shared, worker }
  | .settle well => { s with worker := s.worker.settle well }
  | .wake =>
    let (worker, shared) := s.worker.wake s.shared
    { s with shared, worker }

def run (s : State) (moves : List Move) : State := moves.foldl move s

@[simp] theorem run_nil (s : State) : s.run [] = s := rfl

@[simp] theorem run_cons (s : State) (m : Move) (rest : List Move) :
    s.run (m :: rest) = (s.move m).run rest := rfl

theorem run_append (s : State) (before after : List Move) :
    s.run (before ++ after) = (s.run before).run after := by
  simp only [run, List.foldl_append]

end State

/-! A call without interruption -/

/-- All moves of a call. No call has more than three. -/
def Caller.finish (s : Shared) (c : Caller) : Shared :=
  let (c, s) := c.move s
  let (c, s) := c.move s
  (c.move s).2

theorem finish_offering (c : Client) (frame : Bytes) :
    (Caller.offering frame).finish c.shared = (c.call (.write frame)).1.shared := by
  unfold Caller.finish Client.call Client.enqueue
  cases h : c.shared.connected with
  | false => simp [Caller.move, h]
  | true =>
    cases q : c.shared.queue.enqueue frame with
    | error why => simp [Caller.move, h, q]
    | ok queue => simp [Caller.move, h, q]

theorem finish_stopping (c : Client) :
    Caller.stopping.finish c.shared = (c.call .requestStop).1.shared := rfl

end IGate.Interleaving
