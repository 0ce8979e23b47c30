import IGate.Client.Interleaving
import Mathlib

/-! The queue between callers and the worker, whichever of them moves next: frames leave it in the
order in which they enter it, also when a call is interrupted. -/

namespace IGate

theorem Queue.frames_of_enqueue {q q' : Queue} {frame : Bytes} (h : q.enqueue frame = .ok q') :
    q'.frames = q.frames ++ [frame] := by
  unfold Queue.enqueue at h
  split at h
  · cases h
  · cases h
    rfl

theorem Queue.frames_of_dequeue {q q' : Queue} {frame : Bytes}
    (h : q.dequeue = some (frame, q')) : q.frames = frame :: q'.frames := by
  unfold Queue.dequeue at h
  split at h
  · cases h
  · next hq =>
    cases h
    exact hq

namespace Interleaving

namespace State

/-- The frame that enters the queue with a move. Its caller will be told that it is taken. -/
def entering (s : State) : Move → List Bytes
  | .caller index =>
    match s.callers[index]? with
    | some (.queueing frame) =>
      match s.shared.queue.enqueue frame with
      | .ok _ => [frame]
      | .error _ => []
    | _ => []
  | _ => []

def leaving (s : State) : Move → List Bytes
  | .worker =>
    match s.worker with
    | .taking => (s.shared.queue.dequeue.map Prod.fst).toList
    | .draining => s.shared.queue.frames
    | _ => []
  | _ => []

def along (s : State) (f : State → Move → List Bytes) : List Move → List Bytes
  | [] => []
  | m :: rest => f s m ++ (s.move m).along f rest

theorem move_queue (s : State) (m : Move) :
    s.shared.queue.frames ++ s.entering m = s.leaving m ++ (s.move m).shared.queue.frames := by
  cases m with
  | caller index =>
    simp only [entering, leaving, State.move, moveCaller]
    cases hc : s.callers[index]? with
    | none => simp
    | some caller =>
      cases caller with
      | queueing frame =>
        cases hq : s.shared.queue.enqueue frame with
        | ok queue => simp [Caller.move, hq, Queue.frames_of_enqueue hq]
        | error why => simp [Caller.move, hq]
      | _ => simp [Caller.move, Shared.wake]
  | worker =>
    simp only [entering, leaving, State.move]
    cases hw : s.worker with
    | taking =>
      cases hq : s.shared.queue.dequeue with
      | none => simp [Place.move, hq]
      | some p => simp [Place.move, hq, Queue.frames_of_dequeue hq]
    | _ => simp [Place.move]
  | start =>
    simp only [entering, leaving, State.move]
    split <;> simp
  | wake =>
    simp only [entering, leaving, State.move, Place.wake]
    split
    · split <;> simp [Shared.takePermit]
    · simp
  | _ => exact List.append_nil _

theorem run_queue (s : State) (moves : List Move) :
    s.shared.queue.frames ++ s.along entering moves =
      s.along leaving moves ++ (s.run moves).shared.queue.frames := by
  induction moves generalizing s with
  | nil => exact List.append_nil _
  | cons m rest ih =>
    rw [along, along, run_cons, List.append_assoc, ← ih, ← List.append_assoc, move_queue,
      List.append_assoc]

end State

end Interleaving

end IGate
