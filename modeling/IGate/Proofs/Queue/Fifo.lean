import IGate.Proofs.Queue.Budget

/-! A queue is a list of frames to its users: all that they are told is what a plain list would tell
them, and the frames that were taken leave in order. -/

namespace IGate

namespace Queue

/-- What a user is told by an answer and by looking at the queue after it. -/
structure View where
  answer : Answer
  length : Nat
  isEmpty : Bool
  free : UInt64

def view (a : Answer × Queue) : View := ⟨a.1, a.2.length, a.2.isEmpty, a.2.free⟩

namespace Fifo

/-- Why a list of frames that may take `capacity` bytes refuses another frame, if it does. -/
def refusal? (capacity : Nat) (frames : List Bytes) (frame : Bytes) : Option Refusal :=
  if frame.length = 0 then some .emptyFrame
  else if maxFrameLength < frame.length then some (.frameTooLarge frame.length)
  else if capacity < room (frames ++ [frame]) then
    some (.full (.ofNat (charge frame)) (.ofNat (capacity - room frames)))
  else none

def act (capacity : Nat) (frames : List Bytes) : Action → Answer × List Bytes
  | .enqueue frame =>
    match refusal? capacity frames frame with
    | some why => (.refused why, frames)
    | none => (.taken, frames ++ [frame])
  | .dequeue => (.front frames.head?, frames.tail)
  | .drain => (.dropped frames.length, [])
  | .query => (.nothing, frames)

def view (capacity : Nat) (a : Answer × List Bytes) : View :=
  ⟨a.1, a.2.length, a.2 = [], .ofNat (capacity - room a.2)⟩

def run (capacity : Nat) (frames : List Bytes) : List Action → List View
  | [] => []
  | a :: rest =>
    view capacity (act capacity frames a) :: run capacity (act capacity frames a).2 rest

end Fifo

section
variable {capacity : UInt64} {q : Queue} {frame : Bytes}

theorem Budgeted.free_eq (h : Budgeted capacity q) :
    q.free = .ofNat (capacity.toNat - room q.frames) := by
  rw [← h.toNat_free, UInt64.ofNat_toNat]

theorem Budgeted.refusal?_eq (h : Budgeted capacity q) (frame : Bytes) :
    q.refusal? frame = Fifo.refusal? capacity.toNat q.frames frame := by
  have hroom : room (q.frames ++ [frame]) = room q.frames + charge frame := by simp
  unfold refusal? Fifo.refusal?
  by_cases he : frame = []
  · rw [if_pos he, if_pos (List.length_eq_zero_iff.2 he)]
  · rw [if_neg he, if_neg (mt List.length_eq_zero_iff.1 he)]
    split
    · rfl
    · next hl =>
      have hle : frame.length ≤ maxFrameLength := Nat.le_of_not_lt hl
      rw [hroom, ← h.free_eq]
      exact if_congr (h.free_lt_cost_iff hle) rfl rfl

theorem Budgeted.act_fifo (h : Budgeted capacity q) (a : Action) :
    ((q.act a).1, (q.act a).2.frames) = Fifo.act capacity.toNat q.frames a := by
  cases a with
  | enqueue frame =>
    simp only [Queue.act, Queue.enqueue, Fifo.act, h.refusal?_eq]
    cases Fifo.refusal? capacity.toNat q.frames frame <;> rfl
  | dequeue =>
    simp only [Queue.act, Queue.dequeue, Fifo.act]
    cases hq : q.frames <;> simp [hq]
  | drain => rfl
  | query => rfl

theorem Budgeted.view_eq (h : Budgeted capacity q) (answer : Answer) :
    view (answer, q) = Fifo.view capacity.toNat (answer, q.frames) := by
  have hempty : q.isEmpty = decide (q.frames = []) := by
    cases hq : q.frames <;> simp [isEmpty, hq]
  simp only [view, Fifo.view, hempty, h.free_eq]
  rfl

theorem Budgeted.run_fifo (h : Budgeted capacity q) (as : List Action) :
    (q.run as).map view = Fifo.run capacity.toNat q.frames as := by
  induction as generalizing q with
  | nil => rfl
  | cons a as ih =>
    have hnext := h.act a
    have hact := h.act_fifo a
    rw [run, List.map_cons, ih hnext, hnext.view_eq, hact, Fifo.run, ← hact]

end

/-! Where the frames go -/

def takenBy : Action → Answer → List Bytes
  | .enqueue frame, .taken => [frame]
  | _, _ => []

def Answer.keeps : Answer → Bool
  | .taken | .refused _ | .front none | .nothing => true
  | .front (some _) | .dropped _ => false

/-- The frames that leave with an answer: one that it tells, or as many as it says were dropped. -/
inductive Leaves : Answer → List Bytes → Prop
  | kept {answer} (hk : answer.keeps = true) : Leaves answer []
  | dequeued (frame : Bytes) : Leaves (.front (some frame)) [frame]
  | drained (frames : List Bytes) : Leaves (.dropped frames.length) frames

theorem act_frames (q : Queue) (a : Action) : ∃ left, Leaves (q.act a).1 left ∧
    q.frames ++ takenBy a (q.act a).1 = left ++ (q.act a).2.frames := by
  cases a with
  | enqueue frame =>
    cases hq : q.enqueue frame with
    | ok q' => exact ⟨[], by simpa [act, hq, takenBy, frames_of_enqueue hq] using .kept rfl⟩
    | error why => exact ⟨[], by simpa [act, hq, takenBy] using .kept rfl⟩
  | dequeue =>
    cases hq : q.dequeue with
    | some p =>
      exact ⟨[p.1], by simpa [act, hq, takenBy, frames_of_dequeue hq] using .dequeued p.1⟩
    | none => exact ⟨[], by simpa [act, hq, takenBy] using .kept rfl⟩
  | drain => exact ⟨q.frames, .drained q.frames, rfl⟩
  | query => exact ⟨[], .kept rfl, List.append_nil _⟩

def taken (as : List Action) (answers : List Answer) : List Bytes :=
  (List.zipWith takenBy as answers).flatten

theorem run_frames (q : Queue) (as : List Action) :
    ∃ left, List.Forall₂ Leaves ((q.run as).map Prod.fst) left ∧
      q.frames ++ taken as ((q.run as).map Prod.fst) = left.flatten ++ (q.after as).frames := by
  induction as generalizing q with
  | nil => exact ⟨[], .nil, List.append_nil _⟩
  | cons a as ih =>
    obtain ⟨first, hfirst, hact⟩ := q.act_frames a
    obtain ⟨left, hleft, hrun⟩ := ih (q.act a).2
    refine ⟨first :: left, .cons hfirst hleft, ?_⟩
    calc q.frames ++ taken (a :: as) ((q.run (a :: as)).map Prod.fst)
        = (q.frames ++ takenBy a (q.act a).1) ++ taken as (((q.act a).2.run as).map Prod.fst) := by
          simp [taken, run]
      _ = first ++ ((q.act a).2.frames ++ taken as (((q.act a).2.run as).map Prod.fst)) := by
          rw [hact, List.append_assoc]
      _ = first ++ (left.flatten ++ ((q.act a).2.after as).frames) := by rw [hrun]
      _ = (first :: left).flatten ++ (q.after (a :: as)).frames := by
          simp [after]

/-- What makes a queue a list to its users, who did `as` and were shown `trace`. -/
structure ListLike (capacity : UInt64) (as : List Action) (trace : List (Answer × Queue)) :
    Prop where
  views : trace.map view = Fifo.run capacity.toNat [] as
  conserved : ∃ left, List.Forall₂ Leaves (trace.map Prod.fst) left ∧
    taken as (trace.map Prod.fst) = left.flatten ++ ((empty capacity).after as).frames

/-- A queue of any capacity, whatever is asked of it. -/
theorem list_like (capacity : UInt64) (as : List Action) :
    ListLike capacity as ((empty capacity).run as) :=
  ⟨(Budgeted.empty capacity).run_fifo as, run_frames (empty capacity) as⟩

end Queue

end IGate
