import IGate.Proofs.Queue

/-! The end of a worker between callers and the worker. A worker that has not been told of a stop in
time begins one write more and no other, and once it is gone nothing is left behind. -/

namespace IGate.Interleaving

def Caller.writes : Caller → Bool
  | .offering _ | .queueing _ => true
  | _ => false

theorem Caller.writes_move {caller : Caller} (h : caller.writes = false) (t : Shared) :
    (caller.move t).1.writes = false := by
  cases caller <;> first | rfl | cases h

namespace State

def underWay (s : State) : List Bytes :=
  match s.worker with
  | .writing frame => [frame]
  | _ => []

def taking (s : State) : Move → List Bytes
  | .worker =>
    match s.worker with
    | .taking => (s.shared.queue.dequeue.map Prod.fst).toList
    | _ => []
  | _ => []

/-- The frames whose writing the worker can still begin without another look at `running`. -/
def due (s : State) : Nat := if s.worker = .taking then 1 else 0

def Calm (s : State) : Prop := ∀ caller ∈ s.callers, caller.writes = false

def Withdrawn (s : State) : Prop :=
  s.worker = .draining ∨ s.worker = .gone → s.shared.connected = false

def Emptied (s : State) : Prop := s.worker = .gone → s.shared.queue.frames = []

section
variable {s : State} {m : Move}

theorem running_moveCaller (hr : s.shared.running = false) (index : Nat) :
    (s.moveCaller index).shared.running = false := by
  unfold moveCaller
  split
  · next caller _ =>
    cases caller with
    | queueing frame =>
      simp only [Caller.move]
      split <;> exact hr
    | stopping => rfl
    | _ => exact hr
  · exact hr

theorem running_move (hr : s.shared.running = false) (hm : m ≠ .start) :
    (s.move m).shared.running = false := by
  cases m with
  | start => exact absurd rfl hm
  | caller index => exact running_moveCaller hr index
  | worker =>
    simp only [State.move]
    cases hw : s.worker with
    | taking =>
      simp only [Place.move]
      split <;> exact hr
    | _ => exact hr
  | wake =>
    simp only [State.move, Place.wake]
    split
    · split <;> exact hr
    · exact hr
  | _ => exact hr

theorem worker_moveCaller (index : Nat) : (s.moveCaller index).worker = s.worker := by
  unfold moveCaller
  split <;> rfl

/-- After a stop was requested, a move that begins a write uses up what is due. -/
theorem due_move (hr : s.shared.running = false) (hm : m ≠ .start) :
    (s.taking m).length + (s.move m).due ≤ s.due := by
  cases m with
  | start => exact absurd rfl hm
  | caller index => simp [taking, due, State.move, worker_moveCaller]
  | worker =>
    cases hw : s.worker with
    | taking =>
      cases hq : s.shared.queue.dequeue <;> simp [taking, due, State.move, Place.move, hw, hq]
    | looping linked => simp [taking, due, State.move, Place.move, hw, hr]
    | _ => simp [taking, due, State.move, Place.move, hw, hr]
  | settle well =>
    cases hw : s.worker <;> cases well <;> simp [taking, due, State.move, Place.settle, hw]
  | wake =>
    cases hw : s.worker <;> cases hp : s.shared.permit <;>
      simp [taking, due, State.move, Place.wake, Place.woken?, hw, hp]
  | _ => exact Nat.le_of_eq (Nat.zero_add _)

theorem due_run (hr : s.shared.running = false) {moves : List Move} (hm : .start ∉ moves) :
    (s.along taking moves).length + (s.run moves).due ≤ s.due := by
  induction moves generalizing s with
  | nil => exact Nat.le_of_eq (Nat.zero_add _)
  | cons m rest ih =>
    rw [List.mem_cons, not_or] at hm
    have hstep := due_move hr (Ne.symm hm.1)
    have hrest := ih (running_move hr (Ne.symm hm.1)) hm.2
    rw [along, List.length_append, run_cons]
    omega

theorem underWay_due (s : State) : s.underWay.length + s.due ≤ 1 := by
  unfold underWay due
  cases s.worker <;> simp

theorem connected_moveCaller (index : Nat) :
    (s.moveCaller index).shared.connected = s.shared.connected := by
  unfold moveCaller
  split
  · next caller _ =>
    cases caller with
    | queueing frame =>
      simp only [Caller.move]
      split <;> rfl
    | _ => rfl
  · rfl

theorem Withdrawn.move (h : s.Withdrawn) (m : Move) : (s.move m).Withdrawn := by
  cases m with
  | caller index =>
    intro hw
    rw [State.move, worker_moveCaller] at hw
    exact (connected_moveCaller index).trans (h hw)
  | start =>
    simp only [State.move]
    split
    · rintro (hw | hw) <;> cases hw
    · exact h
  | worker =>
    cases hw : s.worker with
    | leaving => exact fun _ => by simp [State.move, Place.move, hw]
    | draining | gone => exact fun _ => by simpa [State.move, Place.move, hw] using h (by simp [hw])
    | looping linked => cases linked <;> cases hr : s.shared.running <;>
        simp [Withdrawn, State.move, Place.move, hw, hr]
    | taking => cases hq : s.shared.queue.dequeue <;>
        simp [Withdrawn, State.move, Place.move, hw, hq]
    | rechecking => cases hr : s.shared.running <;>
        simp [Withdrawn, State.move, Place.move, hw, hr]
    | _ => simp [Withdrawn, State.move, Place.move, hw]
  | settle well =>
    cases hw : s.worker with
    | draining | gone => simpa [Withdrawn, State.move, Place.settle, hw] using h
    | _ => cases well <;> simp [Withdrawn, State.move, Place.settle, hw]
  | wake =>
    cases hw : s.worker with
    | draining | gone => simpa [Withdrawn, State.move, Place.wake, Place.woken?, hw] using h
    | _ => cases hp : s.shared.permit <;>
        simp [Withdrawn, State.move, Place.wake, Place.woken?, hw, hp]
  | _ => exact h

theorem Withdrawn.run (h : s.Withdrawn) (moves : List Move) : (s.run moves).Withdrawn := by
  induction moves generalizing s with
  | nil => exact h
  | cons m rest ih => exact ih (h.move m)

theorem withdrawn_initial (capacity : UInt64) : (initial capacity).Withdrawn := fun _ => rfl

theorem Calm.move (h : s.Calm) (hm : ∀ frame, m ≠ .write frame) : (s.move m).Calm := by
  cases m with
  | write frame => exact absurd rfl (hm frame)
  | requestStop =>
    intro caller hmem
    rcases List.mem_append.1 hmem with hmem | hmem
    · exact h caller hmem
    · exact List.mem_singleton.1 hmem ▸ rfl
  | caller index =>
    simp only [State.move, moveCaller]
    split
    · next caller hc =>
      intro caller' hmem
      rcases List.mem_or_eq_of_mem_set hmem with hmem | rfl
      · exact h caller' hmem
      · exact Caller.writes_move (h caller (List.mem_of_getElem? hc)) s.shared
    · exact h
  | start =>
    simp only [State.move]
    split <;> exact h
  | _ => exact h

/-- Nothing is queued while no caller writes. -/
theorem entering_of_calm (h : s.Calm) (m : Move) : s.entering m = [] := by
  cases m with
  | caller index =>
    simp only [entering]
    cases hc : s.callers[index]? with
    | none => rfl
    | some caller =>
      cases caller with
      | queueing frame => cases h _ (List.mem_of_getElem? hc)
      | _ => rfl
  | _ => rfl

theorem gone_of_move (hm : m ≠ .start) (hw : (s.move m).worker = .gone) :
    s.worker = .gone ∨ s.worker = .draining ∧ m = .worker := by
  cases m with
  | start => exact absurd rfl hm
  | caller index => exact .inl (worker_moveCaller index ▸ hw)
  | worker =>
    cases hp : s.worker with
    | gone => exact .inl rfl
    | draining => exact .inr ⟨rfl, rfl⟩
    | looping linked => cases linked <;> cases hr : s.shared.running <;>
        simp [State.move, Place.move, hp, hr] at hw
    | taking => cases hq : s.shared.queue.dequeue <;> simp [State.move, Place.move, hp, hq] at hw
    | rechecking => cases hr : s.shared.running <;> simp [State.move, Place.move, hp, hr] at hw
    | _ => simp [State.move, Place.move, hp] at hw
  | settle well =>
    cases hp : s.worker <;> cases well <;> simp [State.move, Place.settle, hp] at hw ⊢
  | wake =>
    cases hp : s.worker <;> cases ht : s.shared.permit <;>
      simp [State.move, Place.wake, Place.woken?, hp, ht] at hw ⊢
  | _ => exact .inl hw

theorem Emptied.move (h : s.Emptied) (hc : s.Calm) (hm : m ≠ .start) : (s.move m).Emptied := by
  intro hw
  have hleaving : s.leaving m = s.shared.queue.frames := by
    rcases gone_of_move hm hw with hg | ⟨hd, rfl⟩
    · rw [h hg]
      cases m <;> simp [leaving, hg]
    · simp [leaving, hd]
  have hqueue := s.move_queue m
  rw [entering_of_calm hc, hleaving] at hqueue
  exact (List.append_cancel_left hqueue).symm

theorem Emptied.run (h : s.Emptied) (hc : s.Calm) {moves : List Move} (hm : .start ∉ moves)
    (hwrite : ∀ frame, .write frame ∉ moves) : (s.run moves).Emptied := by
  induction moves generalizing s with
  | nil => exact h
  | cons m rest ih =>
    rw [List.mem_cons, not_or] at hm
    have hne : ∀ frame, m ≠ .write frame := fun frame hf => hwrite frame (by simp [hf])
    exact ih (h.move hc (Ne.symm hm.1)) (hc.move hne) hm.2
      fun frame hf => hwrite frame (List.mem_cons_of_mem _ hf)

end

/-- How a worker that is asked to stop in `s` comes to its end, without a start along `moves`. -/
structure Ends (s : State) (moves : List Move) : Prop where
  /-- Of the frame under way and those begun since there is one at most. -/
  written : (s.underWay ++ s.along taking moves).length ≤ 1
  disconnected : (s.run moves).worker = .gone → (s.run moves).shared.connected = false
  /-- A stop has the client to itself: no write is under way, and none comes meanwhile. -/
  emptied : s.Calm → (∀ frame, .write frame ∉ moves) → s.worker ≠ .gone →
    (s.run moves).worker = .gone → (s.run moves).shared.queue.frames = []

def EndsCleanly (s : State) : Prop :=
  s.shared.running = false → ∀ moves, .start ∉ moves → Ends s moves

theorem Withdrawn.endsCleanly {s : State} (h : s.Withdrawn) : s.EndsCleanly := by
  intro hr moves hm
  refine ⟨?_, fun hw => h.run moves (.inr hw), fun hc hwrite hp => ?_⟩
  · have hdue := due_run hr hm
    have hone := s.underWay_due
    rw [List.length_append]
    omega
  · exact Emptied.run (fun hg => absurd hg hp) hc hm hwrite

end State

end IGate.Interleaving
