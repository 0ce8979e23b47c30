import IGate.Proofs.Client.Consistency
import IGate.Proofs.Wakeup

/-! Every run of a client is an interleaving of callers and a worker, in which no caller is
interrupted. So what holds of all interleavings holds of what the client shares. -/

namespace IGate

open Interleaving (State Place Caller)

structure Shared.Alike (t t' : Shared) : Prop where
  queue : t.queue = t'.queue
  permit : t.permit = t'.permit
  running : t.running = t'.running
  connected : t.connected = t'.connected

theorem Shared.Alike.published {t t' : Shared} (h : t.Alike t') (attempts : Nat)
    (delay pending : UInt64) : t.Alike { t' with attempts, delay, pending } :=
  ⟨h.queue, h.permit, h.running, h.connected⟩

namespace Client

def Stands (q : Place) : Option Worker → Prop
  | none => q = .gone
  | some w =>
    match w.phase with
    | .fresh | .between | .delivering _ => q = .looping w.link.isSome
    | .idle _ => q = .idling
    | .connecting _ | .greeting .. | .loggingIn .. => q = .attempting
    | .sending _ => ∃ frame, q = .writing frame
    | .polling _ => ∃ sawEmpty, q = .polling sawEmpty

/-- The interleaving has come to where the client is, and no call is under way. -/
structure Shows (s : State) (c : Client) : Prop where
  shared : s.shared.Alike c.shared
  callers : ∀ caller ∈ s.callers, caller = .returned
  worker : Stands s.worker c.worker

section
variable {s : State} {c c' : Client} {w : Worker} {p : Phase} {sig : Signal} {new : Trace}

theorem stands_phaseFor (line : String) (hp : w.phase = c.phaseFor line) :
    Stands (.looping w.link.isSome) (some w) := by
  rcases c.phaseFor_eq_or line with h | h <;> simp [Stands, hp, h]

theorem waits_eq_of_stands {o : Option Worker} {q q' : Place} (h : Stands q o)
    (h' : Stands q' o) : q.waits = q'.waits := by
  cases o with
  | none => rw [show q = .gone from h, show q' = .gone from h']
  | some w =>
    rw [Stands] at h h'
    cases hp : w.phase <;> rw [hp] at h h'
    case sending | polling =>
      obtain ⟨_, rfl⟩ := h
      obtain ⟨_, rfl⟩ := h'
      rfl
    all_goals rw [h, h']

namespace Shows

theorem at_boundary (h : Shows s c) (hw : c.worker = some w) (hp : w.phase.boundary = true) :
    s.worker = .looping w.link.isSome := by
  have hs := h.worker
  rw [hw] at hs
  cases hphase : w.phase <;> simp_all [Phase.boundary, Stands]

theorem at_attempt (h : Shows s c) (hw : c.worker = some w) (hp : w.phase.attempt?.isSome) :
    s.worker = .attempting := by
  have hs := h.worker
  rw [hw] at hs
  cases hphase : w.phase <;> simp_all [Phase.attempt?, Stands]

theorem at_idle {deadline : Duration} (h : Shows s c) (hw : c.worker = some w)
    (hp : w.phase = .idle deadline) : s.worker = .idling := by
  simpa [hw, Stands, hp] using h.worker

theorem at_sending {rest : Bytes} (h : Shows s c) (hw : c.worker = some w)
    (hp : w.phase = .sending rest) : ∃ frame, s.worker = .writing frame := by
  simpa [hw, Stands, hp] using h.worker

theorem at_polling {deadline : Duration} (h : Shows s c) (hw : c.worker = some w)
    (hp : w.phase = .polling deadline) : ∃ sawEmpty, s.worker = .polling sawEmpty := by
  simpa [hw, Stands, hp] using h.worker

theorem moved (h : Shows s c) (moves : List Interleaving.Move) {t : Shared} {q : Place}
    (hm : s.run moves = { s with shared := t, worker := q }) (ht : t.Alike c'.shared)
    (hq : Stands q c'.worker) : ∃ moves, Shows (s.run moves) c' :=
  ⟨moves, by rw [hm]; exact ⟨ht, h.callers, hq⟩⟩

theorem unmoved (h : Shows s c) (ht : s.shared.Alike c'.shared) (hq : Stands s.worker c'.worker) :
    ∃ moves, Shows (s.run moves) c' :=
  h.moved [] rfl ht hq

theorem moveCaller_last (t : Shared) (callers : List Caller) (caller : Caller) (q : Place) :
    State.moveCaller ⟨t, callers ++ [caller], q⟩ callers.length =
      ⟨(caller.move t).2, callers ++ [(caller.move t).1], q⟩ := by
  simp [State.moveCaller]

theorem callers_returned (h : Shows s c) :
    ∀ caller ∈ s.callers ++ [.returned], caller = .returned := by
  intro caller hm
  rcases List.mem_append.1 hm with hm | hm
  · exact h.callers caller hm
  · exact List.mem_singleton.1 hm

theorem stopRequested (h : Shows s c) :
    ∃ moves, Shows (s.run moves) { c with shared := { c.shared with running := false }.wake } := by
  refine ⟨[.requestStop, .caller s.callers.length, .caller s.callers.length], ?_⟩
  simp only [State.run_cons, State.run_nil, State.move, moveCaller_last, Caller.move]
  exact ⟨⟨h.shared.queue, rfl, rfl, h.shared.connected⟩, h.callers_returned, h.worker⟩

theorem accepted (h : Shows s c) {frame : Bytes} {queue : Queue}
    (hc : c.shared.connected = true) (hq : c.shared.queue.enqueue frame = .ok queue) :
    ∃ moves, Shows (s.run moves) { c with shared := { c.shared with queue }.wake } := by
  have hc' := h.shared.connected.trans hc
  rw [← h.shared.queue] at hq
  refine ⟨.write frame :: List.replicate 3 (.caller s.callers.length), ?_⟩
  simp only [List.replicate, State.run_cons, State.run_nil, State.move, moveCaller_last,
    Caller.move, hc', if_true, hq]
  exact ⟨⟨rfl, rfl, h.shared.running, hc.symm⟩, h.callers_returned, h.worker⟩

theorem woken (h : Shows s c) {q : Place} (hn : s.worker.woken? = some q)
    (hq : s.worker.settle true = q) (hc : c'.shared = c.roused.shared) (hw : Stands q c'.worker) :
    ∃ moves, Shows (s.run moves) c' := by
  have hpermit := h.shared.permit
  cases hp : s.shared.permit with
  | true =>
    refine h.moved [.wake] (t := s.shared.takePermit) (q := q)
      (by simp [State.move, Place.wake, hn, hp]) ?_ hw
    rw [hc]
    exact ⟨h.shared.queue, rfl, h.shared.running, h.shared.connected⟩
  | false =>
    refine h.moved [.settle true] (t := s.shared) (q := q) (by simp [State.move, hq]) ?_ hw
    rw [hc]
    exact ⟨h.shared.queue, hp, h.shared.running, h.shared.connected⟩

end Shows

/-- Every move of a client is made up of moves of an interleaving. -/
theorem Move.shows (hm : Move c sig c' new) (hk : c.WellKept) (h : Shows s c) :
    ∃ moves, Shows (s.run moves) c' := by
  have hsame := h.shared
  obtain ⟨hqueue, hpermit, hrunning, hconnected⟩ := h.shared
  cases hm with
  | ignored | rejected | elapsed => exact h.unmoved hsame h.worker
  | clocked | sinkSet => exact h.unmoved ⟨hqueue, hpermit, hrunning, hconnected⟩ h.worker
  | stopRequested => exact h.stopRequested
  | accepted _ hc hq => exact h.accepted hc hq
  | started hw =>
    have hs : s.worker = .gone := by simpa [hw, Stands] using h.worker
    exact h.moved [.start] (t := { s.shared with running := true }) (q := .looping false)
      (by simp [State.move, hs]) ⟨hqueue, hpermit, rfl, hconnected⟩ rfl
  | ended hw hp hr =>
    have hs := h.at_boundary hw hp
    have hr' := hrunning.trans hr
    refine h.moved [.worker, .worker, .worker]
      (t := { s.shared with connected := false, queue := s.shared.queue.drain.2 }) (q := .gone)
      (by simp [State.move, Place.move, hs, hr']) ⟨?_, hpermit, hrunning, rfl⟩ rfl
    rw [hqueue]
    rfl
  | rested hw hp hr hl hq =>
    have hs := h.at_boundary hw hp
    rw [hl] at hs
    have hr' := hrunning.trans hr
    rw [← hqueue] at hq
    exact h.moved [.worker, .worker, .worker] (t := s.shared)
      (q := .polling s.shared.queue.isEmpty) (by simp [State.move, Place.move, hs, hr', hq])
      (hsame.published _ _ _) ⟨_, rfl⟩
  | @took _ frame queue hw hp hr hl hq =>
    have hs := h.at_boundary hw hp
    rw [hl] at hs
    have hr' := hrunning.trans hr
    rw [← hqueue] at hq
    exact h.moved [.worker, .worker] (t := { s.shared with queue }) (q := .writing frame)
      (by simp [State.move, Place.move, hs, hr', hq]) ⟨rfl, hpermit, hrunning, hconnected⟩ ⟨_, rfl⟩
  | attempted hw hp hr hl | reattempted hw hp hr hl =>
    have hs := h.at_boundary hw hp
    rw [hl] at hs
    have hr' := hrunning.trans hr
    exact h.moved [.worker, .settle true] (t := s.shared) (q := .attempting)
      (by simp [State.move, Place.move, Place.settle, hs, hr']) (hsame.published _ _ _) rfl
  | dozed hw hp hr hl =>
    have hs := h.at_boundary hw hp
    rw [hl] at hs
    have hr' := hrunning.trans hr
    exact h.moved [.worker, .settle false] (t := s.shared) (q := .idling)
      (by simp [State.move, Place.move, Place.settle, hs, hr']) (hsame.published _ _ _) rfl
  | opened hw hp | awaited hw hp | greeted hw hp | loginSent hw hp | loginFlushed hw hp =>
    exact h.unmoved hsame (h.at_attempt hw (by rw [hp]; rfl))
  | unreached hw hp | ungreeted hw hp | loginFailed hw hp =>
    have hs := h.at_attempt hw (by rw [hp]; rfl)
    have hl := ((hk.sound hw).attempted_of_attempt (by rw [hp]; rfl)).1
    refine h.moved [.settle false] (t := s.shared) (q := .looping false)
      (by simp [State.move, Place.settle, hs]) (hsame.published _ _ _) ?_
    simp [Stands, scheduleReconnect, hl]
  | stirred hw hp hr =>
    have hs := h.at_attempt hw (by rw [hp]; rfl)
    have hr' := hrunning.trans hr
    cases hw' : s.shared.permit with
    | true =>
      exact h.moved [.wake, .worker] (t := s.shared.takePermit) (q := s.worker)
        (by simp [State.move, Place.wake, Place.woken?, Place.move, Shared.takePermit, hs, hw',
          hr'])
        ⟨hqueue, rfl, hrunning, hconnected⟩ h.worker
    | false => exact h.unmoved ⟨hqueue, hw', hrunning, hconnected⟩ h.worker
  | @abandoned w _ hw hp hr =>
    have hs := h.at_attempt hw (by rw [hp]; rfl)
    have hr' := hrunning.trans hr
    have hq : Stands (.looping false) (some { w with phase := .between }) := by
      simp [Stands, ((hk.sound hw).attempted_of_attempt (by rw [hp]; rfl)).1]
    cases hw' : s.shared.permit with
    | true =>
      exact h.moved [.wake, .worker] (t := s.shared.takePermit) (q := .looping false)
        (by simp [State.move, Place.wake, Place.woken?, Place.move, Shared.takePermit, hs, hw',
          hr'])
        ⟨hqueue, rfl, hrunning, hconnected⟩ hq
    | false =>
      exact h.moved [.settle false] (t := s.shared) (q := .looping false)
        (by simp [State.move, Place.settle, hs]) ⟨hqueue, hw', hrunning, hconnected⟩ hq
  | established hw hp =>
    have hs := h.at_attempt hw (by rw [hp]; rfl)
    exact h.moved [.settle true, .worker] (t := { s.shared with connected := true })
      (q := .looping true) (by simp [State.move, Place.move, Place.settle, hs])
      ⟨hqueue, hpermit, hrunning, rfl⟩ rfl
  | frameSent hw hp => exact h.unmoved hsame (h.at_sending hw hp)
  | frameFlushed hw hp =>
    obtain ⟨frame, hs⟩ := h.at_sending hw hp
    exact h.moved [.settle true, .worker] (t := s.shared) (q := .polling s.shared.queue.isEmpty)
      (by simp [State.move, Place.move, Place.settle, hs]) hsame ⟨_, rfl⟩
  | frameFailed hw hp =>
    obtain ⟨frame, hs⟩ := h.at_sending hw hp
    exact h.moved [.settle false, .worker] (t := { s.shared with connected := false })
      (q := .looping false) (by simp [State.move, Place.move, Place.settle, hs])
      ⟨hqueue, hpermit, hrunning, rfl⟩ rfl
  | readFailed hw hp =>
    obtain ⟨sawEmpty, hs⟩ := h.at_polling hw hp
    exact h.moved [.settle false, .worker] (t := { s.shared with connected := false })
      (q := .looping false) (by simp [State.move, Place.move, Place.settle, hs])
      ⟨hqueue, hpermit, hrunning, rfl⟩ rfl
  | pollWoken hw hp =>
    obtain ⟨sawEmpty, hs⟩ := h.at_polling hw hp
    have hl := (hk.sound hw).linked true (by rw [hp]; rfl)
    refine h.woken (q := .looping true) (by rw [hs]; rfl) (by rw [hs]; rfl) rfl ?_
    simp [Stands, wait, withWorker, hl]
  | pollEnded hw hp =>
    obtain ⟨sawEmpty, hs⟩ := h.at_polling hw hp
    have hl := (hk.sound hw).linked true (by rw [hp]; rfl)
    refine h.moved [.settle true] (t := s.shared) (q := .looping true)
      (by simp [State.move, Place.settle, hs]) hsame ?_
    simp [Stands, wait, withWorker, hl]
  | polled hw hp =>
    obtain ⟨sawEmpty, hs⟩ := h.at_polling hw hp
    refine h.unmoved hsame ?_
    simp [Stands, withWorker, hp, hs]
  | heard hw hp =>
    obtain ⟨sawEmpty, hs⟩ := h.at_polling hw hp
    exact h.moved [.settle true] (t := s.shared) (q := .looping true)
      (by simp [State.move, Place.settle, hs]) hsame (stands_phaseFor _ rfl)
  | @sinkDone w _ _ hw hp =>
    have hs : s.worker = .looping w.link.isSome := by simpa [hw, Stands, hp] using h.worker
    exact h.unmoved hsame hs
  | idleEnded hw hp =>
    have hs := h.at_idle hw hp
    have hl := (hk.sound hw).linked false (by rw [hp]; rfl)
    refine h.moved [.settle true] (t := s.shared) (q := .looping false)
      (by simp [State.move, Place.settle, hs]) hsame ?_
    simp [Stands, wait, withWorker, hl]
  | idleWoken hw hp =>
    have hs := h.at_idle hw hp
    have hl := (hk.sound hw).linked false (by rw [hp]; rfl)
    refine h.woken (q := .looping false) (by rw [hs]; rfl) (by rw [hs]; rfl) rfl ?_
    simp [Stands, wait, withWorker, hl]

end

theorem shows_initial (settings : Settings) (capacity : UInt64) :
    Shows (.initial capacity) (initial settings capacity) :=
  ⟨⟨rfl, rfl, rfl, rfl⟩, nofun, rfl⟩

theorem run_shows (settings : Settings) (capacity : UInt64) (ss : List Signal) :
    ∃ moves, Shows ((State.initial capacity).run moves) ((initial settings capacity).run ss).1 := by
  let P : Client → Trace → Prop := fun c _ =>
    c.WellKept ∧ ∃ moves, Shows ((State.initial capacity).run moves) c
  have hmove : ∀ {c sig c' es new}, P c es → Move c sig c' new → P c' (es ++ new) := by
    rintro c sig c' es new ⟨hk, before, h⟩ hm
    obtain ⟨after, h'⟩ := hm.shows hk h
    exact ⟨hm.wellKept hk, before ++ after, by rwa [State.run_append]⟩
  have hinit : P (initial settings capacity) [] := ⟨rfl, [], shows_initial settings capacity⟩
  exact (@run_keeps P @hmove (initial settings capacity) [] hinit ss).2

/-- A worker that waits after a stop has been requested has its wake-up stored. -/
theorem permit_of_stopRequested (settings : Settings) (capacity : UInt64) (ss : List Signal)
    {q : Place} (hq : Stands q ((initial settings capacity).run ss).1.worker)
    (hw : q.waits = true) (hr : ((initial settings capacity).run ss).1.shared.running = false) :
    ((initial settings capacity).run ss).1.shared.permit = true := by
  obtain ⟨moves, h⟩ := run_shows settings capacity ss
  have howed := (State.owed_initial capacity).run moves
  have hcommitted := Place.committed_of_waits ((waits_eq_of_stands h.worker hq).trans hw)
  rw [← h.shared.permit]
  refine (howed.stop hcommitted (h.shared.running.trans hr)).resolve_right ?_
  rintro ⟨i, -, hi⟩
  cases h.callers _ (List.mem_of_getElem? hi)

/-- Whichever move comes next, nothing that a waiting worker should know of goes without a wake-up;
and the runs of a client are among those of which this is said. -/
theorem no_wakeup_lost (capacity : UInt64) (moves : List Interleaving.Move) :
    ((State.initial capacity).run moves).Prompt ((State.initial capacity).ledger .empty moves) ∧
      ∀ settings ss, ∃ moves,
        Shows ((State.initial capacity).run moves) ((initial settings capacity).run ss).1 :=
  ⟨((State.owed_initial capacity).run moves).prompt, fun settings ss =>
    run_shows settings capacity ss⟩

end Client

end IGate
