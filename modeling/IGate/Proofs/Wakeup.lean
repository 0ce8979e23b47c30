import IGate.Proofs.Queue

/-! Wake-ups between callers and the worker. A change that a waiting worker has not seen has a
wake-up stored for it, or the caller that made the change has not yet stored the wake-up. -/

namespace IGate

theorem Queue.frames_of_dequeue_none {q : Queue} (h : q.dequeue = none) : q.frames = [] := by
  unfold Queue.dequeue at h
  split at h
  · assumption
  · cases h

namespace Interleaving

def Place.waits : Place → Bool
  | .polling _ | .idling | .attempting => true
  | _ => false

/-- The worker has found `running` set and will not look again before it has waited. -/
def Place.committed : Place → Bool
  | .taking | .writing _ | .testing | .deciding => true
  | place => place.waits

theorem Place.committed_of_waits {p : Place} (h : p.waits = true) : p.committed = true := by
  cases p <;> first | rfl | cases h

/-- Who made the changes: the callers of the queued frames, in the order of the queue, and the
caller that cleared `running` the last time that it was set. -/
structure Ledger where
  authors : List Nat
  stopper : Option Nat

def Ledger.empty : Ledger := ⟨[], none⟩

def Move.caller? : Move → Option Nat
  | .caller index => some index
  | _ => none

namespace State

def record (s : State) (l : Ledger) (m : Move) : Ledger where
  authors :=
    (l.authors ++ (s.entering m).flatMap fun _ => m.caller?.toList).drop (s.leaving m).length
  stopper := if s.shared.running && !(s.move m).shared.running then m.caller? else l.stopper

def ledger (s : State) (l : Ledger) : List Move → Ledger
  | [] => l
  | m :: rest => (s.move m).ledger (s.record l m) rest

/-- The wake-up for every change is stored or still to be stored by the caller that made it. -/
structure Owed (s : State) (l : Ledger) : Prop where
  authors : l.authors.length = s.shared.queue.frames.length
  frames : s.worker = .polling true →
    s.shared.permit = true ∨ ∀ i ∈ l.authors, s.callers[i]? = some .queued
  stop : s.worker.committed = true → s.shared.running = false →
    s.shared.permit = true ∨ ∃ i ∈ l.stopper, s.callers[i]? = some .stopped

section
variable {s : State} {l : Ledger}

theorem getElem?_append_of_some {callers more : List Caller} {i : Nat} {c : Caller}
    (h : callers[i]? = some c) : (callers ++ more)[i]? = some c := by
  rw [List.getElem?_append_left (List.getElem?_eq_some_iff.1 h).1, h]

theorem getElem?_set_of_some {callers : List Caller} {i j : Nat} {c d e : Caller}
    (h : callers[i]? = some c) (hj : callers[j]? = some d) (hne : d ≠ c) :
    (callers.set j e)[i]? = some c := by
  rw [List.getElem?_set_ne, h]
  rintro rfl
  exact hne (Option.some.inj (hj.symm.trans h))

theorem getElem?_set_self_of_some {callers : List Caller} {j : Nat} {d e : Caller}
    (hj : callers[j]? = some d) : (callers.set j e)[j]? = some e :=
  List.getElem?_set_self (List.getElem?_eq_some_iff.1 hj).1

theorem record_eq {m : Move} (he : s.entering m = []) (hl : s.leaving m = [])
    (hr : (s.move m).shared.running = s.shared.running) : s.record l m = l := by
  cases h : s.shared.running <;> simp [record, he, hl, hr, h]

/-- A call that begins changes nothing. -/
theorem Owed.begin (h : s.Owed l) (c : Caller) :
    Owed { s with callers := s.callers ++ [c] } l where
  authors := h.authors
  frames := fun hp => (h.frames hp).imp_right fun ha i hi => getElem?_append_of_some (ha i hi)
  stop := fun hp hr => (h.stop hp hr).imp_right fun ⟨i, hi, hc⟩ =>
    ⟨i, hi, getElem?_append_of_some hc⟩

theorem Owed.idle (h : s.Owed l) {index : Nat} {c d : Caller} (hc : s.callers[index]? = some c)
    (hq : c ≠ .queued) (hs : c ≠ .stopped) :
    Owed { s with callers := s.callers.set index d } l where
  authors := h.authors
  frames := fun hp => (h.frames hp).imp_right fun ha i hi => getElem?_set_of_some (ha i hi) hc hq
  stop := fun hp hr => (h.stop hp hr).imp_right fun ⟨i, hi, hi'⟩ =>
    ⟨i, hi, getElem?_set_of_some hi' hc hs⟩

/-- A stored wake-up settles what is owed. -/
theorem Owed.stored (h : s.Owed l) (callers : List Caller) :
    Owed { s with shared := s.shared.wake, callers } l where
  authors := h.authors
  frames := fun _ => .inl rfl
  stop := fun _ _ => .inl rfl

theorem Owed.queue (h : s.Owed l) {index : Nat} {frame : Bytes} {queue : Queue}
    (hc : s.callers[index]? = some (.queueing frame))
    (hq : s.shared.queue.enqueue frame = .ok queue) :
    Owed { s with
      shared := { s.shared with queue }
      callers := s.callers.set index .queued } { l with authors := l.authors ++ [index] } where
  authors := by simp [h.authors, Queue.frames_of_enqueue hq]
  frames := by
    intro hp
    refine (h.frames hp).imp_right fun ha i hi => ?_
    rcases List.mem_append.1 hi with hi | hi
    · exact getElem?_set_of_some (ha i hi) hc nofun
    · rw [List.mem_singleton.1 hi]
      exact getElem?_set_self_of_some hc
  stop := fun hp hr => (h.stop hp hr).imp_right fun ⟨i, hi, hi'⟩ =>
    ⟨i, hi, getElem?_set_of_some hi' hc nofun⟩

theorem Owed.clear (h : s.Owed l) {index : Nat} (hc : s.callers[index]? = some .stopping) :
    Owed { s with
      shared := { s.shared with running := false }
      callers := s.callers.set index .stopped }
      { l with stopper := if s.shared.running then some index else l.stopper } where
  authors := h.authors
  frames := fun hp => (h.frames hp).imp_right fun ha i hi =>
    getElem?_set_of_some (ha i hi) hc nofun
  stop := by
    intro hp _
    cases hr : s.shared.running with
    | true => exact .inr ⟨index, rfl, getElem?_set_self_of_some hc⟩
    | false =>
      exact (h.stop hp hr).imp_right fun ⟨i, hi, hi'⟩ => ⟨i, hi, getElem?_set_of_some hi' hc nofun⟩

theorem Owed.caller (h : s.Owed l) (index : Nat) :
    Owed (s.move (.caller index)) (s.record l (.caller index)) := by
  cases hc : s.callers[index]? with
  | none => simpa [State.move, moveCaller, record, entering, leaving, hc] using h
  | some c =>
    cases c with
    | offering frame =>
      have hi := h.idle (d := if s.shared.connected then .queueing frame else .returned) hc
        (by simp) (by simp)
      simpa [State.move, moveCaller, record, entering, leaving, hc, Caller.move] using hi
    | queueing frame =>
      cases hq : s.shared.queue.enqueue frame with
      | error why =>
        have hi := h.idle (d := .returned) hc (by simp) (by simp)
        simpa [State.move, moveCaller, record, entering, leaving, hc, Caller.move, hq] using hi
      | ok queue =>
        have hi := h.queue hc hq
        simpa [State.move, moveCaller, record, entering, leaving, hc, Caller.move, hq,
          Move.caller?] using hi
    | stopping =>
      have hi := h.clear hc
      simpa [State.move, moveCaller, record, entering, leaving, hc, Caller.move,
        Move.caller?] using hi
    | queued | stopped =>
      have hi := h.stored (s.callers.set index .returned)
      simpa [State.move, moveCaller, record, entering, leaving, hc, Caller.move,
        Shared.wake] using hi
    | returned =>
      have hi := h.idle (d := .returned) hc (by simp) (by simp)
      simpa [State.move, moveCaller, record, entering, leaving, hc, Caller.move] using hi

theorem Owed.goOn (h : s.Owed l) {p : Place} (hf : p ≠ .polling true)
    (hp : p.committed = true → s.worker.committed = true) : Owed { s with worker := p } l where
  authors := h.authors
  frames := fun hpoll => absurd hpoll hf
  stop := fun hpc => h.stop (hp hpc)

/-- A worker that will look at `running` before it waits owes nothing. -/
theorem Owed.looks (h : s.Owed l) {p : Place} {t : Shared} (hp : p.committed = false)
    (hq : t.queue = s.shared.queue) : Owed { s with shared := t, worker := p } l where
  authors := by
    rw [hq]
    exact h.authors
  frames := fun hpoll => by
    rw [show p = .polling true from hpoll] at hp
    cases hp
  stop := fun hpc => by
    rw [show p.committed = true from hpc] at hp
    cases hp

theorem Owed.runs (h : s.Owed l) {p : Place} (hr : s.shared.running = true)
    (hf : p ≠ .polling true) : Owed { s with worker := p } l where
  authors := h.authors
  frames := fun hpoll => absurd hpoll hf
  stop := fun _ hrun => by simp [hr] at hrun

theorem Owed.take (h : s.Owed l) {frame : Bytes} {queue : Queue} (hw : s.worker = .taking)
    (hq : s.shared.queue.dequeue = some (frame, queue)) :
    Owed { s with shared := { s.shared with queue }, worker := .writing frame }
      { l with authors := l.authors.drop 1 } where
  authors := by simp [h.authors, Queue.frames_of_dequeue hq]
  frames := nofun
  stop := fun _ => h.stop (by rw [hw]; rfl)

/-- The test of the queue is the moment from which on its callers owe wake-ups. -/
theorem Owed.test (h : s.Owed l) (hw : s.worker = .testing) :
    Owed { s with worker := .polling s.shared.queue.isEmpty } l where
  authors := h.authors
  frames := by
    intro hpoll
    have hempty : s.shared.queue.frames = [] := by
      simpa [Queue.isEmpty] using hpoll
    have hnone : l.authors = [] := by
      rw [← List.length_eq_zero_iff, h.authors, hempty, List.length_nil]
    exact .inr (by simp [hnone])
  stop := fun _ => h.stop (by rw [hw]; rfl)

theorem Owed.drain (h : s.Owed l) :
    Owed { s with shared := { s.shared with queue := s.shared.queue.drain.2 }, worker := .gone }
      { l with authors := l.authors.drop s.shared.queue.frames.length } where
  authors := by simp [h.authors]
  frames := nofun
  stop := nofun

theorem Owed.worker (h : s.Owed l) : Owed (s.move .worker) (s.record l .worker) := by
  cases hw : s.worker with
  | looping linked =>
    cases hr : s.shared.running with
    | true =>
      have hn := h.runs (p := if linked then .taking else .deciding) hr (by split <;> simp)
      simpa [State.move, record, entering, leaving, hw, Place.move, hr] using hn
    | false =>
      have hn := h.looks (p := .leaving) rfl rfl
      simpa [State.move, record, entering, leaving, hw, Place.move, hr] using hn
  | taking =>
    cases hq : s.shared.queue.dequeue with
    | some p =>
      have hn := h.take hw hq
      simpa [State.move, record, entering, leaving, hw, Place.move, hq] using hn
    | none =>
      have hn := h.goOn (p := .testing) (by simp) fun _ => by rw [hw]; rfl
      simpa [State.move, record, entering, leaving, hw, Place.move, hq] using hn
  | testing =>
    simpa [State.move, record, entering, leaving, hw, Place.move] using h.test hw
  | rechecking =>
    cases hr : s.shared.running with
    | true =>
      have hn := h.runs (p := .attempting) hr (by simp)
      simpa [State.move, record, entering, leaving, hw, Place.move, hr] using hn
    | false =>
      have hn := h.looks (p := .looping false) rfl rfl
      simpa [State.move, record, entering, leaving, hw, Place.move, hr] using hn
  | losing =>
    have hn := h.looks (p := .looping false) (t := { s.shared with connected := false }) rfl rfl
    simpa [State.move, record, entering, leaving, hw, Place.move] using hn
  | winning =>
    have hn := h.looks (p := .looping true) (t := { s.shared with connected := true }) rfl rfl
    simpa [State.move, record, entering, leaving, hw, Place.move] using hn
  | leaving =>
    have hn := h.looks (p := .draining) (t := { s.shared with connected := false }) rfl rfl
    simpa [State.move, record, entering, leaving, hw, Place.move] using hn
  | draining =>
    simpa [State.move, record, entering, leaving, hw, Place.move] using h.drain
  | writing | polling | deciding | idling | attempting | gone =>
    have hp : s.worker.move s.shared = (s.worker, s.shared) := by
      rw [hw]
      rfl
    have hm : s.move .worker = s := by simp only [State.move, hp]
    rw [hm, record_eq rfl (by simp [leaving, hw]) (by rw [hm])]
    exact h

theorem Owed.settle (h : s.Owed l) (well : Bool) :
    Owed (s.move (.settle well)) (s.record l (.settle well)) := by
  have hpoll : s.worker.settle well ≠ .polling true := by
    cases s.worker <;> cases well <;> nofun
  have hcommitted : (s.worker.settle well).committed = true → s.worker.committed = true := by
    cases s.worker <;> cases well <;> simp [Place.settle, Place.committed, Place.waits]
  rw [record_eq rfl rfl rfl]
  exact h.goOn hpoll hcommitted

theorem Owed.wake (h : s.Owed l) : Owed (s.move .wake) (s.record l .wake) := by
  have hwoken : ∀ {next}, s.worker.woken? = some next → next.committed = false := by
    intro next hn
    cases hw : s.worker <;> rw [hw] at hn <;> cases hn <;> rfl
  cases hn : s.worker.woken? with
  | none =>
    have hm : s.move .wake = s := by simp [State.move, Place.wake, hn]
    rw [hm, record_eq rfl rfl (by rw [hm])]
    exact h
  | some next =>
    cases hp : s.shared.permit with
    | false =>
      have hm : s.move .wake = s := by simp [State.move, Place.wake, hn, hp]
      rw [hm, record_eq rfl rfl (by rw [hm])]
      exact h
    | true =>
      have hm : s.move .wake = { s with shared := s.shared.takePermit, worker := next } := by
        simp [State.move, Place.wake, hn, hp]
      rw [hm, record_eq rfl rfl (by rw [hm]; rfl)]
      exact h.looks (hwoken hn) rfl

theorem Owed.start (h : s.Owed l) : Owed (s.move .start) (s.record l .start) := by
  by_cases hw : s.worker = .gone
  · have hm : s.move .start =
        { s with shared := { s.shared with running := true }, worker := .looping false } := by
      simp [State.move, hw]
    have hrec : s.record l .start = l := by simp [record, entering, leaving, hm]
    rw [hm, hrec]
    exact h.looks rfl rfl
  · have hm : s.move .start = s := by simp [State.move, hw]
    rw [hm, record_eq rfl rfl (by rw [hm])]
    exact h

/-- Every move keeps what is owed in the ledger. -/
theorem Owed.move (h : s.Owed l) (m : Move) : Owed (s.move m) (s.record l m) := by
  cases m with
  | write frame =>
    rw [record_eq rfl rfl rfl]
    exact h.begin (.offering frame)
  | requestStop =>
    rw [record_eq rfl rfl rfl]
    exact h.begin .stopping
  | start => exact h.start
  | caller index => exact h.caller index
  | worker => exact h.worker
  | settle well => exact h.settle well
  | wake => exact h.wake

theorem Owed.run (h : s.Owed l) (moves : List Move) : Owed (s.run moves) (s.ledger l moves) := by
  induction moves generalizing s l with
  | nil => exact h
  | cons m rest ih => exact ih (h.move m)

theorem owed_initial (capacity : UInt64) : (initial capacity).Owed .empty where
  authors := rfl
  frames := nofun
  stop := nofun

/-! What a stored wake-up is good for -/

/-- Moves of the worker that wait for nothing but a stored wake-up. -/
def Unaided (moves : List Move) : Prop := ∀ m ∈ moves, m = .wake ∨ m = .worker

/-- A worker that polls takes the wake-up and then the first frame. -/
theorem run_polling {sawEmpty : Bool} (hw : s.worker = .polling sawEmpty)
    (hp : s.shared.permit = true) (hr : s.shared.running = true) {frame : Bytes} {queue : Queue}
    (hq : s.shared.queue.dequeue = some (frame, queue)) :
    (s.run [.wake, .worker, .worker]).worker = .writing frame := by
  simp [State.move, Place.wake, Place.woken?, Place.move, Shared.takePermit, hw, hp, hr, hq]

theorem run_stopped (hw : s.worker.waits = true) (hp : s.shared.permit = true)
    (hr : s.shared.running = false) :
    ∃ moves, Unaided moves ∧ (s.run moves).worker = .gone := by
  cases hplace : s.worker with
  | polling | idling =>
    refine ⟨[.wake, .worker, .worker, .worker], by simp [Unaided], ?_⟩
    simp [State.move, Place.wake, Place.woken?, Place.move, Shared.takePermit, hplace, hp, hr]
  | attempting =>
    refine ⟨[.wake, .worker, .worker, .worker, .worker], by simp [Unaided], ?_⟩
    simp [State.move, Place.wake, Place.woken?, Place.move, Shared.takePermit, hplace, hp, hr]
  | _ =>
    rw [hplace] at hw
    cases hw

end

/-- What is known of a state when the ledger tells who made the changes. -/
structure Prompt (s : State) (l : Ledger) : Prop where
  /-- Each queued frame has its caller. -/
  authors : l.authors.length = s.shared.queue.frames.length
  frame : s.worker = .polling true → s.shared.queue.frames ≠ [] →
    s.shared.permit = true ∨ ∀ i ∈ l.authors, s.callers[i]? = some .queued
  stop : s.worker.waits = true → s.shared.running = false →
    s.shared.permit = true ∨ ∃ i ∈ l.stopper, s.callers[i]? = some .stopped
  /-- A frame goes out without a timeout when one of the callers has stored its wake-up. -/
  sent : s.worker = .polling true → s.shared.running = true →
    (∃ i ∈ l.authors, s.callers[i]? ≠ some .queued) →
      ∃ frame, s.shared.queue.frames.head? = some frame ∧
        (s.run [.wake, .worker, .worker]).worker = .writing frame
  /-- A stop goes through without a timeout when its caller has stored its wake-up. -/
  ended : s.worker.waits = true → s.shared.running = false →
    (∀ i ∈ l.stopper, s.callers[i]? ≠ some .stopped) →
      ∃ moves, Unaided moves ∧ (s.run moves).worker = .gone

theorem Owed.prompt {s : State} {l : Ledger} (h : s.Owed l) : s.Prompt l where
  authors := h.authors
  frame := fun hw _ => h.frames hw
  stop := fun hw => h.stop (Place.committed_of_waits hw)
  sent := by
    rintro hw hr ⟨i, hi, hc⟩
    have hp : s.shared.permit = true := (h.frames hw).resolve_right fun ha => hc (ha i hi)
    cases hq : s.shared.queue.dequeue with
    | none =>
      have hlen := h.authors
      rw [Queue.frames_of_dequeue_none hq, List.length_nil, List.length_eq_zero_iff] at hlen
      simp [hlen] at hi
    | some p =>
      obtain ⟨frame, queue⟩ := p
      refine ⟨frame, ?_, run_polling hw hp hr hq⟩
      rw [Queue.frames_of_dequeue hq, List.head?_cons]
  ended := by
    intro hw hr hc
    have hp := (h.stop (Place.committed_of_waits hw) hr).resolve_right fun ⟨i, hi, hs⟩ => hc i hi hs
    exact run_stopped hw hp hr

/-- A frame enters the queue while the worker polls, and its caller is interrupted before it stores
the wake-up. -/
def interrupted : List Move :=
  [.start, .worker, .settle true, .settle true, .worker, .worker, .worker, .worker,
    .write [65], .caller 0, .caller 0]

example : (initial 2000).run interrupted =
      ⟨{ Shared.initial 2000 with
          queue := (Queue.empty 2000).push [65], running := true, connected := true },
        [.queued], .polling true⟩ ∧
    ((initial 2000).ledger .empty interrupted).authors = [0] := by
  decide

end State

end Interleaving

end IGate
