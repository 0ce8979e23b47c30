import IGate.Proofs.Client.Consistency

/-! What hangs on the milliseconds that were clocked: nothing but whether a turn attempts to
connect. Runs that attempt at the same turns show the same, and differ in their countdowns only. -/

namespace IGate

/-- Signals that differ at most in how much they clock. -/
inductive Signal.Alike : Signal → Signal → Prop
  | same (s) : Alike s s
  | clocks (ms ms') : Alike (.call (.clock ms)) (.call (.clock ms'))

def Worker.unclocked (w : Worker) : Worker :=
  { w with backoff := { w.backoff with countdown := Countdown.initial } }

namespace Client

def unclocked (c : Client) : Client :=
  { c with
    shared := { c.shared with pending := 0 }
    worker := c.worker.map Worker.unclocked }

/-- The same answer, apart from what was clocked. -/
def Agree (a b : Step) : Prop := a.1.unclocked = b.1.unclocked ∧ a.2 = b.2

theorem Agree.ite {p q : Prop} [Decidable p] [Decidable q] {a b a' b' : Step} (h : p ↔ q)
    (ha : p → Agree a a') (hb : ¬p → Agree b b') :
    Agree (if p then a else b) (if q then a' else b') := by
  by_cases hp : p
  · rw [if_pos hp, if_pos (h.1 hp)]
    exact ha hp
  · rw [if_neg hp, if_neg (mt h.2 hp)]
    exact hb hp

section
variable (c : Client) (w : Worker) (s : Signal)

theorem unclocked_withShared {shared shared' : Shared}
    (h : { shared' with pending := 0 } = { shared with pending := 0 }) :
    unclocked { c.unclocked with shared := shared' } = unclocked { c with shared } := by
  cases hw : c.worker <;> simp [unclocked, hw, Worker.unclocked, h]

theorem unclocked_unclocked : c.unclocked.unclocked = c.unclocked :=
  c.unclocked_withShared rfl

theorem ignored_unclocked : Agree (c.unclocked, []) (c, []) := ⟨c.unclocked_unclocked, rfl⟩

theorem enqueue_unclocked (frame : Bytes) :
    Agree (c.unclocked.enqueue frame) (c.enqueue frame) := by
  refine .ite Iff.rfl (fun _ => ?_) fun _ => ⟨c.unclocked_unclocked, rfl⟩
  have hq : c.unclocked.shared.queue = c.shared.queue := rfl
  rw [hq]
  cases c.shared.queue.enqueue frame with
  | ok queue => exact ⟨c.unclocked_withShared rfl, rfl⟩
  | error why => exact ⟨c.unclocked_unclocked, rfl⟩

/-- A call that clocks differs in nothing but what it clocks. -/
theorem call_unclocked (k : Call) : Agree (c.unclocked.call k) (c.call k) := by
  cases k with
  | start =>
    have hw' : c.unclocked.worker = c.worker.map Worker.unclocked := rfl
    cases hw : c.worker with
    | none => simp only [call, hw, Option.map_none, Agree, unclocked, and_self]
    | some w =>
      simp only [call, hw', hw, Option.map_some]
      exact c.ignored_unclocked
  | requestStop => exact ⟨c.unclocked_withShared rfl, rfl⟩
  | write frame => exact c.enqueue_unclocked frame
  | writeMessage text => exact c.enqueue_unclocked _
  | clock ms => exact ⟨c.unclocked_withShared rfl, rfl⟩
  | setSink sink => exact ⟨c.unclocked_withShared rfl, rfl⟩

theorem wakeAttempt_unclocked (opened : Bool) :
    Agree (c.unclocked.wakeAttempt w.unclocked opened) (c.wakeAttempt w opened) := by
  refine .ite Iff.rfl (fun _ => ?_) fun _ => c.ignored_unclocked
  exact .ite Iff.rfl (fun _ => ⟨c.unclocked_withShared rfl, rfl⟩) fun _ => ⟨rfl, rfl⟩

theorem connecting_unclocked (deadline : Duration) :
    Agree (c.unclocked.connecting w.unclocked deadline s) (c.connecting w deadline s) := by
  cases s with
  | connected | connectFailed => exact ⟨rfl, rfl⟩
  | timeout => exact .ite Iff.rfl (fun _ => ⟨rfl, rfl⟩) fun _ => c.ignored_unclocked
  | wake => exact c.wakeAttempt_unclocked w false
  | _ => exact c.ignored_unclocked

theorem greeting_unclocked (stage : Stage) (buffer : Bytes) (deadline : Duration) :
    Agree (c.unclocked.greeting w.unclocked stage buffer deadline s)
      (c.greeting w stage buffer deadline s) := by
  refine .ite Iff.rfl (fun _ => c.wakeAttempt_unclocked w true) fun _ => ?_
  have hn : c.unclocked.now = c.now := rfl
  rw [hn]
  cases Heard.ofSignal c.now deadline buffer s with
  | line raw rest => cases stage <;> exact ⟨rfl, rfl⟩
  | _ => exact ⟨rfl, rfl⟩

theorem loggingIn_unclocked (buffer rest : Bytes) :
    Agree (c.unclocked.loggingIn w.unclocked buffer rest s) (c.loggingIn w buffer rest s) := by
  refine .ite Iff.rfl (fun _ => c.wakeAttempt_unclocked w true) fun _ => ?_
  cases Pushed.ofSignal rest s <;> exact ⟨rfl, rfl⟩

theorem sending_unclocked (rest : Bytes) :
    Agree (c.unclocked.sending w.unclocked rest s) (c.sending w rest s) := by
  unfold sending
  cases Pushed.ofSignal rest s <;> exact ⟨rfl, rfl⟩

theorem heardLine_unclocked (raw : Bytes) :
    Agree (c.unclocked.heardLine w.unclocked raw) (c.heardLine w raw) := by
  refine .ite Iff.rfl (fun _ => ⟨rfl, rfl⟩) fun _ => .ite Iff.rfl (fun _ => ⟨rfl, rfl⟩) fun _ => ?_
  have hs : c.unclocked.shared.sink = c.shared.sink := rfl
  rw [hs]
  cases c.shared.sink <;> exact ⟨rfl, rfl⟩

theorem pollHeard_unclocked (h : Heard) :
    Agree (c.unclocked.pollHeard w.unclocked h) (c.pollHeard w h) := by
  cases h with
  | line raw rest => exact c.heardLine_unclocked { w with link := some rest } raw
  | _ => exact ⟨rfl, rfl⟩

theorem polling_unclocked (deadline : Duration) :
    Agree (c.unclocked.polling w.unclocked deadline s) (c.polling w deadline s) := by
  have hl' : w.unclocked.link = w.link := rfl
  unfold polling
  rw [hl']
  cases w.link with
  | none => exact c.ignored_unclocked
  | some buffer =>
    refine .ite Iff.rfl (fun _ => ?_) fun _ => ?_
    · exact .ite Iff.rfl (fun _ => ⟨rfl, rfl⟩) fun _ => c.ignored_unclocked
    · obtain ⟨hc, he⟩ := c.pollHeard_unclocked w (Heard.ofSignal c.now deadline buffer s)
      exact ⟨hc, congrArg (readEvents (Heard.intake buffer s) ++ ·) he⟩

theorem delivering_unclocked (line : String) :
    Agree (c.unclocked.delivering w.unclocked line s) (c.delivering w line s) := by
  cases s with
  | sinkReturned | sinkPanicked => exact ⟨rfl, rfl⟩
  | _ => exact c.ignored_unclocked

theorem idle_unclocked (deadline : Duration) :
    Agree (c.unclocked.idle w.unclocked deadline s) (c.idle w deadline s) := by
  cases s with
  | timeout | wake => exact .ite Iff.rfl (fun _ => ⟨rfl, rfl⟩) fun _ => c.ignored_unclocked
  | _ => exact c.ignored_unclocked

/-- The signal makes the worker take a turn, whose outcome hangs on the countdown. -/
def TakesTurn : Prop := s = .turn ∧ ∃ w, c.worker = some w ∧ w.phase.boundary = true

theorem proceed_unclocked (hs : ¬ (s = .turn ∧ w.phase.boundary = true)) :
    Agree (c.unclocked.proceed w.unclocked s) (c.proceed w s) := by
  have hp' : w.unclocked.phase = w.phase := rfl
  unfold proceed
  rw [hp']
  cases hp : w.phase with
  | fresh | between =>
    have hn : s ≠ .turn := fun h => hs ⟨h, by rw [hp]; rfl⟩
    simp only [if_neg hn]
    exact c.ignored_unclocked
  | idle deadline => exact c.idle_unclocked w s deadline
  | connecting deadline => exact c.connecting_unclocked w s deadline
  | greeting stage buffer deadline => exact c.greeting_unclocked w s stage buffer deadline
  | loggingIn buffer rest => exact c.loggingIn_unclocked w s buffer rest
  | sending rest => exact c.sending_unclocked w s rest
  | polling deadline => exact c.polling_unclocked w s deadline
  | delivering line => exact c.delivering_unclocked w s line

variable {c s} in
theorem step_unclocked (hs : ¬ c.TakesTurn s) : Agree (c.unclocked.step s) (c.step s) := by
  have hworker : c.unclocked.worker = c.worker.map Worker.unclocked := rfl
  cases s with
  | call k => exact c.call_unclocked k
  | elapse d =>
    exact ⟨congrArg (fun c : Client => { c with now := c.now + d }) c.unclocked_unclocked, rfl⟩
  | _ =>
    cases hw : c.worker with
    | none =>
      simp only [step, hworker, hw, Option.map_none]
      exact c.ignored_unclocked
    | some w =>
      simp only [step, hworker, hw, Option.map_some]
      exact c.proceed_unclocked w _ fun h => hs ⟨h.1, w, hw, h.2⟩

/-- A turn of which it is known whether it attempts to connect. -/
def turnWhen (attempts : Bool) : Client :=
  if c.shared.running then
    if w.link.isSome then (c.connectedTurn w).1
    else if attempts then (c.attempt w).1
    else c.wait w (.idle (c.now + idleSlice))
  else (c.shutdown w).1

theorem connectedTurn_unclocked :
    (c.ticked.connectedTurn w).1.unclocked =
      (c.unclocked.connectedTurn w.unclocked).1.unclocked := by
  unfold connectedTurn
  have hq : c.unclocked.shared.queue = c.ticked.shared.queue := rfl
  rw [hq]
  cases c.ticked.shared.queue.dequeue <;> rfl

theorem disconnectedTurn_unclocked :
    (c.ticked.disconnectedTurn w).1.unclocked =
      if .attempting ∈ (c.ticked.disconnectedTurn w).2 then
        (c.unclocked.attempt w.unclocked).1.unclocked
      else (c.unclocked.wait w.unclocked (.idle (c.now + idleSlice))).unclocked := by
  unfold disconnectedTurn
  split
  · rfl
  · split
    · rfl
    · rfl

theorem turn_unclocked :
    (c.turn w).1.unclocked =
      (c.unclocked.turnWhen w.unclocked (decide (.attempting ∈ (c.turn w).2))).unclocked := by
  unfold turnWhen
  have hr' : c.unclocked.shared.running = c.shared.running := rfl
  have hl' : w.unclocked.link = w.link := rfl
  rw [hr', hl']
  cases hr : c.shared.running with
  | false =>
    simp only [turn, hr]
    rfl
  | true =>
    rw [turn_of_running hr]
    cases hl : w.link with
    | some buffer => exact c.connectedTurn_unclocked (w.ticked _)
    | none =>
      simp only [Option.isSome_none, Bool.false_eq_true, if_false, if_true, decide_eq_true_eq]
      rw [c.disconnectedTurn_unclocked]
      split_ifs <;> rfl

end

section
variable {c c' : Client} {w w' : Worker} {s s' : Signal}

theorem unclocked_worker (h : c.unclocked = c'.unclocked) (hw : c.worker = some w) :
    ∃ w', c'.worker = some w' ∧ w.unclocked = w'.unclocked ∧ w.phase = w'.phase := by
  have hm := congrArg Client.worker h
  simp only [unclocked, hw, Option.map_some] at hm
  obtain ⟨w', hw', he⟩ := Option.map_eq_some_iff.1 hm.symm
  have hp := congrArg Worker.phase he
  exact ⟨w', hw', he.symm, hp.symm⟩

theorem step_agree (h : c.unclocked = c'.unclocked) (hs : ¬ c.TakesTurn s) :
    Agree (c.step s) (c'.step s) := by
  have hs' : ¬ c'.TakesTurn s := by
    rintro ⟨ht, w', hw', hb⟩
    obtain ⟨w, hw, -, hp⟩ := unclocked_worker h.symm hw'
    exact hs ⟨ht, w, hw, hp ▸ hb⟩
  obtain ⟨hc, he⟩ := step_unclocked hs
  obtain ⟨hc', he'⟩ := step_unclocked hs'
  rw [h] at hc he
  exact ⟨hc.symm.trans hc', he.symm.trans he'⟩

theorem step_agree_of_shown (h : c.unclocked = c'.unclocked) (hs : s.Alike s')
    (he : (c.step s).2 = (c'.step s').2) :
    (c.step s).1.unclocked = (c'.step s').1.unclocked := by
  cases hs with
  | clocks ms ms' => exact h
  | same =>
    by_cases ht : c.TakesTurn s
    · obtain ⟨rfl, w, hw, hb⟩ := ht
      obtain ⟨w', hw', hww, hp⟩ := unclocked_worker h hw
      obtain ⟨hc, hq⟩ := step_turn hw hb
      obtain ⟨hc', hq'⟩ := step_turn hw' (hp ▸ hb)
      have ha : .attempting ∈ (c.turn w).2 ↔ .attempting ∈ (c'.turn w').2 := by
        rw [← mem_quiet_iff rfl, ← hq, he, hq', mem_quiet_iff rfl]
      rw [hc, hc', turn_unclocked, turn_unclocked, h, hww]
      simp only [ha]
    · exact (step_agree h ht).1

theorem run_agree_of_shown {ss ss' : List Signal} (hs : List.Forall₂ Signal.Alike ss ss')
    (h : c.unclocked = c'.unclocked)
    (he : ∀ n, (c.run (ss.take n)).2 = (c'.run (ss'.take n)).2) :
    (c.run ss).1.unclocked = (c'.run ss').1.unclocked := by
  induction hs generalizing c c' with
  | nil => exact h
  | @cons s s' ss ss' hs hss ih =>
    have hstep : (c.step s).2 = (c'.step s').2 := by simpa [run_cons] using he 1
    refine ih (step_agree_of_shown h hs hstep) fun n => ?_
    have hn := he (n + 1)
    simp only [List.take_succ_cons, run_cons, hstep] at hn
    exact List.append_cancel_left hn

end

end Client

end IGate
