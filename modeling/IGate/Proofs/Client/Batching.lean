import IGate.Proofs.Client.Delay
import IGate.Proofs.Client.Failures

/-! Ticks that are clocked while a worker does something else wait for its next turn, which takes
all of them at once. That makes no difference to a worker that takes each tick by itself, as long as
what is pending fits in one word. -/

namespace IGate

def Signal.ticks : Signal → List UInt64
  | .call (.clock ms) => [ms]
  | _ => []

def ticks (ss : List Signal) : List UInt64 := ss.flatMap Signal.ticks

@[simp] theorem ticks_nil : ticks [] = [] := rfl

@[simp] theorem ticks_cons (s : Signal) (ss : List Signal) :
    ticks (s :: ss) = s.ticks ++ ticks ss := rfl

theorem Signal.ticks_eq_nil_or (s : Signal) :
    s.ticks = [] ∨ ∃ ms, s = .call (.clock ms) := by
  unfold Signal.ticks
  split
  · exact .inr ⟨_, rfl⟩
  · exact .inl rfl

theorem sum_ticks (ss : List Signal) : ((ticks ss).map UInt64.toNat).sum = clocked ss := by
  induction ss with
  | nil => rfl
  | cons s ss ih =>
    rw [ticks_cons, List.map_append, List.sum_append, ih, clocked]
    congr 1
    rcases s.ticks_eq_nil_or with hs | ⟨ms, rfl⟩
    · unfold Signal.ticks Signal.millis at *
      split at hs <;> simp_all
    · simp [Signal.ticks, Signal.millis]

theorem toNat_sum (mss : List UInt64) :
    mss.sum.toNat = (mss.map UInt64.toNat).sum % UInt64.size := by
  induction mss with
  | nil => rfl
  | cons ms mss ih =>
    rw [List.sum_cons, UInt64.toNat_add, ih, List.map_cons, List.sum_cons]
    simp [UInt64.size, Nat.add_mod]

/-! Amounts clocked together -/

namespace Backoff

variable {b b' : Backoff}

theorem eq_of_left (ha : b.attempts = b'.attempts) (hd : b.delay = b'.delay)
    (hr : b.running = true) (hr' : b'.running = true) (hl : b.left.toNat = b'.left.toNat) :
    b = b' := by
  obtain ⟨⟨timeout, remaining, running⟩, attempts⟩ := b
  obtain ⟨⟨timeout', remaining', running'⟩, attempts'⟩ := b'
  simp only [Backoff.running, delay, left, Countdown.left] at *
  subst hr hr' hd ha
  simp_all [UInt64.toNat_inj]

@[simp] theorem clock_zero (b : Backoff) : b.clock 0 = b := by
  cases hr : b.running with
  | false => exact clock_of_stopped hr 0
  | true => exact eq_of_left rfl delay_clock (running_clock.trans hr) hr toNat_left_clock

theorem fail_clock (b : Backoff) (ms : UInt64) : (b.clock ms).fail = b.fail := fail_congr rfl

theorem reset_clock (b : Backoff) (ms : UInt64) : (b.clock ms).reset = b.reset := by
  unfold reset clock Countdown.clock Countdown.stop
  split <;> rfl

theorem foldl_clock (b : Backoff) (mss : List UInt64) :
    (mss.foldl clock b).attempts = b.attempts ∧ (mss.foldl clock b).delay = b.delay ∧
      (mss.foldl clock b).running = b.running ∧
      (mss.foldl clock b).left.toNat = b.left.toNat - (mss.map UInt64.toNat).sum := by
  induction mss generalizing b with
  | nil => exact ⟨rfl, rfl, rfl, rfl⟩
  | cons ms mss ih =>
    obtain ⟨ha, hd, hr, hl⟩ := ih (b.clock ms)
    refine ⟨ha.trans attempts_clock, hd.trans delay_clock, hr.trans running_clock, hl.trans ?_⟩
    rw [toNat_left_clock, List.map_cons, List.sum_cons]
    omega

theorem foldl_clock_of_stopped (h : b.running = false) (mss : List UInt64) :
    mss.foldl clock b = b := by
  induction mss with
  | nil => rfl
  | cons ms mss ih => rw [List.foldl_cons, clock_of_stopped h, ih]

/-- One amount does what several do, if it leaves what they leave. -/
theorem clock_eq_foldl_iff (b : Backoff) (ms : UInt64) (mss : List UInt64) :
    b.clock ms = mss.foldl clock b ↔ (b.running = true →
      b.left.toNat - ms.toNat = b.left.toNat - (mss.map UInt64.toNat).sum) := by
  obtain ⟨ha, hd, hr, hl⟩ := b.foldl_clock mss
  cases hb : b.running with
  | false => simp [clock_of_stopped hb, foldl_clock_of_stopped hb]
  | true =>
    rw [← hl, ← toNat_left_clock]
    refine ⟨fun h _ => by rw [h], fun h => ?_⟩
    exact eq_of_left (attempts_clock.trans ha.symm) (delay_clock.trans hd.symm)
      (running_clock.trans hb) (hr.trans hb) (h rfl)

theorem clock_clock (b : Backoff) {ms ms' : UInt64} (h : ms.toNat + ms'.toNat < UInt64.size) :
    (b.clock ms).clock ms' = b.clock (ms + ms') := by
  refine ((b.clock_eq_foldl_iff (ms + ms') [ms, ms']).2 fun _ => ?_).symm
  rw [UInt64.toNat_add]
  simp only [UInt64.size] at h
  simp only [List.map_cons, List.map_nil, List.sum_cons, List.sum_nil]
  omega

/-- Words that are added up do what they do one by one, unless their sum does not fit in a word and
what is left of it is too little. -/
theorem clock_sum_eq_iff (b : Backoff) (mss : List UInt64) :
    b.clock mss.sum = mss.foldl clock b ↔ (b.running = true →
      (mss.map UInt64.toNat).sum < UInt64.size ∨
        b.left.toNat ≤ (mss.map UInt64.toNat).sum % UInt64.size) := by
  rw [clock_eq_foldl_iff, toNat_sum]
  refine imp_congr_right fun _ => ?_
  have hlt := b.left.toNat_lt
  simp only [UInt64.size]
  omega

end Backoff

namespace Client

/-- The scheduler of the worker. One to come begins with a new one. -/
def backoff (c : Client) : Backoff := (c.worker.map Worker.backoff).getD Backoff.initial

/-- The client with all that is pending taken, as at the next turn of the worker. -/
def caughtUp (c : Client) : Client :=
  { c.ticked with worker := c.worker.map (·.ticked c.shared.pending) }

/-- A step that leaves nothing pending: what is clocked is taken at once. -/
def promptStep (c : Client) (s : Signal) : Step := ((c.step s).1.caughtUp, (c.step s).2)

def promptRun (c : Client) : List Signal → Step
  | [] => (c, [])
  | s :: rest =>
    ((promptRun (c.promptStep s).1 rest).1,
      (c.promptStep s).2 ++ (promptRun (c.promptStep s).1 rest).2)

/-- What is pending always fits in one word. -/
def Contained (c : Client) : List Signal → Prop
  | [] => True
  | s :: rest => c.shared.pending.toNat + s.millis < UInt64.size ∧ (c.step s).1.Contained rest

/-- What an event makes of what is pending, and of the scheduler. -/
def settle (a : UInt64 × Backoff) : Event → UInt64 × Backoff
  | .failed _ => (0, a.2.fail)
  | .established => (a.1, a.2.reset)
  | .ended => (a.1, Backoff.initial)
  | _ => a

section
variable {c c' : Client} {w w' : Worker} {s : Signal} {ss : List Signal} {new : Trace}

theorem backoff_of_worker (hw : c.worker = some w) : c.backoff = w.backoff := by
  simp [backoff, hw]

theorem backoff_caughtUp (c : Client) :
    c.caughtUp.backoff = c.backoff.clock c.shared.pending := by
  cases hw : c.worker with
  | none => simp [backoff, caughtUp, hw, Backoff.clock_of_stopped (b := Backoff.initial) rfl]
  | some w => simp [backoff, caughtUp, hw, Worker.ticked]

theorem foldl_settle_outcomes (es : Trace) (a : UInt64 × Backoff) :
    (Trace.outcomes es).foldl settle a = es.foldl settle a := by
  induction es generalizing a with
  | nil => rfl
  | cons e es ih =>
    cases e with
    | failed | established | ended | closed => exact ih _
    | _ => rw [Trace.outcomes_cons rfl, List.foldl_cons]; exact ih a

/-- Only what settles something touches a scheduler or what is pending for it, apart from turns and
ticks. -/
theorem Move.settle (hm : Move c s c' new) (ht : ¬c.TakesTurn s) (hs : s.ticks = []) :
    (c'.shared.pending, c'.backoff) =
      (Trace.outcomes new).foldl settle (c.shared.pending, c.backoff) := by
  have hkept : ∀ {w w'}, c.worker = some w → c'.worker = some w' → w'.backoff = w.backoff →
      c'.backoff = c.backoff := fun hw hw' hb => by
    rw [backoff_of_worker hw, backoff_of_worker hw', hb]
  cases hm with
  | clocked ms => cases hs
  | ended hw hb | rested hw hb | took hw hb | attempted hw hb | reattempted hw hb | dozed hw hb =>
    exact absurd ⟨rfl, _, hw, hb⟩ ht
  | ignored | stopRequested | accepted | rejected | sinkSet | elapsed | stirred => rfl
  | started hw =>
    have hb : c.backoff = Backoff.initial := by rw [backoff, hw]; rfl
    exact Prod.ext rfl hb.symm
  | abandoned hw =>
    rw [foldl_settle_outcomes]
    split <;> exact Prod.ext rfl (hkept hw rfl rfl)
  | opened hw | loginFlushed hw | frameFlushed hw | pollWoken hw | pollEnded hw | sinkDone hw
  | idleEnded hw | idleWoken hw => exact Prod.ext rfl (hkept hw rfl rfl)
  | awaited hw | greeted hw | loginSent hw | frameSent hw | polled hw =>
    simp only [Trace.outcomes_append, Trace.outcomes_readEvents, Trace.outcomes_sentEvents]
    exact Prod.ext rfl (hkept hw rfl rfl)
  | heard hw =>
    rw [Trace.outcomes_append, Trace.outcomes_readEvents, Trace.outcomes_cons rfl,
      Trace.outcomes_deliveries]
    exact Prod.ext rfl (hkept hw rfl rfl)
  | unreached hw | loginFailed hw | frameFailed hw =>
    exact Prod.ext rfl (congrArg Backoff.fail (backoff_of_worker hw).symm)
  | ungreeted hw | readFailed hw =>
    rw [Trace.outcomes_append, Trace.outcomes_readEvents]
    exact Prod.ext rfl (congrArg Backoff.fail (backoff_of_worker hw).symm)
  | established hw =>
    rw [Trace.outcomes_append, Trace.outcomes_readEvents]
    exact Prod.ext rfl (congrArg Backoff.reset (backoff_of_worker hw).symm)

/-! Ticks taken at once -/

theorem caughtUp_eq (c : Client) : c.caughtUp = { c.unclocked with
    worker := c.unclocked.worker.map
      ({ · with backoff := c.backoff.clock c.shared.pending }) } := by
  cases hw : c.worker with
  | none => simp only [caughtUp, ticked, unclocked, hw, Option.map_none]
  | some w =>
    rw [backoff_of_worker hw]
    simp only [caughtUp, ticked, unclocked, hw, Option.map_some, Worker.ticked, Worker.unclocked]

theorem caughtUp_congr (hu : c.unclocked = c'.unclocked)
    (hb : c.backoff.clock c.shared.pending = c'.backoff.clock c'.shared.pending) :
    c.caughtUp = c'.caughtUp := by
  rw [caughtUp_eq, caughtUp_eq, hu, hb]

theorem unclocked_caughtUp (c : Client) : c.caughtUp.unclocked = c.unclocked := by
  cases hw : c.worker with
  | none => simp only [caughtUp, ticked, unclocked, hw, Option.map_none]
  | some w => simp only [caughtUp, ticked, unclocked, hw, Option.map_some, Worker.unclocked,
      Worker.ticked, Backoff.clock]

theorem clock_foldl_settle (es : Trace) {a b : UInt64 × Backoff}
    (h : a.2.clock a.1 = b.2.clock b.1) :
    (es.foldl settle a).2.clock (es.foldl settle a).1 =
      (es.foldl settle b).2.clock (es.foldl settle b).1 := by
  induction es generalizing a b with
  | nil => exact h
  | cons e es ih =>
    refine ih ?_
    cases e with
    | failed =>
      have hb : a.2.fail = b.2.fail := by
        rw [← a.2.fail_clock a.1, h, Backoff.fail_clock]
      exact congrArg (Backoff.clock · 0) hb
    | established =>
      have hb : a.2.reset = b.2.reset := by
        rw [← a.2.reset_clock a.1, h, Backoff.reset_clock]
      exact (Backoff.clock_of_stopped rfl _).trans (hb.trans (Backoff.clock_of_stopped rfl _).symm)
    | ended =>
      exact (Backoff.clock_of_stopped rfl _).trans (Backoff.clock_of_stopped rfl _).symm
    | _ => exact h

theorem restOfTurn_withWorker (c : Client) (w : Worker) (worker : Option Worker) :
    { c with worker }.restOfTurn w = c.restOfTurn w := by
  unfold restOfTurn
  split
  · unfold connectedTurn
    cases c.shared.queue.dequeue <;> rfl
  · unfold disconnectedTurn
    split_ifs <;> rfl

theorem turn_caughtUp (c : Client) (w : Worker) :
    (c.turn w).1.caughtUp = (c.caughtUp.turn (w.ticked c.shared.pending)).1.caughtUp ∧
      (c.turn w).2 = (c.caughtUp.turn (w.ticked c.shared.pending)).2 := by
  cases hr : c.shared.running with
  | false =>
    have hturn : c.turn w = c.shutdown w := by rw [turn, hr]; rfl
    have hlate : c.caughtUp.turn (w.ticked c.shared.pending) =
        c.caughtUp.shutdown (w.ticked c.shared.pending) := by
      rw [turn, show c.caughtUp.shared.running = false from hr]
      rfl
    rw [hturn, hlate]
    exact ⟨rfl, rfl⟩
  | true =>
    have hzero : ∀ v : Worker, v.ticked 0 = v := fun v => by
      rw [Worker.ticked, Backoff.clock_zero]
    have hturn : c.turn w = c.ticked.restOfTurn (w.ticked c.shared.pending) :=
      turn_of_running hr
    have hlate : c.caughtUp.turn (w.ticked c.shared.pending) =
        c.caughtUp.restOfTurn (w.ticked c.shared.pending) := by
      have hr' : c.caughtUp.shared.running = true := hr
      rw [turn_of_running hr', show c.caughtUp.shared.pending = 0 from rfl, hzero]
      rfl
    rw [hturn, hlate, caughtUp, restOfTurn_withWorker]
    exact ⟨rfl, rfl⟩

/-- A step after which everything is taken is one before which everything was. -/
theorem step_caughtUp (c : Client) (s : Signal)
    (hc : c.shared.pending.toNat + s.millis < UInt64.size) :
    (c.step s).1.caughtUp = (c.caughtUp.step s).1.caughtUp ∧
      (c.step s).2 = (c.caughtUp.step s).2 := by
  rcases s.ticks_eq_nil_or with hs | ⟨ms, rfl⟩
  · by_cases ht : c.TakesTurn s
    · obtain ⟨rfl, w, hw, hb⟩ := ht
      have hw' : c.caughtUp.worker = some (w.ticked c.shared.pending) := by simp [caughtUp, hw]
      have hphase : (w.ticked c.shared.pending).phase = w.phase := rfl
      obtain ⟨hstate, hevents⟩ := c.turn_caughtUp w
      simp only [step, hw, hw', proceed, hphase]
      cases hp : w.phase with
      | fresh => exact ⟨hstate, congrArg (_ :: ·) hevents⟩
      | between => exact ⟨hstate, hevents⟩
      | _ => simp [hp, Phase.boundary] at hb
    · have hu := c.unclocked_caughtUp
      obtain ⟨hstate, hevents⟩ := step_agree hu.symm ht
      have ht' : ¬c.caughtUp.TakesTurn s := by
        rintro ⟨hturn, v, hv, hb⟩
        obtain ⟨w, hw, -, hp⟩ := unclocked_worker hu hv
        exact ht ⟨hturn, w, hw, hp ▸ hb⟩
      have hclock := (c.step_makes s).settle ht hs
      have hclock' := (c.caughtUp.step_makes s).settle ht' hs
      rw [← hevents] at hclock'
      have hsame := clock_foldl_settle (Trace.outcomes (Trace.quiet (c.step s).2))
        (a := (c.shared.pending, c.backoff)) (b := (0, c.caughtUp.backoff))
        (by rw [backoff_caughtUp, Backoff.clock_zero])
      refine ⟨caughtUp_congr hstate ?_, hevents⟩
      rw [← hclock] at hsame
      exact hsame.trans (congrArg (fun a => a.2.clock a.1) hclock').symm
  · refine ⟨caughtUp_congr c.unclocked_caughtUp.symm ?_, rfl⟩
    have hms : (Signal.call (.clock ms)).millis = ms.toNat := rfl
    rw [hms] at hc
    have hb := (c.backoff.clock_clock hc).symm
    rw [← backoff_caughtUp] at hb
    rw [show ((c.caughtUp.step (.call (.clock ms))).1).shared.pending = ms from UInt64.zero_add _]
    exact hb

theorem run_caughtUp (h : c.Contained ss) :
    (c.run ss).1.caughtUp = (c.caughtUp.promptRun ss).1 ∧
      (c.run ss).2 = (c.caughtUp.promptRun ss).2 := by
  induction ss generalizing c with
  | nil => exact ⟨rfl, rfl⟩
  | cons s ss ih =>
    obtain ⟨hstate, hevents⟩ := c.step_caughtUp s h.1
    obtain ⟨hlast, hmore⟩ := ih h.2
    rw [hstate] at hlast hmore
    exact ⟨hlast, congrArg₂ (· ++ ·) hevents hmore⟩

/-! Ticks between two turns -/

theorem step_clock (c : Client) (ms : UInt64) :
    (c.step (.call (.clock ms))).1.shared.pending = c.shared.pending + ms ∧
      (c.step (.call (.clock ms))).1.backoff = c.backoff := ⟨rfl, rfl⟩

/-- From one turn to the next all that is clocked is added up, and the scheduler stays as it is,
unless a failure or a login comes in between. -/
theorem run_pending (ht : c.Turnless ss) (ho : Trace.outcomes (c.run ss).2 = []) :
    (c.run ss).1.shared.pending = c.shared.pending + (ticks ss).sum ∧
      (c.run ss).1.backoff = c.backoff := by
  induction ss generalizing c with
  | nil => exact ⟨(UInt64.add_zero _).symm, rfl⟩
  | cons s ss ih =>
    rw [run_cons, Trace.outcomes_append, List.append_eq_nil_iff] at ho
    obtain ⟨hpending, hbackoff⟩ := ih ht.2 ho.2
    obtain ⟨hp, hb⟩ : (c.step s).1.shared.pending = c.shared.pending + s.ticks.sum ∧
        (c.step s).1.backoff = c.backoff := by
      rcases s.ticks_eq_nil_or with hs | ⟨ms, rfl⟩
      · have hstep := (c.step_makes s).settle ht.1 hs
        rw [Trace.outcomes_quiet, ho.1, List.foldl_nil, Prod.mk.injEq] at hstep
        rw [hs, List.sum_nil, UInt64.add_zero]
        exact hstep
      · obtain ⟨hp, hb⟩ := c.step_clock ms
        refine ⟨hp.trans ?_, hb⟩
        rw [Signal.ticks, List.sum_cons, List.sum_nil, UInt64.add_zero]
    rw [run_cons]
    refine ⟨hpending.trans ?_, hbackoff.trans hb⟩
    rw [hp, ticks_cons, List.sum_append, UInt64.add_assoc]

/-- A turn begins by taking what is pending. A countdown that is over is then stopped for an
attempt. -/
structure Takes (c : Client) : Prop where
  pending : (c.step .turn).1.shared.pending = 0
  backoff : (c.step .turn).1.backoff = c.caughtUp.backoff ∨
    (c.step .turn).1.backoff = c.caughtUp.backoff.stop ∧ c.caughtUp.backoff.expired = true ∧
      .attempting ∈ (c.step .turn).2

theorem restOfTurn_backoff (c : Client) (w : Worker) :
    (c.restOfTurn w).1.shared.pending = c.shared.pending ∧
      ((c.restOfTurn w).1.backoff = w.backoff ∨ (c.restOfTurn w).1.backoff = w.backoff.stop ∧
        w.backoff.expired = true ∧ .attempting ∈ (c.restOfTurn w).2) := by
  unfold restOfTurn
  split
  · unfold connectedTurn
    cases c.shared.queue.dequeue <;> exact ⟨rfl, .inl rfl⟩
  · unfold disconnectedTurn
    split_ifs with ha he
    · exact ⟨rfl, .inl rfl⟩
    · exact ⟨rfl, .inr ⟨rfl, he, List.mem_singleton_self _⟩⟩
    · exact ⟨rfl, .inl rfl⟩

theorem takes_of_boundary (hw : c.worker = some w) (hb : w.phase.boundary = true)
    (hr : c.shared.running = true) : c.Takes := by
  obtain ⟨hstate, hevents⟩ := step_turn hw hb
  have hturn : c.turn w = c.ticked.restOfTurn (w.ticked c.shared.pending) := turn_of_running hr
  have htaken : c.caughtUp.backoff = (w.ticked c.shared.pending).backoff := by
    rw [backoff_caughtUp, backoff_of_worker hw]
    rfl
  obtain ⟨hp, hbackoff⟩ := c.ticked.restOfTurn_backoff (w.ticked c.shared.pending)
  rw [← hturn, ← hstate] at hp hbackoff
  rw [← htaken, ← mem_quiet_iff rfl, ← hevents, mem_quiet_iff rfl] at hbackoff
  exact ⟨hp, hbackoff⟩

/-- What the next turn makes of the ticks in `ss`, and of those that were pending before. -/
structure Batch (c : Client) (ss : List Signal) : Prop where
  taken : (c.run ss).1.caughtUp.backoff = c.backoff.clock (c.shared.pending :: ticks ss).sum
  /-- A countdown moves as by one tick after the other just when the sum of all fits in a word, or
  what is left of the sum is enough. -/
  exact_iff : (c.run ss).1.caughtUp.backoff =
      (c.shared.pending :: ticks ss).foldl Backoff.clock c.backoff ↔
    (c.backoff.running = true → c.shared.pending.toNat + clocked ss < UInt64.size ∨
      c.backoff.left.toNat ≤ (c.shared.pending.toNat + clocked ss) % UInt64.size)
  left : c.shared.pending.toNat + clocked ss < UInt64.size →
    (c.run ss).1.caughtUp.backoff.left.toNat =
      c.backoff.left.toNat - (c.shared.pending.toNat + clocked ss)
  takes : ∀ w, (c.run ss).1.worker = some w → w.phase.boundary = true →
    (c.run ss).1.shared.running = true → (c.run ss).1.Takes

theorem batch_of_turnless (ht : c.Turnless ss) (ho : Trace.outcomes (c.run ss).2 = []) :
    Batch c ss := by
  obtain ⟨hpending, hbackoff⟩ := run_pending ht ho
  have htaken : (c.run ss).1.caughtUp.backoff =
      c.backoff.clock (c.shared.pending :: ticks ss).sum := by
    rw [backoff_caughtUp, hpending, hbackoff, List.sum_cons]
  have hsum : ((c.shared.pending :: ticks ss).map UInt64.toNat).sum =
      c.shared.pending.toNat + clocked ss := by
    rw [List.map_cons, List.sum_cons, sum_ticks]
  refine ⟨htaken, ?_, fun hlt => ?_, fun w hw hb hr => takes_of_boundary hw hb hr⟩
  · rw [htaken, Backoff.clock_sum_eq_iff, hsum]
  · rw [htaken, Backoff.toNat_left_clock, toNat_sum, hsum, Nat.mod_eq_of_lt hlt]

/-! A delay that is waited out -/

theorem Move.outcomes_of_waits (hm : Move c s c' new) (hw : c.worker = some w)
    (hp : w.phase.waits = true) (ht : ¬c.TakesTurn s) : Trace.outcomes new = [] := by
  have hwaits : ∀ {v}, c.worker = some v → v.phase.waits = true := fun hv =>
    Option.some.inj (hv.symm.trans hw) ▸ hp
  cases hm with
  | ignored | stopRequested | accepted | rejected | clocked | sinkSet | elapsed | idleEnded
  | idleWoken => rfl
  | started hn => cases hn.symm.trans hw
  | ended hv hb | rested hv hb | took hv hb | attempted hv hb | reattempted hv hb | dozed hv hb =>
    exact absurd ⟨rfl, _, hv, hb⟩ ht
  | stirred hv hp | abandoned hv hp => cases hp.symm.trans (Phase.attempt?_of_waits (hwaits hv))
  | opened hv hp | unreached hv hp | awaited hv hp | greeted hv hp | established hv hp
  | ungreeted hv hp | loginSent hv hp | loginFlushed hv hp | loginFailed hv hp | frameSent hv hp
  | frameFlushed hv hp | frameFailed hv hp | pollWoken hv hp | pollEnded hv hp | polled hv hp
  | heard hv hp | readFailed hv hp | sinkDone hv hp =>
    have hn := hwaits hv
    rw [hp] at hn
    cases hn

/-- What is left of the delay is what has not been clocked of it. -/
structure CountsOff (delay passed : Nat) (c : Client) (w : Worker) : Prop
    extends WaitsOut delay passed c w where
  rest : w.backoff.left.toNat - c.shared.pending.toNat = delay - passed

variable {delay passed : Nat}

theorem CountsOff.attempting_iff (h : CountsOff delay passed c w) (hb : w.phase.boundary = true)
    (hr : c.shared.running = true) : .attempting ∈ (c.step .turn).2 ↔ delay ≤ passed := by
  rw [attempting_step_turn_iff h.worker hb hr, Backoff.expired_clock_iff h.running]
  have hrest := h.rest
  simp only [h.link, h.attempted, Bool.true_eq_false, true_and, false_or]
  omega

/-- A waiting worker goes on counting until it attempts to connect. -/
theorem CountsOff.step (h : CountsOff delay passed c w)
    (hc : c.shared.pending.toNat + s.millis < UInt64.size) (he : .ended ∉ (c.step s).2)
    (ha : .attempting ∉ (c.step s).2) :
    ∃ w', CountsOff delay (passed + s.millis) (c.step s).1 w' := by
  have hm := c.step_makes s
  obtain ⟨-, w', hw'⟩ := (hm.waitsOut h.toWaitsOut (mt (mem_quiet_iff rfl).1 he)).resolve_left
    fun hattempt => ha ((mem_quiet_iff rfl).1 hattempt.1)
  refine ⟨w', hw', ?_⟩
  have hrest := h.rest
  rcases s.ticks_eq_nil_or with hs | ⟨ms, rfl⟩
  · have hzero : s.millis = 0 := by
      have hsum := sum_ticks [s]
      rw [ticks_cons, hs] at hsum
      exact hsum.symm
    rw [hzero, Nat.add_zero]
    by_cases ht : c.TakesTurn s
    · obtain ⟨rfl, v, hv, hb⟩ := ht
      obtain rfl := Option.some.inj (hv.symm.trans h.worker)
      cases hr : c.shared.running with
      | true =>
        have hidle := step_turn_idle hv hb hr h.link ha
        have hwait := hw'.worker
        rw [hidle] at hwait ⊢
        cases hwait
        rw [← hrest]
        exact Backoff.toNat_left_clock
      | false =>
        refine absurd ((mem_quiet_iff rfl).1 ?_) he
        rw [(step_turn hv hb).2, turn, hr, if_neg Bool.false_ne_true, quiet_shutdown]
        simp
    · have hstep := hm.settle ht hs
      rw [hm.outcomes_of_waits h.worker h.phase ht, List.foldl_nil, Prod.mk.injEq,
        backoff_of_worker h.worker, backoff_of_worker hw'.worker] at hstep
      rw [hstep.1, hstep.2, hrest]
  · have hsame : w' = w := Option.some.inj (hw'.worker.symm.trans h.worker)
    have hms : (Signal.call (.clock ms)).millis = ms.toNat := rfl
    rw [hms] at hc ⊢
    rw [hsame, (c.step_clock ms).1, UInt64.toNat_add]
    simp only [UInt64.size] at hc
    omega

theorem CountsOff.run (h : CountsOff delay passed c w) (hc : c.Contained ss)
    (he : .ended ∉ (c.run ss).2) (ha : .attempting ∉ (c.run ss).2) :
    ∃ w', CountsOff delay (passed + clocked ss) (c.run ss).1 w' := by
  induction ss generalizing c w passed with
  | nil => exact ⟨w, h⟩
  | cons s ss ih =>
    rw [run_cons, List.mem_append, not_or] at he ha
    obtain ⟨v, hv⟩ := h.step hc.1 he.1 ha.1
    obtain ⟨w', hw'⟩ := ih hv hc.2 he.2 ha.2
    rw [Nat.add_assoc] at hw'
    exact ⟨w', hw'⟩

theorem JustFailed.countsOff {delay : UInt64} (h : JustFailed delay c w) :
    CountsOff delay.toNat 0 c w where
  toWaitsOut := h.toWaitsOut
  rest := by
    rw [h.pending, Backoff.left, h.countdown]
    rfl

structure Batched (c : Client) : Prop where
  /-- While all that is pending fits in a word, nothing shows that it was not taken at once. -/
  prompt : ∀ ss, c.Contained ss → (c.run ss).1.caughtUp = (c.caughtUp.promptRun ss).1 ∧
    (c.run ss).2 = (c.caughtUp.promptRun ss).2
  batch : ∀ ss, c.Turnless ss → Trace.outcomes (c.run ss).2 = [] → Batch c ss
  less : ∀ ss ss', c.Turnless ss → c.Turnless ss' → Trace.outcomes (c.run ss).2 = [] →
    Trace.outcomes (c.run ss').2 = [] → clocked ss ≤ clocked ss' →
    c.shared.pending.toNat + clocked ss' < UInt64.size →
    (c.run ss').1.caughtUp.backoff.left.toNat ≤ (c.run ss).1.caughtUp.backoff.left.toNat
  /-- After a failure the first turn with all of the delay clocked attempts to connect. -/
  due : ∀ {delay w}, JustFailed delay c w → ∀ ss, c.Contained ss → .ended ∉ (c.run ss).2 →
    .attempting ∉ (c.run ss).2 → (c.run ss).1.TakesTurn .turn →
    (c.run ss).1.shared.running = true →
    (.attempting ∈ ((c.run ss).1.step .turn).2 ↔ delay.toNat ≤ clocked ss)

theorem ticks_batched (c : Client) : Batched c where
  prompt := fun _ h => run_caughtUp h
  batch := fun _ ht ho => batch_of_turnless ht ho
  less := by
    intro ss ss' ht ht' ho ho' hle hlt
    rw [(batch_of_turnless ht ho).left (by omega), (batch_of_turnless ht' ho').left hlt]
    omega
  due := by
    rintro delay w h ss hc he ha ⟨-, v, hv, hb⟩ hr
    obtain ⟨w', hw'⟩ := h.countsOff.run hc he ha
    obtain rfl := Option.some.inj (hw'.worker.symm.trans hv)
    rw [hw'.attempting_iff hb hr, Nat.zero_add]

def wrapping : List Signal := [.call (.clock 18446744073709551615), .call (.clock 1)]

/-- Two amounts are clocked after a refused attempt, the first alone more than its delay.
Together they count for nothing. -/
theorem wrapped_ticks_lost :
    ((initial trialSettings 2000).run refusedAttempt).1.Turnless wrapping ∧
      Trace.outcomes (((initial trialSettings 2000).run refusedAttempt).1.run wrapping).2 = [] ∧
      ((ticks wrapping).foldl Backoff.clock
        ((initial trialSettings 2000).run refusedAttempt).1.caughtUp.backoff).left = 0 ∧
      (((initial trialSettings 2000).run refusedAttempt).1.run wrapping).1.caughtUp.backoff.left =
        60000 ∧
      (((initial trialSettings 2000).run refusedAttempt).1.run
        (wrapping.take 1)).1.caughtUp.backoff.left = 0 ∧
      .attempting ∉ ((((initial trialSettings 2000).run refusedAttempt).1.run
        wrapping).1.step .turn).2 ∧
      .attempting ∈ ((((initial trialSettings 2000).run refusedAttempt).1.run
        (wrapping.take 1)).1.step .turn).2 := by
  refine ⟨⟨nofun, nofun, trivial⟩, rfl, ?_, ?_, ?_, ?_, ?_⟩ <;> decide +kernel

end

end Client

end IGate
