import IGate.Proofs.Client.Stretch
import IGate.Proofs.Client.Unclocked

/-! The delay after a failure. A worker that has failed attempts nothing more before the
milliseconds clocked since then make up the whole delay, and what was clocked before the failure
makes no difference. -/

namespace IGate

def Signal.millis : Signal → Nat
  | .call (.clock ms) => ms.toNat
  | _ => 0

def clocked : List Signal → Nat
  | [] => 0
  | s :: rest => s.millis + clocked rest

/-- The worker waits without a link for its next turn or for the end of an idle slice. -/
def Phase.waits : Phase → Bool
  | .between | .idle _ => true
  | _ => false

theorem Phase.attempt?_of_waits {p : Phase} (h : p.waits = true) : p.attempt? = none := by
  cases p <;> first | rfl | cases h

namespace Client

/-- The worker has `delay` milliseconds to wait, of which `passed` have been clocked. -/
structure WaitsOut (delay passed : Nat) (c : Client) (w : Worker) : Prop where
  worker : c.worker = some w
  link : w.link = none
  attempted : w.attempted = true
  phase : w.phase.waits = true
  running : w.backoff.running = true
  left : delay + c.shared.pending.toNat ≤ w.backoff.left.toNat + passed

section
variable {c c' : Client} {w w' : Worker} {s : Signal} {new : Trace} {delay passed : Nat}

theorem WaitsOut.keep (h : WaitsOut delay passed c w) {p : Phase} (hp : p.waits = true)
    (hw : c'.worker = some { w with phase := p })
    (hc : c'.shared.pending.toNat ≤ c.shared.pending.toNat + s.millis) :
    WaitsOut delay (passed + s.millis) c' { w with phase := p } where
  worker := hw
  link := h.link
  attempted := h.attempted
  phase := hp
  running := h.running
  left := by
    have := h.left
    simp only
    omega

/-- A worker that waits attempts to connect once its delay has passed, and until then it waits. -/
theorem Move.waitsOut (hm : Move c s c' new) (h : WaitsOut delay passed c w)
    (he : .ended ∉ new) :
    .attempting ∈ new ∧ delay ≤ passed ∨
      .attempting ∉ new ∧ ∃ w', WaitsOut delay (passed + s.millis) c' w' := by
  have hsame : ∀ {w'}, c.worker = some w' → w' = w := fun hw => by
    simpa [h.worker] using hw.symm
  have hwaits : ∀ {w'}, c.worker = some w' → w'.phase.waits = true := fun hw => by
    rw [hsame hw]
    exact h.phase
  cases hm with
  | ignored | stopRequested | accepted | rejected | sinkSet | elapsed =>
    exact .inr ⟨by simp, _, h.keep h.phase h.worker (Nat.le_add_right _ _)⟩
  | clocked ms =>
    refine .inr ⟨by simp, _, h.keep h.phase h.worker ?_⟩
    simp only [Shared.clock, UInt64.toNat_add, Signal.millis]
    exact Nat.mod_le _ _
  | started hw => cases h.worker.symm.trans hw
  | ended => simp at he
  | rested hw _ _ hl | took hw _ _ hl =>
    rw [hsame hw, h.link] at hl
    cases hl
  | attempted hw _ _ _ ha =>
    rw [hsame hw, h.attempted] at ha
    cases ha
  | reattempted hw _ _ _ _ hx =>
    obtain rfl := hsame hw
    have hleft := (Backoff.expired_clock_iff h.running).1 hx
    have := h.left
    exact .inl ⟨by simp, by omega⟩
  | dozed hw _ _ hl ha hx =>
    obtain rfl := hsame hw
    have hleft := mt (Backoff.expired_clock_iff h.running).2 (by simpa [Worker.ticked] using hx)
    refine .inr ⟨by simp, _, rfl, hl, ha, rfl, Backoff.running_clock.trans h.running, ?_⟩
    have := h.left
    simp only [Worker.ticked, Backoff.toNat_left_clock, wait, withWorker, ticked,
      UInt64.toNat_zero]
    omega
  | opened hw hp | unreached hw hp | awaited hw hp | greeted hw hp | established hw hp
  | ungreeted hw hp | loginSent hw hp | loginFlushed hw hp | loginFailed hw hp | frameSent hw hp
  | frameFlushed hw hp | frameFailed hw hp | pollWoken hw hp | pollEnded hw hp | polled hw hp
  | heard hw hp | readFailed hw hp | sinkDone hw hp =>
    have hn := hwaits hw
    rw [hp] at hn
    cases hn
  | stirred hw hp | abandoned hw hp => cases hp.symm.trans (Phase.attempt?_of_waits (hwaits hw))
  | idleEnded hw hp | idleWoken hw hp =>
    obtain rfl := hsame hw
    exact .inr ⟨by simp, _, h.keep rfl rfl (Nat.le_add_right _ _)⟩

theorem WaitsOut.run (h : WaitsOut delay passed c w) {ss : List Signal}
    (he : .ended ∉ (c.run ss).2) (ha : .attempting ∈ (c.run ss).2) :
    delay ≤ passed + clocked ss := by
  induction ss generalizing c w passed with
  | nil => simp at ha
  | cons s rest ih =>
    simp only [run_cons, List.mem_append, not_or] at he ha
    rw [clocked]
    rcases (c.step_makes s).waitsOut h (mt (mem_quiet_iff rfl).1 he.1) with
      ⟨-, hd⟩ | ⟨hn, w', h'⟩
    · omega
    · have := ih h' he.2 (ha.resolve_left (mt (mem_quiet_iff rfl).2 hn))
      omega

structure JustFailed (delay : UInt64) (c : Client) (w : Worker) : Prop
    extends WaitsOut delay.toNat 0 c w where
  pending : c.shared.pending = 0
  countdown : w.backoff.countdown = ⟨delay, delay, true⟩

theorem justFailed_scheduleReconnect (c : Client) (hl : w.link = none)
    (ha : w.attempted = true) :
    JustFailed w.backoff.fail.delay (c.scheduleReconnect w).1
      { w with backoff := w.backoff.fail, phase := .between } where
  worker := rfl
  link := hl
  attempted := ha
  phase := rfl
  running := rfl
  left := le_of_eq (Nat.add_zero _)
  pending := rfl
  countdown := rfl

/-- A failure comes between no turns, and leaves a worker with its whole delay to wait. -/
theorem Move.failed {d : UInt64} (hm : Move c s c' new) (hk : c.WellKept)
    (hf : .failed d ∈ new) :
    ∃ w, c.worker = some w ∧ w.phase.boundary = false ∧ ∃ w', JustFailed d c' w' := by
  have hattempt : ∀ {w}, c.worker = some w → w.phase.attempt?.isSome →
      ∃ w', JustFailed w.backoff.fail.delay (c.scheduleReconnect w).1 w' := by
    intro w hw hp
    obtain ⟨hl, ha⟩ := (hk.sound hw).attempted_of_attempt hp
    exact ⟨_, justFailed_scheduleReconnect c hl ha⟩
  have hlink : ∀ {w}, c.worker = some w → w.phase.linked? = some true →
      ∃ w', JustFailed w.backoff.fail.delay (c.unlinked w) w' := by
    intro w hw hp
    have hl := (hk.sound hw).linked true hp
    have ha := (hk.sound hw).attempted_of_link hl
    exact ⟨_, justFailed_scheduleReconnect (w := { w with link := none }) _ rfl ha⟩
  cases hm with
  | unreached hw hp | ungreeted hw hp | loginFailed hw hp =>
    simp at hf
    exact ⟨_, hw, by rw [hp]; rfl, hf ▸ hattempt hw (by rw [hp]; rfl)⟩
  | frameFailed hw hp | readFailed hw hp =>
    simp at hf
    exact ⟨_, hw, by rw [hp]; rfl, hf ▸ hlink hw (by rw [hp]; rfl)⟩
  | ended hw => split at hf <;> simp at hf
  | abandoned hw => split at hf <;> simp at hf
  | _ => simp at hf

theorem JustFailed.eq {delay : UInt64} (h : JustFailed delay c w) (h' : JustFailed delay c' w')
    (hc : c.unclocked = c'.unclocked) : c = c' := by
  obtain ⟨v, hv, hw, -⟩ := unclocked_worker hc h.worker
  obtain rfl : w' = v := by simpa [h'.worker] using hv
  have hworker : ∀ {c w}, JustFailed delay c w →
      w = { w.unclocked with backoff := ⟨⟨delay, delay, true⟩, w.unclocked.backoff.attempts⟩ } := by
    intro c w h
    rw [← h.countdown]
    rfl
  have hclient : ∀ {c w}, JustFailed delay c w → c = { c.unclocked with worker := some w } := by
    intro c w h
    have hs : ({ c.shared with pending := 0 } : Shared) = c.shared := by rw [← h.pending]
    rw [unclocked, hs, ← h.worker]
  have hww : w = w' := by rw [hworker h, hworker h', hw]
  rw [hclient h, hclient h', hc, hww]

theorem step_eq_of_failed {d : UInt64} (h : c.unclocked = c'.unclocked) (hk : c.WellKept)
    (hk' : c'.WellKept) (hf : .failed d ∈ (c.step s).2) : c'.step s = c.step s := by
  obtain ⟨w, hw, hb, v, hv⟩ := (c.step_makes s).failed hk ((mem_quiet_iff rfl).2 hf)
  have ht : ¬ c.TakesTurn s := by
    rintro ⟨-, w', hw', hb'⟩
    obtain rfl : w' = w := by simpa [hw] using hw'.symm
    simp [hb] at hb'
  obtain ⟨hc, he⟩ := step_agree h ht
  obtain ⟨-, -, -, v', hv'⟩ := (c'.step_makes s).failed hk' ((mem_quiet_iff rfl).2 (he ▸ hf))
  exact Prod.ext (hv'.eq hv hc.symm) he.symm

end

/-! A turn under way -/

def clock (c : Client) (ms : UInt64) : Client := { c with shared := c.shared.clock ms }

/-- The rest of a turn, once the clocked milliseconds have been taken. -/
def restOfTurn (c : Client) (w : Worker) : Step :=
  if w.link.isSome then c.connectedTurn w else c.disconnectedTurn w

theorem restOfTurn_clock (c : Client) (w : Worker) (ms : UInt64) :
    (c.clock ms).restOfTurn w = ((c.restOfTurn w).1.clock ms, (c.restOfTurn w).2) := by
  unfold restOfTurn
  split
  · have hq : (c.clock ms).shared.queue = c.shared.queue := rfl
    unfold connectedTurn
    rw [hq]
    cases c.shared.queue.dequeue <;> rfl
  · unfold disconnectedTurn
    split_ifs <;> rfl

/-- How long a worker waits after the failure that the client shows when it takes `s`. -/
structure Delayed (settings : Settings) (capacity : UInt64) (before : List Signal) (s : Signal)
    (delay : UInt64) : Prop where
  /-- The same worker attempts nothing before the delay has been clocked. -/
  kept : ∀ after, .ended ∉ ((((initial settings capacity).run before).1.step s).1.run after).2 →
    .attempting ∈ ((((initial settings capacity).run before).1.step s).1.run after).2 →
    delay.toNat ≤ clocked after
  /-- What had been clocked makes no difference. -/
  fresh : ∀ before', List.Forall₂ Signal.Alike before before' →
    (∀ n, ((initial settings capacity).run (before.take n)).2 =
      ((initial settings capacity).run (before'.take n)).2) → ∀ after,
    (((initial settings capacity).run before').1.step s).1.run after =
      (((initial settings capacity).run before).1.step s).1.run after

/-- A failure is followed by its whole delay, whenever the milliseconds are clocked. Those that are
clocked while a turn is under way count as clocked right after it. -/
theorem backoff_never_shortened (settings : Settings) (capacity : UInt64) (before : List Signal)
    (s : Signal) (delay : UInt64)
    (hf : .failed delay ∈ (((initial settings capacity).run before).1.step s).2) :
    Delayed settings capacity before s delay ∧
      ∀ (c : Client) (w : Worker) (ms : UInt64), c.shared.running = true →
        (c.ticked.clock ms).restOfTurn (w.ticked c.shared.pending) =
          ((c.turn w).1.clock ms, (c.turn w).2) := by
  have hk := run_wellKept settings capacity before
  have hm := step_makes ((initial settings capacity).run before).1 s
  obtain ⟨-, -, -, w, hw⟩ := hm.failed hk ((mem_quiet_iff rfl).2 hf)
  refine ⟨⟨fun after he ha => ?_, fun before' hs he after => ?_⟩, fun c w ms hr => ?_⟩
  · simpa using hw.toWaitsOut.run he ha
  · have hc := run_agree_of_shown hs rfl he
    rw [step_eq_of_failed hc hk (run_wellKept settings capacity before') hf]
  · rw [restOfTurn_clock, turn_of_running hr]
    rfl

/-- A refused attempt is followed by a minute, of which the 500 milliseconds that were clocked
during the attempt are no part. -/
theorem delay_after_refusal :
    .failed 60000 ∈ (((initial trialSettings 2000).run [.call .start, .turn,
      .call (.clock 500)]).1.step (.connectFailed (.system .connectionRefused))).2 ∧
      Delayed trialSettings 2000 [.call .start, .turn, .call (.clock 500)]
        (.connectFailed (.system .connectionRefused)) 60000 :=
  ⟨by decide, (backoff_never_shortened trialSettings 2000 _ _ _ (by decide)).1⟩

def clockedInParts : List Signal :=
  [.call (.clock 59999), .turn, .elapse idleSlice, .timeout, .call (.clock 1), .turn]

example : .attempting ∉ ((initial trialSettings 2000).run (refusedAttempt ++
      clockedInParts.take 5)).2.drop 3 ∧
    .attempting ∈ ((initial trialSettings 2000).run (refusedAttempt ++
      clockedInParts)).2.drop 3 := by
  decide

end Client

end IGate
