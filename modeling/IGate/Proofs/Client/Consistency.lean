import IGate.Proofs.Client.Move
import IGate.Proofs.Countdown

/-! The link, the countdown and what is published of them fit together whenever a worker is between
two turns, so a worker without a link tries again now or when its countdown is over. -/

namespace IGate

/-- Whether there is a link, in the phases that tell. -/
def Phase.linked? : Phase → Option Bool
  | .between => none
  | .sending _ | .polling _ | .delivering _ => some true
  | _ => some false

namespace Client

/-- The countdown to the next attempt runs and is published. -/
structure Scheduled (s : Shared) (b : Backoff) : Prop where
  running : b.running = true
  counted : 1 ≤ b.attempts ∧ b.attempts ≤ maxAttempts
  delay : b.delay.toNat = b.attempts * 60000
  left : b.left.toNat ≤ b.delay.toNat
  attempts : s.attempts = b.attempts
  published : s.delay = b.delay

/-- What always holds of a worker and of what it shares. -/
structure Sound (s : Shared) (w : Worker) : Prop where
  linked : ∀ b, w.phase.linked? = some b → w.link.isSome = b
  fresh : w.attempted = false ↔ w.phase = .fresh
  connected : s.connected = w.link.isSome
  settled : w.link.isSome → w.backoff.running = false ∧ w.backoff.attempts = 0 ∧
    s.attempts = 0 ∧ s.delay = 0
  scheduled : s.running = true → w.link = none →
    (w.phase = .between ∨ ∃ deadline, w.phase = .idle deadline) → Scheduled s w.backoff

def WellKept (c : Client) : Prop :=
  match c.worker with
  | none => c.shared.connected = false
  | some w => Sound c.shared w

theorem scheduled_fail (s : Shared) (b : Backoff) :
    Scheduled { s with pending := 0, attempts := b.fail.attempts, delay := b.fail.delay }
      b.fail where
  running := rfl
  counted := ⟨Backoff.one_le_attempts_fail, Backoff.attempts_fail_le⟩
  delay := Backoff.toNat_delay_fail
  left := by rw [Backoff.left_fail]
  attempts := rfl
  published := rfl

theorem Scheduled.clock {s : Shared} {b : Backoff} (h : Scheduled s b) (ms : UInt64) :
    Scheduled { s with pending := 0 } (b.clock ms) where
  running := by simp [h.running]
  counted := h.counted
  delay := by simp [h.delay]
  left := by
    have := h.left
    simp only [Backoff.toNat_left_clock, Backoff.delay_clock]
    omega
  attempts := h.attempts
  published := by simp [h.published]

theorem Scheduled.congr {s s' : Shared} {b : Backoff} (h : Scheduled s b)
    (ha : s'.attempts = s.attempts) (hd : s'.delay = s.delay) : Scheduled s' b where
  running := h.running
  counted := h.counted
  delay := h.delay
  left := h.left
  attempts := ha.trans h.attempts
  published := hd.trans h.published

namespace Sound

variable {s s' : Shared} {w : Worker}

theorem initial (hc : s.connected = false) : Sound s Worker.initial where
  linked := by rintro b ⟨⟩; rfl
  fresh := ⟨fun _ => rfl, fun _ => rfl⟩
  connected := hc
  settled := nofun
  scheduled := by rintro - - (h | ⟨_, h⟩) <;> cases h

theorem congr (h : Sound s w) (hc : s'.connected = s.connected) (ha : s'.attempts = s.attempts)
    (hd : s'.delay = s.delay) (hr : s'.running = true → s.running = true) : Sound s' w where
  linked := h.linked
  fresh := h.fresh
  connected := hc.trans h.connected
  settled := fun hl => ha ▸ hd ▸ h.settled hl
  scheduled := fun hr' hl hp => (h.scheduled (hr hr') hl hp).congr ha hd

theorem onLink (h : Sound s w) {w' : Worker} (hl : w.link.isSome) (hl' : w'.link.isSome)
    (ha : w'.attempted = true) (hp : w'.phase.linked? ≠ some false)
    (hr : w'.backoff.running = w.backoff.running)
    (hn : w'.backoff.attempts = w.backoff.attempts) : Sound s w' where
  linked := by
    intro b hb
    cases b with
    | true => exact hl'
    | false => exact absurd hb hp
  fresh := by
    constructor
    · intro hf
      simp [ha] at hf
    · intro hf
      exact absurd (by rw [hf]; rfl) hp
  connected := h.connected.trans (by rw [hl, hl'])
  settled := fun _ => hr ▸ hn ▸ h.settled hl
  scheduled := fun _ hn => by simp [hn] at hl'

theorem onAttempt {w' : Worker} (hc : s.connected = false) (hl : w'.link = none)
    (ha : w'.attempted = true) (hp : w'.phase.attempt?.isSome) : Sound s w' where
  linked := by
    intro b hb
    cases hw : w'.phase <;> simp_all [Phase.attempt?, Phase.linked?]
  fresh := by
    constructor
    · intro hf
      simp [ha] at hf
    · intro hf
      simp [hf, Phase.attempt?] at hp
  connected := by simp [hc, hl]
  settled := fun h => by simp [hl] at h
  scheduled := by
    rintro - - (h | ⟨_, h⟩) <;> simp [h, Phase.attempt?] at hp

theorem onSchedule {w' : Worker} (hc : s.connected = false) (hl : w'.link = none)
    (ha : w'.attempted = true) (hp : w'.phase = .between ∨ ∃ deadline, w'.phase = .idle deadline)
    (hs : s.running = true → Scheduled s w'.backoff) : Sound s w' where
  linked := by
    intro b hb
    rcases hp with hp | ⟨_, hp⟩ <;> simp_all [Phase.linked?]
  fresh := by
    constructor
    · intro hf
      simp [ha] at hf
    · intro hf
      rcases hp with hp | ⟨_, hp⟩ <;> simp [hf] at hp
  connected := by simp [hc, hl]
  settled := fun h => by simp [hl] at h
  scheduled := fun hr _ _ => hs hr

theorem connected_of_unlinked (h : Sound s w) (hl : w.link = none) : s.connected = false := by
  simpa [hl] using h.connected

theorem attempted_of_ne_fresh (h : Sound s w) (hp : w.phase ≠ .fresh) : w.attempted = true := by
  by_contra ha
  exact hp (h.fresh.1 (by simpa using ha))

theorem attempted_of_attempt (h : Sound s w) (hp : w.phase.attempt?.isSome) :
    w.link = none ∧ w.attempted = true := by
  have hl := h.linked false (by cases hw : w.phase <;> simp_all [Phase.attempt?, Phase.linked?])
  have hf : w.phase ≠ .fresh := fun hf => by simp [hf, Phase.attempt?] at hp
  exact ⟨by simpa using hl, h.attempted_of_ne_fresh hf⟩

theorem attempted_of_link (h : Sound s w) (hl : w.link.isSome) : w.attempted = true := by
  refine h.attempted_of_ne_fresh fun hp => ?_
  have := h.linked false (by rw [hp]; rfl)
  simp [hl] at this

theorem scheduled_of_boundary (h : Sound s w) (hr : s.running = true) (hl : w.link = none)
    (ha : w.attempted = true) (hp : w.phase.boundary = true) : Scheduled s w.backoff := by
  refine h.scheduled hr hl (.inl ?_)
  have hf : w.phase ≠ .fresh := fun hf => by simp [h.fresh.2 hf] at ha
  cases hw : w.phase <;> simp_all [Phase.boundary]

end Sound

theorem WellKept.sound {c : Client} {w : Worker} (h : c.WellKept) (hw : c.worker = some w) :
    Sound c.shared w := by
  simpa [WellKept, hw] using h

theorem Sound.wellKept {c : Client} {w : Worker} (h : Sound c.shared w)
    (hw : c.worker = some w) : c.WellKept := by
  simpa [WellKept, hw] using h

theorem WellKept.congr {c : Client} (h : c.WellKept) {shared : Shared}
    (hc : shared.connected = c.shared.connected) (ha : shared.attempts = c.shared.attempts)
    (hd : shared.delay = c.shared.delay)
    (hr : shared.running = true → c.shared.running = true) : WellKept { c with shared } := by
  unfold WellKept at h ⊢
  cases hw : c.worker with
  | none =>
    rw [hw] at h
    exact hc.trans h
  | some w =>
    rw [hw] at h
    exact Sound.congr h hc ha hd hr

theorem WellKept.scheduleReconnect {c : Client} (h : c.WellKept) {w : Worker}
    (hw : c.worker = some w) (hp : w.phase.attempt?.isSome) :
    (c.scheduleReconnect w).1.WellKept := by
  obtain ⟨hl, ha⟩ := (h.sound hw).attempted_of_attempt hp
  have hc := (h.sound hw).connected_of_unlinked hl
  refine Sound.wellKept ?_ rfl
  exact .onSchedule hc hl ha (.inl rfl) fun _ => scheduled_fail _ _

theorem WellKept.unlinked {c : Client} (h : c.WellKept) {w : Worker} (hw : c.worker = some w)
    (hl : w.link.isSome) : (c.unlinked w).WellKept := by
  have ha := (h.sound hw).attempted_of_link hl
  refine Sound.wellKept ?_ rfl
  exact .onSchedule rfl rfl ha (.inl rfl) fun _ => scheduled_fail _ _

theorem WellKept.waitAttempt {c : Client} (h : c.WellKept) {w : Worker} (hw : c.worker = some w)
    (hp : w.phase.attempt?.isSome) {p : Phase} (hp' : p.attempt?.isSome) :
    (c.wait w p).WellKept := by
  obtain ⟨hl, ha⟩ := (h.sound hw).attempted_of_attempt hp
  refine Sound.wellKept ?_ rfl
  exact .onAttempt ((h.sound hw).connected_of_unlinked hl) hl ha hp'

theorem WellKept.waitLink {c : Client} (h : c.WellKept) {w : Worker} (hw : c.worker = some w)
    (hp : w.phase.linked? = some true) {p : Phase} (hp' : p.linked? ≠ some false) :
    (c.wait w p).WellKept := by
  have hl := (h.sound hw).linked true hp
  refine Sound.wellKept ?_ rfl
  exact (h.sound hw).onLink hl hl ((h.sound hw).attempted_of_link hl) hp' rfl rfl

theorem WellKept.turnLink {c c' : Client} (h : c.WellKept) {w : Worker} {ms : UInt64} {p : Phase}
    (hw : c.worker = some w) (hl : w.link.isSome)
    (hw' : c'.worker = some { w.ticked ms with phase := p }) (hp : p.linked? ≠ some false)
    (hc : c'.shared.connected = c.shared.connected)
    (ha : c'.shared.attempts = c.shared.attempts) (hd : c'.shared.delay = c.shared.delay)
    (hr : c'.shared.running = true → c.shared.running = true) : c'.WellKept := by
  have hs := (h.sound hw).congr hc ha hd hr
  have hf := hs.attempted_of_link hl
  refine Sound.wellKept ?_ hw'
  exact hs.onLink hl hl hf hp Backoff.running_clock rfl

theorem WellKept.waitSchedule {c : Client} (h : c.WellKept) {w : Worker} (hw : c.worker = some w)
    {deadline : Duration} (hp : w.phase = .idle deadline) : (c.wait w .between).WellKept := by
  have hs := h.sound hw
  have hl : w.link = none := by simpa using hs.linked false (by rw [hp]; rfl)
  have ha := hs.attempted_of_ne_fresh (by rw [hp]; nofun)
  refine Sound.wellKept ?_ rfl
  exact .onSchedule (hs.connected_of_unlinked hl) hl ha (.inl rfl)
    fun hr => hs.scheduled hr hl (.inr ⟨_, hp⟩)

theorem phaseFor_linked (c : Client) (line : String) :
    (c.phaseFor line).linked? ≠ some false := by
  rcases c.phaseFor_eq_or line with h | h <;> rw [h] <;> nofun

theorem Move.wellKept {c c' : Client} {s : Signal} {es : Trace} (hm : Move c s c' es)
    (h : c.WellKept) : c'.WellKept := by
  cases hm with
  | ignored => exact h
  | started hw =>
    simp only [WellKept, hw] at h
    exact Sound.initial h
  | stopRequested => exact h.congr rfl rfl rfl nofun
  | accepted => exact h.congr rfl rfl rfl id
  | rejected => exact h
  | clocked => exact h.congr rfl rfl rfl id
  | sinkSet => exact h.congr rfl rfl rfl id
  | elapsed => exact h
  | ended => rfl
  | rested hw _ _ hl => exact h.turnLink hw hl rfl nofun rfl rfl rfl id
  | took hw _ _ hl => exact h.turnLink hw hl rfl nofun rfl rfl rfl id
  | attempted hw _ _ hl =>
    have hc := (h.sound hw).connected_of_unlinked hl
    refine Sound.wellKept ?_ rfl
    exact .onAttempt hc hl rfl rfl
  | reattempted hw _ _ hl =>
    have hc := (h.sound hw).connected_of_unlinked hl
    refine Sound.wellKept ?_ rfl
    exact .onAttempt hc hl rfl rfl
  | dozed hw hp hr hl ha =>
    have hc := (h.sound hw).connected_of_unlinked hl
    have hs := (h.sound hw).scheduled_of_boundary hr hl ha hp
    refine Sound.wellKept ?_ rfl
    exact .onSchedule hc hl ha (.inr ⟨_, rfl⟩) fun _ => hs.clock _
  | opened hw hp => exact h.waitAttempt hw (by rw [hp]; rfl) rfl
  | unreached hw hp => exact h.scheduleReconnect hw (by rw [hp]; rfl)
  | stirred => exact h.congr rfl rfl rfl id
  | abandoned hw hp hr =>
    obtain ⟨hl, ha⟩ := (h.sound hw).attempted_of_attempt (by rw [hp]; rfl)
    have hc := (h.sound hw).connected_of_unlinked hl
    refine Sound.wellKept ?_ rfl
    refine .onSchedule hc hl ha (.inl rfl) fun hr' => ?_
    exact absurd (hr.symm.trans hr') nofun
  | awaited hw hp => exact h.waitAttempt hw (by rw [hp]; rfl) rfl
  | greeted hw hp => exact h.waitAttempt hw (by rw [hp]; rfl) rfl
  | established hw hp =>
    obtain ⟨-, ha⟩ := (h.sound hw).attempted_of_attempt (by rw [hp]; rfl)
    refine Sound.wellKept ?_ rfl
    exact ⟨nofun, by simp [ha], rfl, fun _ => ⟨rfl, rfl, rfl, rfl⟩, nofun⟩
  | ungreeted hw hp => exact h.scheduleReconnect hw (by rw [hp]; rfl)
  | loginSent hw hp => exact h.waitAttempt hw (by rw [hp]; rfl) rfl
  | loginFlushed hw hp => exact h.waitAttempt hw (by rw [hp]; rfl) rfl
  | loginFailed hw hp => exact h.scheduleReconnect hw (by rw [hp]; rfl)
  | frameSent hw hp => exact h.waitLink hw (by rw [hp]; rfl) nofun
  | frameFlushed hw hp => exact h.waitLink hw (by rw [hp]; rfl) nofun
  | frameFailed hw hp => exact h.unlinked hw ((h.sound hw).linked true (by rw [hp]; rfl))
  | pollWoken hw hp =>
    have hk : c.roused.WellKept := h.congr rfl rfl rfl id
    exact hk.waitLink hw (by rw [hp]; rfl) nofun
  | pollEnded hw hp => exact h.waitLink hw (by rw [hp]; rfl) nofun
  | polled hw hp hl =>
    have hl' := (h.sound hw).linked true (by rw [hp]; rfl)
    have ha := (h.sound hw).attempted_of_link hl'
    refine Sound.wellKept ?_ rfl
    exact (h.sound hw).onLink hl' rfl ha (by simp [hp, Phase.linked?]) rfl rfl
  | @heard w _ _ _ raw rest hw hp hl =>
    have hl' := (h.sound hw).linked true (by rw [hp]; rfl)
    have ha := (h.sound hw).attempted_of_link hl'
    refine Sound.wellKept ?_ rfl
    refine (h.sound hw).onLink hl' rfl ha ?_ rfl rfl
    exact phaseFor_linked _ _
  | readFailed hw hp => exact h.unlinked hw ((h.sound hw).linked true (by rw [hp]; rfl))
  | sinkDone hw hp => exact h.waitLink hw (by rw [hp]; rfl) nofun
  | idleEnded hw hp =>
    exact h.waitSchedule hw hp
  | idleWoken hw hp =>
    have hk : c.roused.WellKept := h.congr rfl rfl rfl id
    exact hk.waitSchedule hw hp

theorem WellKept.run {c : Client} (h : c.WellKept) (ss : List Signal) : (c.run ss).1.WellKept := by
  let P : Client → Trace → Prop := fun c _ => c.WellKept
  exact @run_keeps P (fun h hm => hm.wellKept h) c [] h ss

theorem run_wellKept (settings : Settings) (capacity : UInt64) (ss : List Signal) :
    ((initial settings capacity).run ss).1.WellKept :=
  WellKept.run (c := initial settings capacity) rfl ss

/-! The next turn -/

section
variable {c : Client} {w : Worker}

theorem step_turn (hw : c.worker = some w) (hb : w.phase.boundary = true) :
    (c.step .turn).1 = (c.turn w).1 ∧
      Trace.quiet (c.step .turn).2 = Trace.quiet (c.turn w).2 := by
  have hs : c.step .turn = c.proceed w .turn := by simp [step, hw]
  rw [hs]
  cases hp : w.phase <;> simp [hp, Phase.boundary, proceed, starting] at hb ⊢

theorem mem_quiet_iff {e : Event} (he : e.isLog = false) {es : Trace} :
    e ∈ Trace.quiet es ↔ e ∈ es := by
  simp [Trace.quiet, he]

/-- A turn attempts to connect when there is no link and a first attempt or one whose countdown is
over is due. -/
theorem attempting_step_turn_iff (hw : c.worker = some w) (hb : w.phase.boundary = true)
    (hr : c.shared.running = true) :
    .attempting ∈ (c.step .turn).2 ↔
      w.link = none ∧ (w.attempted = false ∨
        (w.backoff.clock c.shared.pending).expired = true) := by
  rw [← mem_quiet_iff rfl, (step_turn hw hb).2, mem_quiet_iff rfl, turn_of_running hr]
  cases hl : w.link with
  | some buffer =>
    simp only [Option.isSome_some, if_true, connectedTurn]
    split <;> simp
  | none =>
    simp only [Option.isSome_none, Bool.false_eq_true, if_false, disconnectedTurn,
      Worker.ticked, true_and]
    rcases Bool.eq_false_or_eq_true w.attempted with ha | ha
    · rcases Bool.eq_false_or_eq_true (w.backoff.clock c.shared.pending).expired with he | he
      · simp [ha, he, attempt]
      · simp [ha, he]
    · simp [ha, attempt]

theorem step_turn_idle (hw : c.worker = some w) (hb : w.phase.boundary = true)
    (hr : c.shared.running = true) (hl : w.link = none)
    (hn : .attempting ∉ (c.step .turn).2) :
    (c.step .turn).1 =
      c.ticked.wait (w.ticked c.shared.pending) (.idle (c.now + idleSlice)) := by
  have h := mt (attempting_step_turn_iff hw hb hr).2 hn
  simp only [hl, true_and, not_or, Bool.not_eq_false, Bool.not_eq_true] at h
  rw [(step_turn hw hb).1, turn_of_running hr]
  simp [hl, disconnectedTurn, Worker.ticked, h.1, h.2, ticked]

end

/-- What holds between two turns of a worker that was not asked to stop. -/
structure Consistent (c : Client) (w : Worker) : Prop where
  connected : c.status.connected = true ↔ w.link.isSome
  settled : c.status.connected = true →
    w.backoff.running = false ∧ c.status.attempts = 0 ∧ c.status.delay = 0
  scheduled : c.status.connected = false → w.attempted = true →
    w.backoff.running = true ∧ 1 ≤ w.backoff.attempts ∧ w.backoff.attempts ≤ 10 ∧
      c.status.attempts = w.backoff.attempts ∧
      c.status.delay = Duration.ofMillis (w.backoff.attempts * 60000) ∧
      Duration.ofMillis w.backoff.left.toNat ≤ c.status.delay
  first : w.attempted = false → .attempting ∈ (c.step .turn).2
  later : c.status.connected = false → w.attempted = true →
    (.attempting ∈ (c.step .turn).2 ↔ w.backoff.left.toNat ≤ c.shared.pending.toNat)
  counting : c.status.connected = false → .attempting ∉ (c.step .turn).2 →
    ∃ w', (c.step .turn).1.worker = some w' ∧ w'.backoff.running = true ∧
      w'.backoff.left.toNat = w.backoff.left.toNat - c.shared.pending.toNat
  recovering : c.status.connected = false →
    .attempting ∈ (c.step .turn).2 ∨ w.backoff.running = true ∧
      ∃ ms, .attempting ∈ ((c.step (.call (.clock ms))).1.step .turn).2

theorem Sound.consistent {c : Client} {w : Worker} (h : Sound c.shared w)
    (hw : c.worker = some w) (hr : c.shared.running = true) (hb : w.phase.boundary = true) :
    Consistent c w := by
  have hlink : c.status.connected = false → w.link = none := by
    intro hc
    have : w.link.isSome = false := h.connected.symm.trans hc
    simpa using this
  have hplan : c.status.connected = false → w.attempted = true → Scheduled c.shared w.backoff :=
    fun hc ha => h.scheduled_of_boundary hr (hlink hc) ha hb
  have hlater : c.status.connected = false → w.attempted = true →
      (.attempting ∈ (c.step .turn).2 ↔ w.backoff.left.toNat ≤ c.shared.pending.toNat) := by
    intro hc ha
    rw [attempting_step_turn_iff hw hb hr,
      Backoff.expired_clock_iff (hplan hc ha).running]
    simp [hlink hc, ha]
  have hfirst : w.attempted = false → .attempting ∈ (c.step .turn).2 := by
    intro ha
    have hl := h.linked false (by rw [h.fresh.1 ha]; rfl)
    exact (attempting_step_turn_iff hw hb hr).2 ⟨by simpa using hl, .inl ha⟩
  refine ⟨?_, ?_, ?_, hfirst, hlater, ?_, ?_⟩
  · exact ⟨fun hc => h.connected.symm.trans hc, fun hl => h.connected.trans hl⟩
  · intro hc
    obtain ⟨hrun, -, hn, hd⟩ := h.settled (h.connected.symm.trans hc)
    exact ⟨hrun, hn, by simp [status, hd, Duration.ofMillis]⟩
  · intro hc ha
    have hs := hplan hc ha
    have hdelay : c.status.delay = Duration.ofMillis (w.backoff.attempts * 60000) := by
      simp only [status, hs.published, hs.delay]
    refine ⟨hs.running, hs.counted.1, hs.counted.2, hs.attempts, hdelay, ?_⟩
    rw [hdelay, ← hs.delay]
    exact Nat.mul_le_mul_right _ hs.left
  · intro hc hn
    have ha : w.attempted = true := by
      by_contra ha
      exact hn (hfirst (by simpa using ha))
    refine ⟨_, by rw [step_turn_idle hw hb hr (hlink hc) hn]; rfl, ?_, ?_⟩
    · exact Backoff.running_clock.trans (hplan hc ha).running
    · exact Backoff.toNat_left_clock
  · intro hc
    cases ha : w.attempted with
    | false => exact .inl (hfirst ha)
    | true =>
      have hrun := (hplan hc ha).running
      have hnext := attempting_step_turn_iff
        (c := (c.step (.call (.clock (w.backoff.left - c.shared.pending)))).1) hw hb hr
      refine .inr ⟨hrun, _, hnext.2 ⟨hlink hc, .inr ?_⟩⟩
      refine (Backoff.expired_clock_iff hrun).2 (le_of_eq ?_)
      simp [step, call, Shared.clock]

/-- In every run of a client, a worker that was not asked to stop is consistent between any two of
its turns. -/
theorem consistent_between_turns (settings : Settings) (capacity : UInt64) (ss : List Signal)
    {w : Worker} (hw : ((initial settings capacity).run ss).1.worker = some w)
    (hb : w.phase.boundary = true)
    (hr : ((initial settings capacity).run ss).1.shared.running = true) :
    Consistent ((initial settings capacity).run ss).1 w :=
  ((run_wellKept settings capacity ss).sound hw).consistent hw hr hb

def trialSettings : Settings :=
  ⟨"localhost:14580", ⟨⟨"N0CALL", "12345"⟩, "IGate", "1", none⟩, false,
    Duration.ofSeconds 10, Duration.ofSeconds 10⟩

def trialLogin : List Signal :=
  [.turn, .connected, .received (Utf8.encode "# hello\r\n"), .took 100, .flushed,
    .received (Utf8.encode "# logresp\r\n")]

def refusedAttempt : List Signal :=
  [.call .start, .turn, .call (.clock 500), .connectFailed (.system .connectionRefused)]

theorem consistent_after_refusal :
    ∃ w, ((initial trialSettings 2000).run refusedAttempt).1.worker = some w ∧
      w.attempted = true ∧ w.backoff.left = 60000 ∧
      Consistent ((initial trialSettings 2000).run refusedAttempt).1 w :=
  ⟨⟨Backoff.initial.fail, none, true, .between⟩, rfl, rfl, by decide,
    consistent_between_turns trialSettings 2000 refusedAttempt rfl rfl rfl⟩

end Client

end IGate
