import IGate.Proofs.Client.Failures

/-! What a caller sees of the link. The published count and delay are those of the latest failure or
login, and nothing else changes them: not the end of a worker, and not the start of the next. -/

namespace IGate

namespace Client

/-- What is published is what the worker has scheduled, and no delay when it has scheduled none. -/
structure Faithful (c : Client) : Prop where
  attempts : ∀ w, c.worker = some w → c.status.attempts = w.backoff.attempts
  delay : ∀ w, c.worker = some w → w.backoff.running = true →
    c.status.delay = Duration.ofMillis w.backoff.delay.toNat
  idle : (∀ w, c.worker = some w → w.backoff.running = false) → c.status.delay = 0

def CountsDown (c : Client) : Prop := ∃ w, c.worker = some w ∧ w.backoff.running = true

section
variable {c c' : Client} {w : Worker} {s : Signal} {t : Tally} {new : Trace}

theorem Counts.status (h : Counts c t) :
    c.status.attempts = min t.shown 10 ∧
      c.status.delay = Duration.ofMillis (min t.shown 10 * 60000) :=
  ⟨h.attempts, by rw [Client.status, h.delay]⟩

theorem Counts.faithful_of_countsDown (h : Counts c t) (hc : c.CountsDown) : Faithful c := by
  obtain ⟨w, hw, hr⟩ := hc
  have hsame : ∀ v, c.worker = some v → v = w := fun v hv => Option.some.inj (hv.symm.trans hw)
  have hrow := h.running w hw hr
  have hshown : t.row.length = t.shown := h.shown.resolve_left hrow
  obtain ⟨ha, hd⟩ := h.status
  refine ⟨fun v hv => ?_, fun v hv _ => ?_, fun hno => ?_⟩
  · rw [hsame v hv, ha, h.counted w hw, hshown]
  · rw [hsame v hv, hd, h.scheduled w hw hrow, hshown]
  · simp [hno w hw] at hr

theorem Counts.faithful_of_shown (h : Counts c t) (hs : t.shown = 0) : Faithful c := by
  have hrow : t.row = [] := by
    rcases h.shown with hrow | hlen
    · exact hrow
    · exact List.length_eq_zero_iff.1 (hlen.trans hs)
  obtain ⟨ha, hd⟩ := h.status
  rw [hs, Nat.zero_min] at ha hd
  refine ⟨fun w hw => ?_, fun w hw hr => absurd hrow (h.running w hw hr), fun _ => ?_⟩
  · rw [ha, h.counted w hw, hrow]
    rfl
  · rw [hd, Nat.zero_mul]
    rfl

theorem Counts.faithful_iff (h : Counts c t) : Faithful c ↔ t.shown = 0 ∨ c.CountsDown := by
  refine ⟨fun hf => ?_, fun hor => hor.elim h.faithful_of_shown h.faithful_of_countsDown⟩
  by_cases hc : c.CountsDown
  · exact .inr hc
  · refine .inl ?_
    have hidle := hf.idle fun w hw => by
      by_contra hr
      exact hc ⟨w, hw, by simpa using hr⟩
    rw [h.status.2] at hidle
    have hzero : min t.shown 10 * 60000 * 1000000 = 0 := hidle
    omega

/-- A worker that has taken no turn has counted nothing. -/
def Untouched (c : Client) : Prop :=
  ∀ w, c.worker = some w → w.phase = .fresh → w = Worker.initial

theorem Move.untouched (hm : Move c s c' new) (h : c.Untouched) : c'.Untouched := by
  cases hm with
  | ignored | stopRequested | accepted | rejected | clocked | sinkSet | elapsed | stirred =>
    exact h
  | started => exact fun v hv _ => (Option.some.inj hv).symm
  | ended => nofun
  | polled hw hp =>
    rintro v hv hf
    cases hv
    cases hp.symm.trans hf
  | @heard _ _ _ _ raw =>
    rintro v hv hf
    cases hv
    have hlinked := phaseFor_linked c (Line.rtrim (Utf8.decodeLossy raw))
    dsimp only at hf
    rw [hf] at hlinked
    exact absurd rfl hlinked
  | _ =>
    rintro v hv hf
    cases hv
    cases hf

theorem run_untouched (settings : Settings) (capacity : UInt64) (ss : List Signal) :
    ((initial settings capacity).run ss).1.Untouched := by
  let P : Client → Trace → Prop := fun c _ => c.Untouched
  exact @run_keeps P (fun h hm => hm.untouched h) (initial settings capacity) [] nofun ss

theorem Counts.faithful_of_sound (h : Counts c t) (hs : Sound c.shared w) (hw : c.worker = some w)
    (hb : w.phase.boundary = true) (hr : c.shared.running = true) (ha : w.attempted = true) :
    Faithful c := by
  cases hl : w.link with
  | some buffer =>
    obtain ⟨-, -, hn, -⟩ := hs.settled (by rw [hl]; rfl)
    refine h.faithful_of_shown ?_
    have hzero := h.attempts.symm.trans hn
    omega
  | none => exact h.faithful_of_countsDown ⟨w, hw, (hs.scheduled_of_boundary hr hl ha hb).running⟩

end

structure Published (c : Client) (es : Trace) : Prop where
  latest : c.status.attempts = min es.tally.shown 10 ∧
    c.status.delay = Duration.ofMillis (min es.tally.shown 10 * 60000)
  faithful : Faithful c ↔ es.tally.shown = 0 ∨ c.CountsDown
  /-- Between two turns of a worker that was not asked to stop. -/
  live : ∀ w, c.worker = some w → w.phase.boundary = true → c.shared.running = true →
    w.attempted = true → Faithful c
  first : ∀ w, c.worker = some w → w.phase.boundary = true → c.shared.running = true →
    .ended ∉ es → Faithful c

theorem Counts.published {c : Client} {es : Trace} (h : Counts c es.tally) (hk : c.WellKept)
    (hu : c.Untouched) : Published c es := by
  have hlive : ∀ w, c.worker = some w → w.phase.boundary = true → c.shared.running = true →
      w.attempted = true → Faithful c := fun w hw hb hr ha =>
    h.faithful_of_sound (hk.sound hw) hw hb hr ha
  refine ⟨h.status, h.faithful_iff, hlive, fun w hw hb hr he => ?_⟩
  cases ha : w.attempted with
  | true => exact hlive w hw hb hr ha
  | false =>
    have hcounted := h.counted w hw
    rw [hu w hw ((hk.sound hw).fresh.1 ha), Trace.length_row_tally he] at hcounted
    have hnone : Worker.initial.backoff.attempts = 0 := rfl
    exact h.faithful_of_shown (by omega)

/-- In every run of a client, with any calls of its owner. -/
theorem status_latest_published (settings : Settings) (capacity : UInt64) (ss : List Signal) :
    Published ((initial settings capacity).run ss).1 ((initial settings capacity).run ss).2 := by
  have hk := run_wellKept settings capacity ss
  exact (run_counts settings capacity ss).published hk (run_untouched settings capacity ss)

def refusedAndStopped : List Signal := refusedAttempt ++ [.call .requestStop, .turn]

/-- Nobody is going to reconnect, and a delay of a minute is published. One failure is published of
the next worker, which has counted none. -/
theorem stale_after_stop :
    ((initial trialSettings 2000).run refusedAndStopped).1.worker = none ∧
      ((initial trialSettings 2000).run refusedAndStopped).1.status.delay =
        Duration.ofSeconds 60 ∧
      ((initial trialSettings 2000).run (refusedAndStopped ++ [.call .start])).1.worker =
        some Worker.initial ∧
      ((initial trialSettings 2000).run (refusedAndStopped ++ [.call .start])).1.status.attempts =
        1 := by
  decide

end Client

end IGate
