import IGate.Proofs.Client.Stretch
import IGate.Proofs.Client.Unclocked

/-! How failures are counted. From one turn of a worker to the next there is one outcome, and a
failure counts once, in the worker's scheduler and in what is published. -/

namespace IGate

/-- A connection is closed, an attempt or a link fails, a login is done, or the worker ends. -/
def Event.settles : Event → Bool
  | .closed | .failed _ | .established | .ended => true
  | _ => false

/-- The delays of the failures in a row of the present worker, and how many failures in a row were
counted when a failure or a login was last published. -/
structure Tally where
  row : List UInt64
  shown : Nat
  deriving DecidableEq

def Tally.note (t : Tally) : Event → Tally
  | .failed delay => ⟨t.row ++ [delay], t.row.length + 1⟩
  | .established => ⟨[], 0⟩
  | .ended => { t with row := [] }
  | _ => t

theorem Tally.note_of_not_settles (t : Tally) {e : Event} (h : e.settles = false) :
    t.note e = t := by
  cases e <;> first | rfl | cases h

namespace Trace

def outcomes (es : Trace) : Trace := es.filter Event.settles

@[simp] theorem outcomes_append (es more : Trace) :
    outcomes (es ++ more) = outcomes es ++ outcomes more := List.filter_append ..

theorem outcomes_cons {e : Event} (h : e.settles = false) (es : Trace) :
    outcomes (e :: es) = outcomes es := by
  simp [outcomes, h]

@[simp] theorem outcomes_quiet (es : Trace) : outcomes (quiet es) = outcomes es := by
  simp only [outcomes, quiet, List.filter_filter]
  congr 1
  funext e
  cases e <;> rfl

theorem mem_outcomes {e : Event} (h : e.settles = true) {es : Trace} :
    e ∈ outcomes es ↔ e ∈ es := by
  simp [outcomes, h]

@[simp] theorem outcomes_readEvents (bytes : Bytes) : outcomes (Client.readEvents bytes) = [] := by
  unfold Client.readEvents
  split <;> rfl

@[simp] theorem outcomes_sentEvents (bytes : Bytes) : outcomes (Client.sentEvents bytes) = [] := by
  unfold Client.sentEvents
  split <;> rfl

@[simp] theorem outcomes_deliveries (c : Client) (line : String) :
    outcomes (c.deliveries line) = [] := by
  unfold Client.deliveries
  split
  · rfl
  · split <;> rfl

def failures (es : Trace) : List UInt64 := es.flatMap fun | .failed delay => [delay] | _ => []

@[simp] theorem failures_append (es more : Trace) :
    failures (es ++ more) = failures es ++ failures more := List.flatMap_append

@[simp] theorem failures_quiet (es : Trace) : failures (quiet es) = failures es :=
  flatMap_quiet _ (fun _ => rfl) es

theorem failures_outcomes (es : Trace) : failures (outcomes es) = failures es := by
  induction es with
  | nil => rfl
  | cons e es ih =>
    rw [← List.singleton_append, outcomes_append, failures_append, failures_append, ih]
    cases e <;> rfl

def tally (es : Trace) : Tally := es.foldl Tally.note ⟨[], 0⟩

theorem foldl_note_outcomes (t : Tally) (es : Trace) :
    (outcomes es).foldl Tally.note t = es.foldl Tally.note t := by
  induction es generalizing t with
  | nil => rfl
  | cons e es ih =>
    cases he : e.settles with
    | true => rw [outcomes, List.filter_cons_of_pos he, List.foldl_cons, List.foldl_cons, ← ih]; rfl
    | false =>
      rw [outcomes, List.filter_cons_of_neg (by simp [he]), List.foldl_cons,
        t.note_of_not_settles he, ← ih]
      rfl

theorem tally_append (es more : Trace) :
    tally (es ++ more) = (outcomes more).foldl Tally.note (tally es) := by
  rw [foldl_note_outcomes, tally, List.foldl_append]
  rfl

theorem shown_foldl {es : Trace} (hf : failures es = []) (he : .established ∉ es) (t : Tally) :
    (es.foldl Tally.note t).shown = t.shown := by
  induction es generalizing t with
  | nil => rfl
  | cons e es ih =>
    rw [List.mem_cons, not_or] at he
    rw [← List.singleton_append, failures_append, List.append_eq_nil_iff] at hf
    refine (ih hf.2 he.2 (t.note e)).trans ?_
    cases e with
    | failed => exact absurd hf.1 (List.cons_ne_nil _ _)
    | established => exact absurd rfl he.1
    | _ => rfl

/-- Before the first worker has ended, what is published is of its own failures. -/
theorem length_row_tally {es : Trace} (h : .ended ∉ es) :
    (tally es).row.length = (tally es).shown := by
  have hkeep : ∀ t : Tally, t.row.length = t.shown →
      (es.foldl Tally.note t).row.length = (es.foldl Tally.note t).shown := by
    induction es with
    | nil => exact fun t ht => ht
    | cons e es ih =>
      rw [List.mem_cons, not_or] at h
      refine fun t ht => ih h.2 (t.note e) ?_
      cases e with
      | ended => exact absurd rfl h.1
      | failed delay => exact List.length_append
      | established => rfl
      | _ => exact ht
  exact hkeep ⟨[], 0⟩ rfl

theorem tally_quiet (es : Trace) : tally (quiet es) = tally es := by
  rw [tally, tally, ← foldl_note_outcomes, outcomes_quiet, foldl_note_outcomes]

end Trace

/-- The same count and delay, a link still there or still not, and no countdown begun. -/
structure Worker.Keeps (w w' : Worker) : Prop where
  attempts : w'.backoff.attempts = w.backoff.attempts
  delay : w'.backoff.delay = w.backoff.delay
  linked : w'.link.isSome = w.link.isSome
  running : w'.backoff.running = true → w.backoff.running = true

theorem Worker.Keeps.refl (w : Worker) : w.Keeps w := ⟨rfl, rfl, rfl, id⟩

theorem Worker.Keeps.trans {w w' w'' : Worker} (h : w.Keeps w') (h' : w'.Keeps w'') :
    w.Keeps w'' where
  attempts := h'.attempts.trans h.attempts
  delay := h'.delay.trans h.delay
  linked := h'.linked.trans h.linked
  running hr := h.running (h'.running hr)

theorem Worker.Keeps.ofClock {w w' : Worker} {ms : UInt64}
    (hb : w'.backoff = w.backoff.clock ms) (hl : w'.link = w.link) : w.Keeps w' where
  attempts := by rw [hb, Backoff.attempts_clock]
  delay := by rw [hb, Backoff.delay_clock]
  linked := by rw [hl]
  running hr := by rwa [hb, Backoff.running_clock] at hr

/-- A failure starts the same countdown whatever was left of the one before. -/
theorem Backoff.fail_congr {b b' : Backoff} (h : b'.attempts = b.attempts) : b'.fail = b.fail := by
  simp only [fail, h, Countdown.setTimeout, Countdown.start]

namespace Client

/-- Nothing is counted. -/
structure Keeps (c c' : Client) : Prop where
  worker : c.worker = none ∧ c'.worker = none ∨
    ∃ w w', c.worker = some w ∧ c'.worker = some w' ∧ w.Keeps w'
  attempts : c'.shared.attempts = c.shared.attempts
  delay : c'.shared.delay = c.shared.delay

/-- What settles something, and what it does to the count. -/
inductive Effect (c c' : Client) : Trace → Prop
  | kept (h : c.Keeps c') : Effect c c' []
  | started (hw : c.worker = none) (hw' : c'.worker = some Worker.initial)
    (ha : c'.shared.attempts = c.shared.attempts) (hd : c'.shared.delay = c.shared.delay) :
    Effect c c' []
  /-- An attempt that is given up had a connection. -/
  | abandoned {w w'} (hw : c.worker = some w) (hw' : c'.worker = some w') (hl : w.link = none)
    (hp : w'.phase.boundary = true) (h : c.Keeps c') : Effect c c' [.closed]
  | failed {w w'} (opened : Bool) (hw : c.worker = some w) (hw' : c'.worker = some w')
    (hl : w.link.isSome → opened = true) (hl' : w'.link = none) (hp : w'.phase.boundary = true)
    (hb : w'.backoff = w.backoff.fail) (ha : c'.shared.attempts = w.backoff.fail.attempts)
    (hd : c'.shared.delay = w.backoff.fail.delay) :
    Effect c c' ((if opened then [.closed] else []) ++ [.failed w.backoff.fail.delay])
  | established {w w'} (hw : c.worker = some w) (hw' : c'.worker = some w') (hl : w.link = none)
    (hl' : w'.link.isSome) (hp : w'.phase.boundary = true) (hn : w'.backoff.attempts = 0)
    (hr : w'.backoff.running = false) (ha : c'.shared.attempts = 0) (hd : c'.shared.delay = 0) :
    Effect c c' [.established]
  | ended {w} (hw : c.worker = some w) (hw' : c'.worker = none) (hp : w.phase.boundary = true)
    (hr : c.shared.running = false) (ha : c'.shared.attempts = c.shared.attempts)
    (hd : c'.shared.delay = c.shared.delay) :
    Effect c c' ((if w.link.isSome then [.closed] else []) ++ [.ended])

section
variable {c c' c'' : Client} {w w' w'' : Worker} {s : Signal} {new os : Trace}

theorem Keeps.ofWorker (hw : c.worker = some w) (hw' : c'.worker = some w') (h : w.Keeps w')
    (ha : c'.shared.attempts = c.shared.attempts) (hd : c'.shared.delay = c.shared.delay) :
    c.Keeps c' :=
  ⟨.inr ⟨w, w', hw, hw', h⟩, ha, hd⟩

theorem Keeps.ofSame (hw : c'.worker = c.worker) (ha : c'.shared.attempts = c.shared.attempts)
    (hd : c'.shared.delay = c.shared.delay) : c.Keeps c' := by
  refine ⟨?_, ha, hd⟩
  rw [hw]
  cases c.worker with
  | none => exact .inl ⟨rfl, rfl⟩
  | some w => exact .inr ⟨w, w, rfl, rfl, .refl w⟩

theorem Move.effect (hm : Move c s c' new) (hk : c.WellKept) :
    Effect c c' (Trace.outcomes new) := by
  have hunlinked : ∀ {w}, c.worker = some w → w.phase.attempt?.isSome → w.link = none :=
    fun hw hp => ((hk.sound hw).attempted_of_attempt hp).1
  cases hm with
  | ignored | stopRequested | accepted | rejected | clocked | sinkSet | elapsed =>
    exact .kept (.ofSame rfl rfl rfl)
  | started hw => exact .started hw rfl rfl rfl
  | @ended w hw hp hr =>
    have ho : Trace.outcomes ((if w.link.isSome then [.closed] else []) ++
        [.discarded c.shared.queue.frames, .ended]) =
          (if w.link.isSome then [.closed] else []) ++ [.ended] := by
      rw [Trace.outcomes_append, Trace.outcomes_cons rfl]
      cases w.link.isSome <;> rfl
    rw [ho]
    exact .ended hw rfl hp hr rfl rfl
  | rested hw | took hw | attempted hw | dozed hw =>
    exact .kept (.ofWorker hw rfl (.ofClock rfl rfl) rfl rfl)
  | reattempted hw =>
    exact .kept (.ofWorker hw rfl ⟨rfl, Backoff.delay_clock, rfl, nofun⟩ rfl rfl)
  | opened hw | loginFlushed hw | frameFlushed hw | pollWoken hw | pollEnded hw | sinkDone hw
  | idleEnded hw | idleWoken hw =>
    exact .kept (.ofWorker hw rfl ⟨rfl, rfl, rfl, id⟩ rfl rfl)
  | stirred hw => exact .kept (.ofSame rfl rfl rfl)
  | unreached hw hp =>
    have hl := hunlinked hw (by rw [hp]; rfl)
    exact .failed false hw rfl (by simp [hl]) hl rfl rfl rfl rfl
  | @abandoned w opened hw hp =>
    have hkeeps : c.Keeps (c.roused.wait w .between) :=
      .ofWorker hw rfl ⟨rfl, rfl, rfl, id⟩ rfl rfl
    cases opened with
    | false => exact .kept hkeeps
    | true => exact .abandoned hw rfl (hunlinked hw (by rw [hp]; rfl)) rfl hkeeps
  | awaited hw | greeted hw | loginSent hw | frameSent hw =>
    simp only [Trace.outcomes_append, Trace.outcomes_readEvents, Trace.outcomes_sentEvents]
    exact .kept (.ofWorker hw rfl ⟨rfl, rfl, rfl, id⟩ rfl rfl)
  | established hw hp =>
    simp only [Trace.outcomes_append, Trace.outcomes_readEvents]
    exact .established hw rfl (hunlinked hw (by rw [hp]; rfl)) rfl rfl rfl rfl rfl rfl
  | ungreeted hw hp =>
    have hl := hunlinked hw (by rw [hp]; rfl)
    rw [Trace.outcomes_append, Trace.outcomes_readEvents]
    exact .failed true hw rfl (fun _ => rfl) hl rfl rfl rfl rfl
  | loginFailed hw hp =>
    have hl := hunlinked hw (by rw [hp]; rfl)
    exact .failed true hw rfl (fun _ => rfl) hl rfl rfl rfl rfl
  | frameFailed hw hp => exact .failed true hw rfl (fun _ => rfl) rfl rfl rfl rfl rfl
  | readFailed hw hp =>
    simp only [Trace.outcomes_append, Trace.outcomes_readEvents]
    exact .failed true hw rfl (fun _ => rfl) rfl rfl rfl rfl rfl
  | polled hw hp hl =>
    rw [Trace.outcomes_readEvents]
    exact .kept (.ofWorker hw rfl ⟨rfl, rfl, by rw [hl]; rfl, id⟩ rfl rfl)
  | @heard w _ _ _ raw _ hw hp hl =>
    rw [Trace.outcomes_append, Trace.outcomes_readEvents, Trace.outcomes_cons rfl,
      Trace.outcomes_deliveries]
    exact .kept (.ofWorker hw rfl ⟨rfl, rfl, by rw [hl]; rfl, id⟩ rfl rfl)

/-! The count in a whole run -/

/-- What the failures of a run so far are to a client: its published count and delay are those of
the latest failure or login, and a worker has counted its own. -/
structure Counts (c : Client) (t : Tally) : Prop where
  shown : t.row = [] ∨ t.row.length = t.shown
  delays : ∀ k (h : k < t.row.length), t.row[k].toNat = min (k + 1) 10 * 60000
  attempts : c.shared.attempts = min t.shown 10
  delay : c.shared.delay.toNat = min t.shown 10 * 60000
  idle : c.worker = none → t.row = []
  counted : ∀ w, c.worker = some w → w.backoff.attempts = min t.row.length 10
  scheduled : ∀ w, c.worker = some w → t.row ≠ [] →
    w.backoff.delay.toNat = min t.row.length 10 * 60000
  running : ∀ w, c.worker = some w → w.backoff.running = true → t.row ≠ []

theorem Counts.keep {t : Tally} (h : Counts c t) (hk : c.Keeps c') : Counts c' t := by
  obtain ⟨hw, ha, hd⟩ := hk
  have ha' := ha.trans h.attempts
  have hd' : c'.shared.delay.toNat = min t.shown 10 * 60000 := by rw [hd, h.delay]
  rcases hw with ⟨hw, hw'⟩ | ⟨w, w', hw, hw', hww⟩
  · have hno : ∀ v, c'.worker ≠ some v := fun v hv => absurd (hw'.symm.trans hv) nofun
    exact ⟨h.shown, h.delays, ha', hd', fun _ => h.idle hw, fun v hv => absurd hv (hno v),
      fun v hv => absurd hv (hno v), fun v hv => absurd hv (hno v)⟩
  · have hsame : ∀ v, c'.worker = some v → v = w' := fun v hv =>
      Option.some.inj (hv.symm.trans hw')
    refine ⟨h.shown, h.delays, ha', hd', fun hn => absurd (hw'.symm.trans hn) nofun,
      fun v hv => ?_, fun v hv hr => ?_, fun v hv hr => ?_⟩
    · rw [hsame v hv, hww.attempts, h.counted w hw]
    · rw [hsame v hv, hww.delay, h.scheduled w hw hr]
    · exact h.running w hw (hww.running (hsame v hv ▸ hr))

theorem Counts.fail {t : Tally} (h : Counts c t) (hw : c.worker = some w)
    (hw' : c'.worker = some w') (hb : w'.backoff = w.backoff.fail)
    (ha : c'.shared.attempts = w.backoff.fail.attempts)
    (hd : c'.shared.delay = w.backoff.fail.delay) :
    Counts c' (t.note (.failed w.backoff.fail.delay)) := by
  have hn : w.backoff.fail.attempts = min (t.row.length + 1) 10 := by
    rw [Backoff.attempts_fail, h.counted w hw, maxAttempts]
    omega
  have hdelay : w.backoff.fail.delay.toNat = min (t.row.length + 1) 10 * 60000 := by
    rw [Backoff.toNat_delay_fail, hn]
  have hsame : ∀ v, c'.worker = some v → v.backoff = w.backoff.fail := by
    intro v hv
    obtain rfl : w' = v := by simpa [hw'] using hv
    exact hb
  have hlen : (t.row ++ [w.backoff.fail.delay]).length = t.row.length + 1 := by simp
  change Counts c' ⟨t.row ++ [w.backoff.fail.delay], t.row.length + 1⟩
  refine ⟨.inr hlen, fun k hk => ?_, ha.trans hn, by rw [hd, hdelay],
    fun hnone => absurd (hw'.symm.trans hnone) (Option.some_ne_none _), fun v hv => ?_,
    fun v hv _ => ?_, fun _ _ _ => by simp⟩
  · simp only at hk ⊢
    rcases Nat.lt_or_ge k t.row.length with hlt | hge
    · rw [List.getElem_append_left hlt, h.delays k hlt]
    · obtain rfl : k = t.row.length := by omega
      rw [List.getElem_concat_length rfl, hdelay]
  · rw [hsame v hv, hn, hlen]
  · rw [hsame v hv, hdelay, hlen]

theorem Effect.counts {t : Tally} (he : Effect c c' os) (h : Counts c t) :
    Counts c' (os.foldl Tally.note t) := by
  cases he with
  | kept hk => exact h.keep hk
  | started hw hw' ha hd =>
    have hrow := h.idle hw
    have hsame : ∀ v, c'.worker = some v → v = Worker.initial := fun v hv =>
      Option.some.inj (hv.symm.trans hw')
    refine ⟨h.shown, h.delays, ha.trans h.attempts, by rw [hd, h.delay]; rfl, fun _ => hrow,
      fun v hv => ?_, fun _ _ hne => absurd hrow hne, fun v hv hr => ?_⟩
    · rw [hsame v hv, List.foldl_nil, hrow]
      rfl
    · rw [hsame v hv] at hr
      cases hr
  | abandoned hw hw' hl hp hk => exact h.keep hk
  | failed opened hw hw' hl hl' hp hb ha hd =>
    have hfail := h.fail hw hw' hb ha hd
    cases opened <;> exact hfail
  | established hw hw' hl hl' hp hn hr ha hd =>
    have hsame : ∀ v, c'.worker = some v → v.backoff.attempts = 0 ∧ v.backoff.running = false := by
      intro v hv
      obtain rfl := Option.some.inj (hv.symm.trans hw')
      exact ⟨hn, hr⟩
    change Counts c' ⟨[], 0⟩
    exact ⟨.inl rfl, nofun, ha, by simp [hd], fun _ => rfl, fun v hv => (hsame v hv).1,
      fun _ _ hne => absurd rfl hne, fun v hv hr' => by simp [(hsame v hv).2] at hr'⟩
  | @ended w hw hw' hp hr ha hd =>
    have hended : Counts c' { t with row := [] } :=
      ⟨.inl rfl, nofun, ha.trans h.attempts, by rw [hd, h.delay], fun _ => rfl,
        fun v hv => absurd (hw'.symm.trans hv) nofun, fun _ _ hne => absurd rfl hne,
        fun v hv => absurd (hw'.symm.trans hv) nofun⟩
    split <;> exact hended

theorem run_counts (settings : Settings) (capacity : UInt64) (ss : List Signal) :
    Counts ((initial settings capacity).run ss).1
      (Trace.tally ((initial settings capacity).run ss).2) := by
  let P : Client → Trace → Prop := fun c es => c.WellKept ∧ Counts c (Trace.tally es)
  have hinitial : P (initial settings capacity) [] :=
    ⟨rfl, .inl rfl, nofun, rfl, rfl, fun _ => rfl, nofun, nofun, nofun⟩
  have hrun := @run_keeps P (fun h hm => ⟨hm.wellKept h.1, by
    rw [Trace.tally_append]
    exact (hm.effect h.1).counts h.2⟩) (initial settings capacity) [] hinitial ss
  rw [List.nil_append] at hrun
  rw [← Trace.tally_quiet]
  exact hrun.2

/-! From one turn to the next -/

def Turnless (c : Client) : List Signal → Prop
  | [] => True
  | s :: rest => ¬c.TakesTurn s ∧ (c.step s).1.Turnless rest

theorem Keeps.trans (h : c.Keeps c') (h' : c'.Keeps c'') : c.Keeps c'' := by
  refine ⟨?_, h'.attempts.trans h.attempts, h'.delay.trans h.delay⟩
  rcases h.worker with ⟨hn, hn'⟩ | ⟨w, w', hw, hw', hww⟩
  · rcases h'.worker with ⟨-, hn''⟩ | ⟨_, _, hw', -, -⟩
    · exact .inl ⟨hn, hn''⟩
    · cases hn'.symm.trans hw'
  · rcases h'.worker with ⟨hn', -⟩ | ⟨v, w'', hv, hw'', hvw⟩
    · cases hw'.symm.trans hn'
    · obtain rfl := Option.some.inj (hw'.symm.trans hv)
      exact .inr ⟨w, w'', hw, hw'', hww.trans hvw⟩

/-- What settles something comes last in a turn. -/
theorem Effect.underway (h : Effect c c' os) (hw : c'.worker = some w)
    (hb : w.phase.boundary = false) : os = [] ∧ c.Keeps c' := by
  have hsame : ∀ {v : Worker}, c'.worker = some v → v.phase.boundary = true → False := by
    intro v hv hp
    obtain rfl := Option.some.inj (hv.symm.trans hw)
    simp [hb] at hp
  cases h with
  | kept h => exact ⟨rfl, h⟩
  | started _ hw' => exact (hsame hw' rfl).elim
  | abandoned _ hw' _ hp | failed _ _ hw' _ _ hp | established _ hw' _ _ hp =>
    exact (hsame hw' hp).elim
  | ended _ hw' => cases hw'.symm.trans hw

/-- A worker goes on unless it takes a turn after it was asked to stop. -/
theorem Effect.survives (h : Effect c c' os) (hw : c.worker = some w)
    (hg : w.phase.boundary = false ∨ c.shared.running = true) : ∃ w', c'.worker = some w' := by
  cases h with
  | kept h =>
    rcases h.worker with ⟨hn, -⟩ | ⟨_, w', -, hw', -⟩
    · cases hn.symm.trans hw
    · exact ⟨w', hw'⟩
  | started hn => cases hn.symm.trans hw
  | abandoned _ hw' | failed _ _ hw' | established _ hw' => exact ⟨_, hw'⟩
  | ended hv _ hp hr =>
    obtain rfl := Option.some.inj (hv.symm.trans hw)
    simp [hp, hr] at hg

theorem Keeps.effect (hk : c.Keeps c') (h : Effect c' c'' os) (hw : c.worker = some w)
    (hw'' : c''.worker = some w'') : Effect c c'' os := by
  obtain ⟨w', hw', hww⟩ : ∃ w', c'.worker = some w' ∧ w.Keeps w' := by
    rcases hk.worker with ⟨hn, -⟩ | ⟨v, w', hv, hw', hvw⟩
    · cases hn.symm.trans hw
    · obtain rfl := Option.some.inj (hw.symm.trans hv)
      exact ⟨w', hw', hvw⟩
  have hlink : ∀ {v}, c'.worker = some v → v.link = none → w.link = none := by
    intro v hv hl
    obtain rfl := Option.some.inj (hw'.symm.trans hv)
    simpa [hl] using hww.linked
  cases h with
  | kept h => exact .kept (hk.trans h)
  | started hn => cases hn.symm.trans hw'
  | abandoned hv hv' hl hp h => exact .abandoned hw hv' (hlink hv hl) hp (hk.trans h)
  | failed opened hv hv' hl hl' hp hb ha hd =>
    obtain rfl := Option.some.inj (hw'.symm.trans hv)
    rw [Backoff.fail_congr hww.attempts] at hb ha hd ⊢
    exact .failed opened hw hv' (fun h => hl (hww.linked.trans h)) hl' hp hb ha hd
  | established hv hv' hl hl' hp hn hr ha hd =>
    exact .established hw hv' (hlink hv hl) hl' hp hn hr ha hd
  | ended _ hn => cases hn.symm.trans hw''

theorem Effect.congr (h : Effect c c' os) (hw : c''.worker = c'.worker)
    (ha : c''.shared.attempts = c'.shared.attempts) (hd : c''.shared.delay = c'.shared.delay) :
    Effect c c'' os := by
  have hk := Keeps.ofSame hw ha hd
  cases h with
  | kept h => exact .kept (h.trans hk)
  | started hn hw' ha' hd' => exact .started hn (hw.trans hw') (ha.trans ha') (hd.trans hd')
  | abandoned hv hv' hl hp h => exact .abandoned hv (hw.trans hv') hl hp (h.trans hk)
  | failed opened hv hv' hl hl' hp hb ha' hd' =>
    exact .failed opened hv (hw.trans hv') hl hl' hp hb (ha.trans ha') (hd.trans hd')
  | established hv hv' hl hl' hp hn hr ha' hd' =>
    exact .established hv (hw.trans hv') hl hl' hp hn hr (ha.trans ha') (hd.trans hd')
  | ended hv hv' hp hr ha' hd' =>
    exact .ended hv (hw.trans hv') hp hr (ha.trans ha') (hd.trans hd')

/-- What is done between two turns settles nothing. -/
theorem Move.between (hm : Move c s c' new) (hw : c.worker = some w)
    (hb : w.phase.boundary = true) (ht : ¬c.TakesTurn s) :
    c'.worker = c.worker ∧ c'.shared.attempts = c.shared.attempts ∧
      c'.shared.delay = c.shared.delay ∧ Trace.outcomes new = [] := by
  have hphase : ∀ {v}, c.worker = some v → v.phase.boundary = true := fun hv =>
    Option.some.inj (hv.symm.trans hw) ▸ hb
  cases hm with
  | ignored | stopRequested | accepted | rejected | clocked | sinkSet | elapsed =>
    exact ⟨rfl, rfl, rfl, rfl⟩
  | started hn => cases hn.symm.trans hw
  | ended hv | rested hv | took hv | attempted hv | reattempted hv | dozed hv =>
    exact absurd ⟨rfl, _, hv, hphase hv⟩ ht
  | stirred hv hp | abandoned hv hp =>
    have hf := hphase hv
    revert hf hp
    cases Worker.phase _ <;> simp [Phase.boundary, Phase.attempt?]
  | opened hv hp | unreached hv hp | awaited hv hp | greeted hv hp | established hv hp
  | ungreeted hv hp | loginSent hv hp | loginFlushed hv hp | loginFailed hv hp | frameSent hv hp
  | frameFlushed hv hp | frameFailed hv hp | pollWoken hv hp | pollEnded hv hp | polled hv hp
  | heard hv hp | readFailed hv hp | sinkDone hv hp | idleEnded hv hp | idleWoken hv hp =>
    have hf := hphase hv
    rw [hp] at hf
    cases hf

/-- An attempt goes on, or came to a failure or a link, or a stop was requested. -/
def Tried (c : Client) (es : Trace) : Prop :=
  .attempting ∈ es → (∃ w, c.worker = some w ∧ w.phase.attempt?.isSome) ∨
    Trace.failures es ≠ [] ∨ .established ∈ es ∨ c.shared.running = false

theorem Move.attempting (hm : Move c s c' new) (ha : .attempting ∈ new) :
    ∃ w, c'.worker = some w ∧ w.phase.attempt?.isSome := by
  cases hm with
  | attempted | reattempted => exact ⟨_, rfl, rfl⟩
  | ended | abandoned => split at ha <;> simp at ha
  | _ => simp at ha

theorem Move.tried {es : Trace} (hm : Move c s c' new) (hw : c.worker = some w)
    (ht : c.Tried es) : c'.Tried (es ++ new) := by
  intro ha
  rcases List.mem_append.1 ha with ha | ha
  · rw [Trace.failures_append, List.mem_append]
    rcases ht ha with ⟨v, hv, hp⟩ | hf | he | hr
    · have hphase : ∀ {u}, c.worker = some u → u.phase.attempt?.isSome = true := fun hu =>
        Option.some.inj (hv.symm.trans hu) ▸ hp
      cases hm with
      | ignored | accepted | rejected | clocked | sinkSet | elapsed | stirred =>
        exact .inl ⟨v, hv, hp⟩
      | stopRequested => exact .inr (.inr (.inr rfl))
      | started hn => cases hn.symm.trans hv
      | opened | awaited | greeted | loginSent | loginFlushed => exact .inl ⟨_, rfl, rfl⟩
      | unreached | ungreeted | loginFailed =>
        exact .inr (.inl (by simp [Trace.failures]))
      | abandoned _ _ hr => exact .inr (.inr (.inr hr))
      | established => exact .inr (.inr (.inl (.inr (by simp))))
      | ended hu hb | rested hu hb | took hu hb | attempted hu hb | reattempted hu hb
      | dozed hu hb =>
        have hno := hphase hu
        revert hb hno
        cases Worker.phase _ <;> simp [Phase.boundary, Phase.attempt?]
      | frameSent hu hq | frameFlushed hu hq | frameFailed hu hq | pollWoken hu hq
      | pollEnded hu hq | polled hu hq | heard hu hq | readFailed hu hq | sinkDone hu hq
      | idleEnded hu hq | idleWoken hu hq =>
        have hno := hphase hu
        rw [hq] at hno
        cases hno
    · exact .inr (.inl (by simp [hf]))
    · exact .inr (.inr (.inl (.inl he)))
    · refine .inr (.inr (.inr ?_))
      cases hm with
      | started hn => cases hn.symm.trans hw
      | stopRequested => rfl
      | _ => exact hr
  · exact .inl (hm.attempting ha)

def Engaged (c : Client) : Prop :=
  ∃ w, c.worker = some w ∧ (w.phase.attempt?.isSome ∨ w.link.isSome)

theorem engaged_of_link (hw : c.worker = some w) (hl : w.link.isSome) : c.Engaged :=
  ⟨w, hw, .inr hl⟩

theorem engaged_of_attempt {opened : Bool} (hw : c.worker = some w)
    (hp : w.phase.attempt? = some opened) : c.Engaged :=
  ⟨w, hw, .inl (by rw [hp]; rfl)⟩

theorem engaged_iff_link (hw : c.worker = some w) (hp : w.phase.attempt? = none) :
    c.Engaged ↔ w.link.isSome := by
  refine ⟨fun ⟨v, hv, h⟩ => ?_, engaged_of_link hw⟩
  obtain rfl := Option.some.inj (hw.symm.trans hv)
  simpa [hp] using h

theorem Move.engaged (hm : Move c s c' new) (he : c'.Engaged) :
    c.Engaged ∨ .attempting ∈ new := by
  have hlink : ∀ {w w'}, c.worker = some w → c'.worker = some w' → w'.phase.attempt? = none →
      w'.link = w.link → c.Engaged := fun hw hw' hp hl =>
    engaged_of_link hw (hl ▸ (engaged_iff_link hw' hp).1 he)
  cases hm with
  | ignored | stopRequested | accepted | rejected | clocked | sinkSet | elapsed | stirred =>
    exact .inl he
  | attempted | reattempted => exact .inr (List.mem_singleton.2 rfl)
  | started | ended => exact absurd he (by simp [Engaged, Worker.initial, Phase.attempt?, shutdown])
  | opened hw hp | unreached hw hp | awaited hw hp | greeted hw hp | established hw hp
  | ungreeted hw hp | loginSent hw hp | loginFlushed hw hp | loginFailed hw hp =>
    exact .inl (engaged_of_attempt hw (congrArg Phase.attempt? hp))
  | abandoned hw hp => exact .inl (engaged_of_attempt hw hp)
  | polled hw _ hl | heard hw _ hl | readFailed hw _ hl =>
    exact .inl (engaged_of_link hw (by simp [hl]))
  | rested hw _ _ hl | took hw _ _ hl => exact .inl (engaged_of_link hw hl)
  | dozed hw | frameSent hw | frameFlushed hw | pollWoken hw | pollEnded hw | sinkDone hw
  | idleEnded hw | idleWoken hw =>
    exact .inl (hlink hw rfl rfl rfl)
  | frameFailed => exact absurd he (by simp [Engaged, unlinked, scheduleReconnect, Phase.attempt?])

theorem Move.engaged_of_outcome (hm : Move c s c' new) (hk : c.WellKept)
    (ho : Trace.failures new ≠ [] ∨ .established ∈ new) : c.Engaged := by
  cases hm with
  | unreached hw hp | established hw hp | ungreeted hw hp | loginFailed hw hp =>
    exact engaged_of_attempt hw (congrArg Phase.attempt? hp)
  | frameFailed hw hp | readFailed hw hp =>
    exact engaged_of_link hw ((hk.sound hw).linked true (by rw [hp]; rfl))
  | @ended w => cases hl : w.link <;> simp [Trace.failures, hl] at ho
  | @abandoned _ opened => cases opened <;> simp [Trace.failures] at ho
  | _ => simp [Trace.failures] at ho

/-- What there is after the events `es`, and what has come out, was there before or was begun. -/
structure Begun (c c' : Client) (es : Trace) : Prop where
  engaged : c'.Engaged → c.Engaged ∨ .attempting ∈ es
  outcome : Trace.failures es ≠ [] ∨ .established ∈ es → c.Engaged ∨ .attempting ∈ es

theorem Begun.refl (c : Client) : Begun c c [] := ⟨.inl, by simp [Trace.failures]⟩

theorem Begun.move {es : Trace} (h : Begun c c' es) (hm : Move c' s c'' new) (hk : c'.WellKept) :
    Begun c c'' (es ++ new) := by
  have hmore : c.Engaged ∨ .attempting ∈ es → c.Engaged ∨ .attempting ∈ es ++ new :=
    Or.imp_right (List.mem_append_left new)
  constructor
  · intro he
    rcases hm.engaged he with he' | ha
    · exact hmore (h.engaged he')
    · exact .inr (List.mem_append_right es ha)
  · intro ho
    rw [Trace.failures_append, ne_eq, List.append_eq_nil_iff, not_and_or, List.mem_append] at ho
    by_cases hold : Trace.failures es ≠ [] ∨ .established ∈ es
    · exact hmore (h.outcome hold)
    · rw [not_or] at hold
      have hnew : Trace.failures new ≠ [] ∨ .established ∈ new :=
        ho.imp (fun hf => hf.resolve_left hold.1) fun he => he.resolve_left hold.2
      exact hmore (h.engaged (hm.engaged_of_outcome hk hnew))

/-- A worker that was not asked to stop begins a turn, and `rest` brings it to no other. -/
structure Iteration (c : Client) (w : Worker) (rest : List Signal) : Prop where
  worker : c.worker = some w
  boundary : w.phase.boundary = true
  running : c.shared.running = true
  turnless : (c.step .turn).1.Turnless rest

structure Within (c c' : Client) (es : Trace) : Prop where
  worker : ∃ w', c'.worker = some w'
  effect : Effect c c' (Trace.outcomes es)
  tried : c'.Tried es
  begun : Begun c c' es
  kept : c'.WellKept

theorem Within.step {es : Trace} (h : Within c c' es) (hw : c.worker = some w)
    (hs : ¬c'.TakesTurn s) : Within c (c'.step s).1 (es ++ Trace.quiet (c'.step s).2) := by
  obtain ⟨w', hw'⟩ := h.worker
  have hm := c'.step_makes s
  have htried := hm.tried hw' h.tried
  have hbegun := h.begun.move hm h.kept
  have hkept := hm.wellKept h.kept
  cases hb : w'.phase.boundary with
  | true =>
    obtain ⟨hwk, ha, hd, ho⟩ := hm.between hw' hb hs
    refine ⟨⟨w', hwk.trans hw'⟩, ?_, htried, hbegun, hkept⟩
    rw [Trace.outcomes_append, ho, List.append_nil]
    exact h.effect.congr hwk ha hd
  | false =>
    obtain ⟨ho, hkeeps⟩ := h.effect.underway hw' hb
    have hstep := hm.effect h.kept
    obtain ⟨w'', hw''⟩ := hstep.survives hw' (.inl hb)
    refine ⟨⟨w'', hw''⟩, ?_, htried, hbegun, hkept⟩
    rw [Trace.outcomes_append, ho, List.nil_append]
    exact hkeeps.effect hstep hw hw''

theorem Within.run {es : Trace} {rest : List Signal} (h : Within c c' es)
    (hw : c.worker = some w) (ht : c'.Turnless rest) :
    Within c (c'.run rest).1 (es ++ Trace.quiet (c'.run rest).2) := by
  induction rest generalizing c' es with
  | nil => simpa using h
  | cons s rest ih =>
    have hrest := ih (h.step hw ht.1) ht.2
    rwa [List.append_assoc, ← Trace.quiet_append] at hrest

theorem Iteration.within {rest : List Signal} (h : c.Iteration w rest) (hk : c.WellKept) :
    Within c (c.run (.turn :: rest)).1 (Trace.quiet (c.run (.turn :: rest)).2) := by
  have hm := c.step_makes .turn
  have hstep := hm.effect hk
  have hnothing : c.Tried [] := nofun
  have hturn : Within c (c.step .turn).1 (Trace.quiet (c.step .turn).2) :=
    ⟨hstep.survives h.worker (.inr h.running), hstep, hm.tried h.worker hnothing,
      (Begun.refl c).move hm hk, hm.wellKept hk⟩
  have hrun := hturn.run h.worker h.turnless
  rwa [← Trace.quiet_append] at hrun

theorem Effect.once (h : Effect c c' os) : (Trace.failures os).length ≤ 1 := by
  cases h with
  | kept | started | abandoned | established => exact Nat.le_succ _
  | failed opened => cases opened <;> exact le_rfl
  | ended => split <;> exact Nat.le_succ _

theorem Effect.keeps (h : Effect c c' os) (hw : c.worker = some w) (hw' : c'.worker = some w')
    (hf : Trace.failures os = []) (he : .established ∉ os) : c.Keeps c' := by
  cases h with
  | kept hk | abandoned _ _ _ _ hk => exact hk
  | started hn => cases hn.symm.trans hw
  | failed opened => cases opened <;> cases hf
  | established => simp at he
  | ended _ hn => cases hn.symm.trans hw'

/-- A failure comes behind the closing of what was open, and starts one countdown. -/
theorem Effect.failure (h : Effect c c' os) (hw : c.worker = some w) (hw' : c'.worker = some w')
    (hf : Trace.failures os ≠ []) :
    ∃ opened : Bool, (w.link.isSome → opened = true) ∧
      os = (if opened then [.closed] else []) ++ [.failed w.backoff.fail.delay] ∧
      w'.backoff = w.backoff.fail ∧ w'.link = none ∧ w'.phase.boundary = true := by
  cases h with
  | kept | started | abandoned | established => exact absurd rfl hf
  | failed opened hv hv' hl hl' hp hb =>
    obtain rfl := Option.some.inj (hw.symm.trans hv)
    obtain rfl := Option.some.inj (hw'.symm.trans hv')
    exact ⟨opened, hl, rfl, hb, hl', hp⟩
  | ended => split at hf <;> exact absurd rfl hf

theorem Keeps.linked (h : c.Keeps c') (hw : c.worker = some w) (hw' : c'.worker = some w') :
    w'.link.isSome = w.link.isSome := by
  rcases h.worker with ⟨hn, -⟩ | ⟨v, v', hv, hv', hvv⟩
  · cases hn.symm.trans hw
  · obtain rfl := Option.some.inj (hw.symm.trans hv)
    obtain rfl := Option.some.inj (hw'.symm.trans hv')
    exact hvv.linked

/-- A link is not lost without a failure. -/
theorem Effect.lost (h : Effect c c' os) (hw : c.worker = some w) (hw' : c'.worker = some w')
    (hl : w.link.isSome) (hl' : w'.link = none) : Trace.failures os ≠ [] := by
  cases h with
  | kept hk =>
    rw [← hk.linked hw hw', hl'] at hl
    cases hl
  | started hn => cases hn.symm.trans hw
  | abandoned hv _ hno =>
    obtain rfl := Option.some.inj (hw.symm.trans hv)
    simp [hno] at hl
  | failed opened => cases opened <;> simp [Trace.failures]
  | established _ hv' _ hsome =>
    obtain rfl := Option.some.inj (hw'.symm.trans hv')
    simp [hl'] at hsome
  | ended _ hn => cases hn.symm.trans hw'

theorem Effect.linked (h : Effect c c' os) (hw' : c'.worker = some w')
    (he : .established ∈ os) : w'.link.isSome := by
  cases h with
  | kept | started => cases he
  | abandoned => simp at he
  | failed opened => cases opened <;> simp at he
  | established _ hv' _ hl' =>
    obtain rfl := Option.some.inj (hw'.symm.trans hv')
    exact hl'
  | ended _ hn => cases hn.symm.trans hw'

theorem Effect.unlinked (h : Effect c c' os) (hw : c.worker = some w) (he : .established ∈ os) :
    w.link = none := by
  cases h with
  | kept | started => cases he
  | abandoned => simp at he
  | failed opened => cases opened <;> simp at he
  | established hv _ hl =>
    obtain rfl := Option.some.inj (hw.symm.trans hv)
    exact hl
  | @ended v => cases hl : v.link <;> simp [hl] at he

theorem step_wake_of_attempt {opened : Bool} (hw : c.worker = some w)
    (hp : w.phase.attempt? = some opened) (hn : c.shared.permit = true)
    (hr : c.shared.running = false) :
    c.step .wake = (c.roused.wait w .between,
      (if opened then [.closed] else []) ++ [.log .attemptAbandoned]) := by
  have hwake : c.step .wake = c.wakeAttempt w opened := by
    simp only [step, hw, proceed]
    cases hq : w.phase <;> simp [hq, Phase.attempt?] at hp <;> subst hp
    · rfl
    · simp [greeting]
    · simp [loggingIn]
  have hno : ¬c.shared.takePermit.running = true := by simp [Shared.takePermit, hr]
  rw [hwake, wakeAttempt, if_pos hn]
  simp only [hno]
  rfl

end

/-- The failures of a run so far are counted. -/
structure Counted (c : Client) (es : Trace) : Prop where
  scheduler : ∀ w, c.worker = some w → w.backoff.attempts = min es.tally.row.length 10
  scheduled : ∀ w, c.worker = some w → es.tally.row ≠ [] →
    w.backoff.delay.toNat = min es.tally.row.length 10 * 60000
  /-- The `k`-th failure in a row is followed by `k` minutes, and by ten at most. -/
  delays : ∀ k (h : k < es.tally.row.length), es.tally.row[k].toNat = min (k + 1) 10 * 60000
  /-- Of the first worker. -/
  published : .ended ∉ es → c.status.attempts = min es.tally.row.length 10 ∧
    c.status.delay = Duration.ofMillis (min es.tally.row.length 10 * 60000)

/-- One failure, behind the closing of what was open, and the one countdown that it starts. -/
def FailsOnce (w : Worker) (opened : Bool) (w' : Worker) (es : Trace) : Prop :=
  Trace.outcomes es = (if opened then [.closed] else []) ++ [.failed w.backoff.fail.delay] ∧
    w'.backoff = w.backoff.fail

/-- What comes of a turn of `w` up to its next turn. -/
structure OneOutcome (c : Client) (w : Worker) (after : Step) : Prop where
  once : (Trace.failures after.2).length ≤ 1
  waited : Trace.failures after.2 = [] → .established ∉ after.2 → c.Keeps after.1
  lost : w.link.isSome → ∀ w', after.1.worker = some w' → w'.link = none →
    FailsOnce w true w' after.2
  /-- Only a link or an attempt fails, and no link is left then. -/
  blamed : Trace.failures after.2 ≠ [] → (w.link.isSome ∨ .attempting ∈ after.2) ∧
    ∀ w', after.1.worker = some w' → w'.link = none ∧ w'.phase.boundary = true
  begun : .established ∈ after.2 → .attempting ∈ after.2
  /-- An attempt that is over and came to no link. -/
  failed : .attempting ∈ after.2 → ∀ w', after.1.worker = some w' → w'.phase.boundary = true →
    w'.link = none → after.1.shared.running = true → ∃ opened, FailsOnce w opened w' after.2
  /-- An attempt that is given up is no failure. -/
  abandoned : ∀ w' opened, after.1.worker = some w' → w'.phase.attempt? = some opened →
    after.1.shared.permit = true → after.1.shared.running = false →
    (after.1.step .wake).1.worker = some { w' with phase := .between } ∧
      Trace.failures (after.2 ++ (after.1.step .wake).2) = [] ∧ c.Keeps (after.1.step .wake).1

theorem Within.oneOutcome {c : Client} {w : Worker} {after : Step} (hw : c.worker = some w)
    (hp : w.phase.boundary = true) (h : Within c after.1 (Trace.quiet after.2)) :
    OneOutcome c w after := by
  obtain ⟨⟨v, hv⟩, he, htried, hbegun, -⟩ := h
  rw [Trace.outcomes_quiet] at he
  have hblamed : Trace.failures after.2 ≠ [] ∨ .established ∈ after.2 →
      w.link.isSome ∨ .attempting ∈ after.2 := by
    have ho := hbegun.outcome
    rwa [Trace.failures_quiet, mem_quiet_iff rfl, mem_quiet_iff rfl,
      engaged_iff_link hw (attempt?_of_boundary hp)] at ho
  have hestablished : .established ∈ Trace.outcomes after.2 ↔ .established ∈ after.2 :=
    Trace.mem_outcomes rfl
  refine ⟨?_, fun hf hn => ?_, fun hl w' hw' hl' => ?_,
    fun hf => ⟨hblamed (.inl hf), fun w' hw' => ?_⟩, fun hs => ?_,
    fun ha w' hw' hb hl hr => ?_, fun w' opened hw' hp hn hr => ?_⟩
  · rw [← Trace.failures_outcomes]
    exact he.once
  · exact he.keeps hw hv (by rwa [Trace.failures_outcomes]) (mt hestablished.1 hn)
  · obtain ⟨opened, ho, hos, hb, -⟩ := he.failure hw hw' (he.lost hw hw' hl hl')
    rw [ho hl] at hos
    exact ⟨hos, hb⟩
  · rw [← Trace.failures_outcomes] at hf
    obtain ⟨-, -, -, -, hleft⟩ := he.failure hw hw' hf
    exact hleft
  · rcases hblamed (.inr hs) with hl | ha
    · simp [he.unlinked hw (hestablished.2 hs)] at hl
    · exact ha
  · have hfailed : Trace.failures (Trace.outcomes after.2) ≠ [] := by
      rw [Trace.failures_outcomes]
      rcases htried ((mem_quiet_iff rfl).2 ha) with ⟨u, hu, hp⟩ | hf | hm | hno
      · obtain rfl := Option.some.inj (hw'.symm.trans hu)
        cases hq : w'.phase <;> simp [hq, Phase.attempt?, Phase.boundary] at hp hb
      · rwa [Trace.failures_quiet] at hf
      · have hlink := he.linked hw' (hestablished.2 ((mem_quiet_iff rfl).1 hm))
        simp [hl] at hlink
      · simp [hr] at hno
    obtain ⟨opened, -, hos, hb, -⟩ := he.failure hw hw' hfailed
    exact ⟨opened, hos, hb⟩
  · have hb : w'.phase.boundary = false := by
      cases hq : w'.phase <;> simp [hq, Phase.attempt?] at hp ⊢ <;> rfl
    obtain ⟨ho, hkeeps⟩ := he.underway hw' hb
    rw [step_wake_of_attempt hw' hp hn hr]
    refine ⟨rfl, ?_, hkeeps.trans (.ofWorker hw' rfl ⟨rfl, rfl, rfl, id⟩ rfl rfl)⟩
    rw [Trace.failures_append, ← Trace.failures_outcomes, ho]
    cases opened <;> rfl

theorem Counts.all {c : Client} {es : Trace} (h : Counts c es.tally) : Counted c es := by
  refine ⟨h.counted, h.scheduled, h.delays, fun hno => ?_⟩
  rw [Trace.length_row_tally hno]
  refine ⟨h.attempts, ?_⟩
  rw [Client.status, h.delay]

/-- In every run of a client, at every moment and for every turn of a worker. -/
theorem failures_counted_once (settings : Settings) (capacity : UInt64) (ss : List Signal) :
    Counted ((initial settings capacity).run ss).1 ((initial settings capacity).run ss).2 ∧
      ∀ w rest, Iteration ((initial settings capacity).run ss).1 w rest →
        OneOutcome ((initial settings capacity).run ss).1 w
          (((initial settings capacity).run ss).1.run (.turn :: rest)) := by
  have hk := run_wellKept settings capacity ss
  refine ⟨(run_counts settings capacity ss).all, fun w rest hi => ?_⟩
  exact (hi.within hk).oneOutcome hi.worker hi.boundary

theorem failures_counted_once_refused :
    Iteration ((initial trialSettings 2000).run [.call .start]).1 Worker.initial
        [.call (.clock 500), .connectFailed (.system .connectionRefused)] ∧
      OneOutcome ((initial trialSettings 2000).run [.call .start]).1 Worker.initial
        (((initial trialSettings 2000).run [.call .start]).1.run
          [.turn, .call (.clock 500), .connectFailed (.system .connectionRefused)]) := by
  have hi : Iteration ((initial trialSettings 2000).run [.call .start]).1 Worker.initial
      [.call (.clock 500), .connectFailed (.system .connectionRefused)] :=
    ⟨rfl, rfl, rfl, by simp [Turnless, TakesTurn]⟩
  exact ⟨hi, (failures_counted_once trialSettings 2000 [.call .start]).2 _ _ hi⟩

end Client

end IGate
