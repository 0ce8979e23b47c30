import IGate.Proofs.Client.Conversation

/-! What hangs on the passcode: nothing but the bytes of the login line. A client that knows no
passcode does the same on the same outcomes, where the outcome of a login is that it has gone out or
why it has not. -/

namespace IGate

def Login.masked (l : Login) : Login := { l with credentials := { l.credentials with passcode := "" } }

def Phase.login? : Phase → Option Bytes
  | .loggingIn _ rest => some rest
  | _ => none

def Phase.masked : Phase → Phase
  | .loggingIn buffer _ => .loggingIn buffer []
  | phase => phase

theorem Phase.masked_of_login? {p : Phase} (h : p.login? = none) : p.masked = p := by
  cases p with
  | loggingIn => cases h
  | _ => rfl

def Worker.masked (w : Worker) : Worker := { w with phase := w.phase.masked }

def Pushed.outcome? : Pushed → Option Signal
  | .failed e => some (.writeFailed e)
  | .finished => some .flushed
  | .waiting _ _ => none

namespace Client

def withLogin (c : Client) (l : Login) : Client :=
  { c with settings := { c.settings with login := l } }

def masked (c : Client) : Client :=
  { c.withLogin c.settings.login.masked with
    worker := c.worker.map Worker.masked }

def login? (c : Client) : Option Bytes := c.worker.bind (·.phase.login?)

/-- What a signal tells the client. How many bytes of a login have gone out is left open. -/
def meets? (c : Client) : Signal → Option Signal
  | .call k => some (.call k)
  | .elapse d => some (.elapse d)
  | .wake => some .wake
  | s =>
    match c.login? with
    | some rest => (Pushed.ofSignal rest s).outcome?
    | none => some s

/-- What a client meets in a run: the calls, the bytes of the server and the outcomes. -/
def met (c : Client) : List Signal → List Signal
  | [] => []
  | s :: ss => (c.meets? s).toList ++ (c.step s).1.met ss

/-- The same answer, apart from the passcode. -/
def Alike (a b : Step) : Prop := a.1.masked = b.1.masked ∧ a.2 = b.2

section
variable (c : Client) (w : Worker) (l : Login) (s : Signal)

theorem masked_of_login? (h : c.login? = none) :
    c.masked = c.withLogin c.settings.login.masked := by
  cases hw : c.worker with
  | none => simp [masked, withLogin, hw]
  | some w =>
    have hp : w.phase.login? = none := by simpa [login?, hw] using h
    simp [masked, withLogin, hw, Worker.masked, Phase.masked_of_login? hp]

/-! Each function of the step does the same with another login -/

theorem connectedTurn_withLogin :
    (c.withLogin l).connectedTurn w =
      ((c.connectedTurn w).1.withLogin l, (c.connectedTurn w).2) := by
  unfold connectedTurn
  have hs : (c.withLogin l).shared = c.shared := rfl
  rw [hs]
  split <;> rfl

theorem disconnectedTurn_withLogin :
    (c.withLogin l).disconnectedTurn w =
      ((c.disconnectedTurn w).1.withLogin l, (c.disconnectedTurn w).2) := by
  unfold disconnectedTurn
  split
  · rfl
  · split <;> rfl

theorem turn_withLogin :
    (c.withLogin l).turn w = ((c.turn w).1.withLogin l, (c.turn w).2) := by
  have hs : (c.withLogin l).shared = c.shared := rfl
  have ht : (c.withLogin l).ticked = c.ticked.withLogin l := rfl
  cases hr : c.shared.running with
  | true =>
    rw [turn_of_running hr, turn_of_running (hs ▸ hr), ht, hs, connectedTurn_withLogin,
      disconnectedTurn_withLogin]
    split <;> rfl
  | false =>
    unfold turn
    rw [hs, hr]
    rfl

theorem wakeAttempt_withLogin (opened : Bool) :
    (c.withLogin l).wakeAttempt w opened =
      ((c.wakeAttempt w opened).1.withLogin l, (c.wakeAttempt w opened).2) := by
  unfold wakeAttempt
  have hs : (c.withLogin l).shared = c.shared := rfl
  rw [hs]
  split
  · simp only
    split <;> rfl
  · rfl

theorem connecting_withLogin (deadline : Duration) :
    (c.withLogin l).connecting w deadline s =
      ((c.connecting w deadline s).1.withLogin l, (c.connecting w deadline s).2) := by
  have hn : (c.withLogin l).now = c.now := rfl
  cases s with
  | timeout =>
    simp only [connecting, hn]
    split <;> rfl
  | wake => exact c.wakeAttempt_withLogin w l false
  | _ => rfl

theorem sending_withLogin (rest : Bytes) :
    (c.withLogin l).sending w rest s =
      ((c.sending w rest s).1.withLogin l, (c.sending w rest s).2) := by
  unfold sending
  split <;> rfl

theorem heardLine_withLogin (raw : Bytes) :
    (c.withLogin l).heardLine w raw =
      ((c.heardLine w raw).1.withLogin l, (c.heardLine w raw).2) := by
  unfold heardLine
  have hs : (c.withLogin l).shared = c.shared := rfl
  simp only [hs]
  split_ifs
  · rfl
  · rfl
  · split <;> rfl

theorem polling_withLogin (deadline : Duration) :
    (c.withLogin l).polling w deadline s =
      ((c.polling w deadline s).1.withLogin l, (c.polling w deadline s).2) := by
  have hn : (c.withLogin l).now = c.now := rfl
  have hs : (c.withLogin l).shared = c.shared := rfl
  unfold polling
  rw [hn, hs]
  split
  · rfl
  · next buffer _ =>
    split
    · split <;> rfl
    · cases Heard.ofSignal c.now deadline buffer s with
      | line raw rest => simp only [pollHeard, heardLine_withLogin]
      | _ => rfl

theorem delivering_withLogin (line : String) :
    (c.withLogin l).delivering w line s =
      ((c.delivering w line s).1.withLogin l, (c.delivering w line s).2) := by
  cases s <;> rfl

theorem idle_withLogin (deadline : Duration) :
    (c.withLogin l).idle w deadline s =
      ((c.idle w deadline s).1.withLogin l, (c.idle w deadline s).2) := by
  have hn : (c.withLogin l).now = c.now := rfl
  have hs : (c.withLogin l).shared = c.shared := rfl
  unfold idle
  rw [hn, hs]
  split
  · split <;> rfl
  · split <;> rfl
  · rfl

/-! The passcode -/

theorem masked_wait (p : Phase) : (c.wait w p).masked = c.masked.wait w p.masked := rfl

theorem masked_withLogin :
    (c.withLogin c.settings.login.masked).masked = c.masked := rfl

theorem masked_with (shared : Shared) (now : Duration) :
    masked { c.masked with shared := shared, now := now } =
      masked { c with shared := shared, now := now } := by
  have hphase : ∀ p : Phase, p.masked.masked = p.masked := fun p => by cases p <;> rfl
  cases hw : c.worker <;> simp [masked, withLogin, hw, Login.masked, Worker.masked, hphase]

theorem masked_masked : c.masked.masked = c.masked := c.masked_with _ _

theorem enqueue_alike (frame : Bytes) : Alike (c.masked.enqueue frame) (c.enqueue frame) := by
  have hs : c.masked.shared = c.shared := rfl
  unfold enqueue
  rw [hs]
  split
  · split
    · exact ⟨c.masked_with _ _, rfl⟩
    · exact ⟨c.masked_masked, rfl⟩
  · exact ⟨c.masked_masked, rfl⟩

theorem call_alike (k : Call) : Alike (c.masked.call k) (c.call k) := by
  cases k with
  | start =>
    have hw' : c.masked.worker = c.worker.map Worker.masked := rfl
    cases hw : c.worker with
    | none =>
      simp only [call, hw', hw, Option.map_none]
      exact ⟨rfl, rfl⟩
    | some w =>
      simp only [call, hw', hw, Option.map_some]
      exact ⟨c.masked_masked, rfl⟩
  | write frame => exact c.enqueue_alike frame
  | writeMessage text => exact c.enqueue_alike _
  | requestStop | clock | setSink => exact ⟨c.masked_with _ _, rfl⟩

theorem wakeAttempt_alike (opened : Bool) :
    Alike (c.masked.wakeAttempt w.masked opened) (c.wakeAttempt w opened) := by
  have hs : c.masked.shared = c.shared := rfl
  unfold wakeAttempt
  rw [hs]
  split
  · simp only
    split
    · exact ⟨c.masked_with _ _, rfl⟩
    · exact ⟨rfl, rfl⟩
  · exact ⟨c.masked_masked, rfl⟩

variable {c w l s} in
theorem alike_of_withLogin {a b : Step} (hl : a.1.settings.login = c.settings.login)
    (h : b = (a.1.withLogin c.settings.login.masked, a.2)) : Alike b a := by
  subst h
  refine ⟨?_, rfl⟩
  rw [← hl]
  rfl

/-- The passcode goes into the login when the banner has been read. -/
theorem greetingHeard_alike (stage : Stage) (deadline : Duration) (h : Heard) :
    Alike ((c.withLogin c.settings.login.masked).greetingHeard w stage deadline h)
      (c.greetingHeard w stage deadline h) := by
  cases h with
  | line raw rest =>
    cases stage with
    | banner =>
      refine ⟨?_, rfl⟩
      simp only [greetingHeard, greeted, masked_wait, masked_withLogin, Phase.masked]
    | acknowledgement => exact ⟨rfl, rfl⟩
  | _ => exact ⟨rfl, rfl⟩

variable {c w s} in
theorem proceed_alike (hw : c.worker = some w) (hp : w.phase.login? = none) :
    Alike ((c.withLogin c.settings.login.masked).proceed w s) (c.proceed w s) := by
  have hsettings : (c.proceed w s).1.settings.login = c.settings.login :=
    congrArg Settings.login (Move.settings (proceed_makes hw))
  unfold proceed at hsettings ⊢
  cases hphase : w.phase with
  | fresh =>
    simp only [hphase, starting, turn_withLogin] at hsettings ⊢
    split
    · simp only [if_pos ‹_›] at hsettings
      exact alike_of_withLogin hsettings rfl
    · exact ⟨rfl, rfl⟩
  | between =>
    simp only [hphase, turn_withLogin] at hsettings ⊢
    split
    · simp only [if_pos ‹_›] at hsettings
      exact alike_of_withLogin hsettings rfl
    · exact ⟨rfl, rfl⟩
  | idle deadline =>
    rw [hphase] at hsettings
    exact alike_of_withLogin hsettings (c.idle_withLogin w _ s deadline)
  | connecting deadline =>
    rw [hphase] at hsettings
    exact alike_of_withLogin hsettings (c.connecting_withLogin w _ s deadline)
  | greeting stage buffer deadline =>
    have hn : (c.withLogin c.settings.login.masked).now = c.now := rfl
    simp only [hphase, greeting] at hsettings ⊢
    rw [hn]
    split
    · simp only [if_pos ‹_›] at hsettings
      exact alike_of_withLogin hsettings (c.wakeAttempt_withLogin w _ true)
    · obtain ⟨hc, he⟩ :=
        c.greetingHeard_alike w stage deadline (Heard.ofSignal c.now deadline buffer s)
      exact ⟨hc, congrArg (readEvents (Heard.intake buffer s) ++ ·) he⟩
  | loggingIn => simp [hphase, Phase.login?] at hp
  | sending rest =>
    rw [hphase] at hsettings
    exact alike_of_withLogin hsettings (c.sending_withLogin w _ s rest)
  | polling deadline =>
    rw [hphase] at hsettings
    exact alike_of_withLogin hsettings (c.polling_withLogin w _ s deadline)
  | delivering line =>
    rw [hphase] at hsettings
    exact alike_of_withLogin hsettings (c.delivering_withLogin w _ s line)

theorem step_alike (h : c.login? = none) : Alike (c.masked.step s) (c.step s) := by
  cases s with
  | call k => exact c.call_alike k
  | elapse d => exact ⟨c.masked_with _ _, rfl⟩
  | _ =>
    rw [c.masked_of_login? h]
    have hworker : (c.withLogin c.settings.login.masked).worker = c.worker := rfl
    cases hw : c.worker with
    | none =>
      simp only [step, hworker, hw]
      exact ⟨rfl, rfl⟩
    | some w =>
      simp only [step, hworker, hw]
      exact proceed_alike hw (by simpa [login?, hw] using h)

/-! A login under way -/

theorem loggingIn_silent {buffer rest : Bytes} (hw : c.worker = some w)
    (hp : w.phase = .loggingIn buffer rest) (hs : s ≠ .wake)
    (ho : (Pushed.ofSignal rest s).outcome? = none) :
    (c.loggingIn w buffer rest s).1.masked = c.masked ∧
      ∃ part, (c.loggingIn w buffer rest s).2 = sentEvents part := by
  rw [loggingIn, if_neg hs]
  cases hpush : Pushed.ofSignal rest s with
  | waiting part rest' =>
    refine ⟨?_, part, rfl⟩
    simp [masked, withLogin, wait, withWorker, hw, hp, Worker.masked, Phase.masked]
  | _ => simp [hpush, Pushed.outcome?] at ho

theorem loggingIn_alike {buffer rest : Bytes} {m : Signal} (hw : c.worker = some w)
    (hp : w.phase = .loggingIn buffer rest) (hs : s ≠ .wake)
    (ho : (Pushed.ofSignal rest s).outcome? = some m) :
    Alike (c.masked.step m) (c.loggingIn w buffer rest s) := by
  have hw' : c.masked.worker = some w.masked := congrArg (Option.map Worker.masked) hw
  have hp' : w.masked.phase = .loggingIn buffer [] := congrArg Phase.masked hp
  rw [loggingIn, if_neg hs]
  cases hpush : Pushed.ofSignal rest s with
  | waiting part rest' => simp [hpush, Pushed.outcome?] at ho
  | failed e =>
    obtain rfl : .writeFailed e = m := by simpa [hpush, Pushed.outcome?] using ho
    simp only [step, hw', proceed, hp']
    exact ⟨rfl, rfl⟩
  | finished =>
    obtain rfl : .flushed = m := by simpa [hpush, Pushed.outcome?] using ho
    simp only [step, hw', proceed, hp']
    exact ⟨rfl, rfl⟩

variable {c s} in
theorem meets?_of_login? (h : c.login? = none) : c.meets? s = some s := by
  cases s <;> simp [meets?, h]

variable {c} in
theorem exists_loggingIn {rest : Bytes} (h : c.login? = some rest) :
    ∃ w buffer, c.worker = some w ∧ w.phase = .loggingIn buffer rest := by
  obtain ⟨w, hw, hp⟩ := Option.bind_eq_some_iff.1 h
  cases hphase : w.phase with
  | loggingIn buffer rest' =>
    obtain rfl : rest' = rest := by simpa [hphase, Phase.login?] using hp
    exact ⟨w, buffer, hw, hphase⟩
  | _ => simp [hphase, Phase.login?] at hp

variable {c s} in
theorem step_of_met_nothing (h : c.meets? s = none) :
    (c.step s).1.masked = c.masked ∧ c.login?.isSome ∧ ∃ part, (c.step s).2 = sentEvents part := by
  cases hl : c.login? with
  | none => simp [meets?_of_login? hl] at h
  | some rest =>
    obtain ⟨w, buffer, hw, hp⟩ := exists_loggingIn hl
    cases s with
    | call | elapse | wake => cases h
    | _ =>
      simp only [meets?, hl] at h
      simp only [step, hw, proceed, hp]
      obtain ⟨hc, he⟩ := c.loggingIn_silent w _ hw hp (by simp) h
      exact ⟨hc, rfl, he⟩

variable {c s} in
theorem step_of_met {m : Signal} (h : c.meets? s = some m) :
    Alike (c.masked.step m) (c.step s) := by
  cases hl : c.login? with
  | none =>
    obtain rfl : s = m := by simpa [meets?_of_login? hl] using h
    exact c.step_alike s hl
  | some rest =>
    obtain ⟨w, buffer, hw, hp⟩ := exists_loggingIn hl
    have hw' : c.masked.worker = some w.masked := congrArg (Option.map Worker.masked) hw
    have hp' : w.masked.phase = .loggingIn buffer [] := congrArg Phase.masked hp
    cases s with
    | call k =>
      obtain rfl : .call k = m := by simpa [meets?] using h
      exact c.call_alike k
    | elapse d =>
      obtain rfl : .elapse d = m := by simpa [meets?] using h
      exact ⟨c.masked_with _ _, rfl⟩
    | wake =>
      obtain rfl : .wake = m := by simpa [meets?] using h
      simp only [step, hw', hw, proceed, hp, hp']
      exact c.wakeAttempt_alike w true
    | _ =>
      simp only [meets?, hl] at h
      simp only [step, hw, proceed, hp]
      exact c.loggingIn_alike w _ hw hp (by simp) h

end

end Client

end IGate
