import IGate.Proofs.Client.Exchange
import IGate.Proofs.Client.Inbound
import IGate.Proofs.Client.Outbound
import IGate.Proofs.Login

/-! On every connection the client waits for a line, logs in, waits for a second line and only then
sends frames. What breaks the login off closes the connection. -/

namespace IGate

open Trace LineBuffer

/-- The bytes still owed of what goes out, if something does. -/
def Phase.owed? : Phase → Option Bytes
  | .loggingIn _ rest | .sending rest => some rest
  | _ => none

/-- What breaks off a wait for a line. -/
inductive Heard.BrokenBy (now deadline : Duration) (buffer : Bytes) : Signal → Prop
  | late (hb : scan buffer = .unfinished) (hd : deadline ≤ now) :
    BrokenBy now deadline buffer .timeout
  | ended (hb : scan buffer = .unfinished) : BrokenBy now deadline buffer .endOfStream
  | failed (hb : scan buffer = .unfinished) (e : IoError) :
    BrokenBy now deadline buffer (.readFailed e)
  | full (hb : scan buffer = .overlong) : BrokenBy now deadline buffer .poll
  | overrun (hb : scan buffer = .unfinished) (chunk : Bytes) (hc : chunk.length ≤ readChunk)
    (ho : scan (buffer ++ chunk) = .overlong) : BrokenBy now deadline buffer (.received chunk)

/-- What breaks off a write of which `rest` is still to go out. -/
inductive Pushed.BrokenBy (rest : Bytes) : Signal → Prop
  | failed (e : IoError) : BrokenBy rest (.writeFailed e)
  | none (hr : rest ≠ []) : BrokenBy rest (.took 0)

/-- What breaks off the login on a connection: the worker waits for a line and there is none in
time, the stream ends, a read fails or the line is too long, or it sends the login and the write
fails. -/
def Phase.BrokenBy (now : Duration) (s : Signal) : Phase → Prop
  | .greeting _ buffer deadline => Heard.BrokenBy now deadline buffer s
  | .loggingIn _ rest => Pushed.BrokenBy rest s
  | _ => False

theorem Heard.brokenBy_iff {now deadline : Duration} {buffer : Bytes} {s : Signal} :
    BrokenBy now deadline buffer s ↔
      (∃ e, ofSignal now deadline buffer s = .failed e) ∨
        ofSignal now deadline buffer s = .timedOut := by
  constructor
  · intro h
    cases h with
    | late hb hd => exact .inr (by simp [ofSignal, hb, hd])
    | ended hb => exact .inl ⟨.closedByPeer, by simp [ofSignal, hb]⟩
    | failed hb e => exact .inl ⟨e, by simp [ofSignal, hb]⟩
    | full hb => exact .inl ⟨overlongError, by simp [ofSignal, ofScan, hb]⟩
    | overrun hb chunk hc ho =>
      exact .inl ⟨overlongError, by simp [ofSignal, intake, ofScan, hb, hc, ho]⟩
  · intro h
    unfold ofSignal at h
    split at h
    · rcases h with ⟨e, h⟩ | h
      · exact .full (ofScan_failed h)
      · exact absurd h ofScan_ne_timedOut
    · next chunk hb =>
      rcases h with ⟨e, h⟩ | h
      · have ho := ofScan_failed h
        by_cases hc : chunk.length ≤ readChunk
        · exact .overrun hb chunk hc (by simpa [intake, hb, hc] using ho)
        · simp [intake, hb, hc] at ho
      · exact absurd h ofScan_ne_timedOut
    · next hb => exact .ended hb
    · next e hb => exact .failed hb e
    · next hb =>
      split at h
      · next hd => exact .late hb hd
      · rcases h with ⟨_, h⟩ | h <;> cases h
    · rcases h with ⟨_, h⟩ | h <;> cases h

theorem Pushed.brokenBy_iff {rest : Bytes} {s : Signal} :
    BrokenBy rest s ↔ ∃ e, ofSignal rest s = .failed e := by
  constructor
  · intro h
    cases h with
    | failed e => exact ⟨e, rfl⟩
    | none hr => exact ⟨.ofKind .writeZero, by simp [ofSignal, hr]⟩
  · rintro ⟨e, h⟩
    unfold ofSignal at h
    split at h
    · split at h
      · cases h
      · next hr => exact .none hr
    · cases h
    · exact .failed _
    · split at h <;> cases h
    · cases h

namespace Client

def owed? (c : Client) : Option Bytes := c.worker.bind (·.phase.owed?)

/-- What holds of a connection under way: it has heard as many lines as its phase tells, and has
sent what is in turn. -/
structure Conversing (c : Client) (k : Trace) : Prop where
  listening : c.Listening k
  exchange : Exchange c.settings.login.bytes k c.linkUp c.owed?

section
variable {c c' : Client} {w w' : Worker} {s : Signal} {new k : Trace}

theorem owed?_of_worker (hw : c.worker = some w) : c.owed? = w.phase.owed? := by
  simp [owed?, hw]

theorem owed?_of_boundary (hw : c.worker = some w) (hp : w.phase.boundary = true) :
    c.owed? = none := by
  rw [owed?_of_worker hw]
  cases h : w.phase <;> simp_all [Phase.boundary, Phase.owed?]

theorem owed?_phaseFor (c : Client) (line : String) : (c.phaseFor line).owed? = none := by
  rcases c.phaseFor_eq_or line with h | h <;> rw [h] <;> rfl

theorem Move.settings (hm : Move c s c' new) : c'.settings = c.settings := by
  cases hm <;> rfl

theorem run_settings (c : Client) (ss : List Signal) : (c.run ss).1.settings = c.settings := by
  induction ss generalizing c with
  | nil => rfl
  | cons s rest ih => exact (ih _).trans (c.step_makes s).settings

theorem Listening.length_linesRead (h : c.Listening k) (hw : c.worker = some w) :
    min 2 (linesRead k).length = w.phase.greetings := by
  obtain ⟨w₀, hw₀, -, hn⟩ := h
  obtain rfl : w₀ = w := by simpa [hw] using hw₀.symm
  exact hn

theorem exchange_congr {login : Bytes} {up : Bool} {owed : Option Bytes} (hl : c'.linkUp = up)
    (ho : c'.owed? = owed) (h : Exchange login k up owed) :
    Exchange login k c'.linkUp c'.owed? := by
  rw [hl, ho]
  exact h

theorem Move.exchange (hm : Move c s c' new) (hk : c.WellKept) (hu : c.connectionUp = true)
    (hu' : c'.connectionUp = true) (hlisten : c.Listening k)
    (h : Exchange c.settings.login.bytes k c.linkUp c.owed?) :
    Exchange c.settings.login.bytes (k ++ new) c'.linkUp c'.owed? := by
  cases hm with
  | ignored | stopRequested | accepted | rejected | clocked | sinkSet | elapsed | stirred =>
    exact h.more rfl rfl (by simp) (.inl rfl)
  | started hw => simp [connectionUp, hw] at hu
  | ended => simp [connectionUp, shutdown] at hu'
  | rested hw hp =>
    rw [owed?_of_boundary hw hp] at h
    exact exchange_congr (linkUp_eq hw rfl rfl) rfl (h.more rfl rfl (by simp) (.inl rfl))
  | took hw hp _ hl =>
    have hup : c.linkUp = true := (linkUp_of_worker hw).trans hl
    rw [hup, owed?_of_boundary hw hp] at h
    exact exchange_congr (Eq.trans (linkUp_eq hw rfl rfl) hup) rfl (h.took _)
  | attempted hw hp _ hl | reattempted hw hp _ hl | dozed hw hp _ hl =>
    rw [connectionUp_of_phase hw (attempt?_of_boundary hp), hl] at hu
    cases hu
  | opened hw hp | unreached hw hp =>
    obtain ⟨-, hn⟩ := connectionUp_of_attempt hk hw (congrArg Phase.attempt? hp)
    simp [hn] at hu
  | abandoned hw hp =>
    rw [connectionUp_wait (connectionUp_of_attempt hk hw hp).1] at hu'
    cases hu'
  | ungreeted hw hp | loginFailed hw hp =>
    obtain ⟨hl, -⟩ := connectionUp_of_attempt hk hw (congrArg Phase.attempt? hp)
    rw [connectionUp_scheduleReconnect hl] at hu'
    cases hu'
  | awaited hw hp =>
    rw [owed?_of_worker hw, hp] at h
    exact exchange_congr (linkUp_eq hw rfl rfl) rfl (h.read _)
  | @greeted w buffer deadline s raw rest hw hp =>
    have hread := hlisten.length_linesRead hw
    rw [hp, Phase.greetings] at hread
    have hdown : c.linkUp = false := linkUp_of_attempt hk hw (by rw [hp]; rfl)
    rw [hdown, owed?_of_worker hw, hp] at h
    have hnone : linesRead (k ++ readEvents (Heard.intake buffer s)) = [] := by
      rw [linesRead_append, linesRead_readEvents, List.append_nil, ← List.length_eq_zero_iff]
      omega
    have hbanner := (h.read (Heard.intake buffer s)).banner hnone raw
    rw [List.append_assoc] at hbanner
    exact exchange_congr (Eq.trans (linkUp_eq hw rfl rfl) hdown) rfl hbanner
  | @established w buffer deadline s raw rest hw hp =>
    have hread := hlisten.length_linesRead hw
    rw [hp, Phase.greetings] at hread
    have hdown : c.linkUp = false := linkUp_of_attempt hk hw (by rw [hp]; rfl)
    rw [hdown, owed?_of_worker hw, hp] at h
    have hone : (linesRead (k ++ readEvents (Heard.intake buffer s))).length = 1 := by
      rw [linesRead_append, linesRead_readEvents, List.append_nil]
      omega
    have hanswer := (h.read (Heard.intake buffer s)).established hone raw
    rw [List.append_assoc] at hanswer
    exact hanswer
  | loginSent hw hp hs | frameSent hw hp hs =>
    rw [owed?_of_worker hw, hp, Phase.owed?, Pushed.ofSignal_waiting hs] at h
    exact exchange_congr (linkUp_eq hw rfl rfl) rfl h.push
  | loginFlushed hw hp hs | frameFlushed hw hp hs =>
    rw [owed?_of_worker hw, hp, Phase.owed?, Pushed.ofSignal_finished hs] at h
    rw [List.append_nil]
    exact exchange_congr (linkUp_eq hw rfl rfl) rfl h.finish
  | frameFailed | readFailed => cases hu'
  | pollWoken hw hp | pollEnded hw hp | sinkDone hw hp | idleEnded hw hp | idleWoken hw hp =>
    rw [owed?_of_worker hw, hp] at h
    exact exchange_congr (linkUp_eq hw rfl rfl) rfl (h.more rfl rfl (by simp) (.inl rfl))
  | polled hw hp hl =>
    rw [owed?_of_worker hw] at h
    exact exchange_congr (linkUp_eq hw rfl (by simp [hl])) rfl (h.read _)
  | heard hw hp hl =>
    have hup : c.linkUp = true := by rw [linkUp_of_worker hw, hl]; rfl
    rw [owed?_of_worker hw, hp] at h
    rw [← List.append_assoc]
    refine exchange_congr (linkUp_eq hw rfl (by simp [hl])) ?_
      ((h.read _).more (by simp [sent]) (by simp [Trace.dequeued]) (by simp) (.inr hup))
    rw [owed?_of_worker rfl, owed?_phaseFor]
    rfl

theorem Move.not_mem_established_of_closed (hm : Move c s c' new) (hx : Event.closed ∈ new) :
    Event.established ∉ new := by
  cases hm <;> simp at hx <;> simp [hx]

theorem Move.exchange_closing {login : Bytes} {before later : Trace} {up : Bool}
    {owed : Option Bytes} (hm : Move c s c' (before ++ Event.closed :: later))
    (h : Exchange login k up owed) : Exchange login (k ++ before ++ [Event.closed]) up owed := by
  have hd : Trace.dequeued before = [] :=
    hm.flatMap_before_closed (fun _ => rfl) rfl (fun _ => rfl) (fun _ => rfl) rfl
  have hs : Trace.sent before = [] :=
    hm.flatMap_before_closed (fun _ => rfl) rfl (fun _ => rfl) (fun _ => rfl) rfl
  have hl : linesRead before = [] :=
    hm.flatMap_before_closed (fun _ => rfl) rfl (fun _ => rfl) (fun _ => rfl) rfl
  have he : Event.established ∉ before := fun hmem =>
    hm.not_mem_established_of_closed (by simp) (List.mem_append_left _ hmem)
  exact (h.more hs hd he (.inl hl)).more rfl rfl (by simp) (.inl rfl)

theorem Move.begins_conversing (hm : Move c s c' new) (hk : c.WellKept) (ho : Event.opened ∈ new) :
    c'.Conversing [] := by
  refine ⟨tracking_heeded.begins hm hk ho, ?_⟩
  have hup : c'.linkUp = false ∧ c'.owed? = none := by
    cases hm <;> simp at ho
    next w deadline hw hp =>
      obtain ⟨hl, -⟩ := connectionUp_of_attempt hk hw (congrArg Phase.attempt? hp)
      exact ⟨by simp [linkUp, wait, withWorker, hl], rfl⟩
  rw [hup.1, hup.2]
  exact .start

theorem Move.conversing (hm : Move c s c' new) (hk : c.WellKept) (hu : c.connectionUp = true)
    (hu' : c'.connectionUp = true) (h : c.Conversing k) : c'.Conversing (k ++ new) := by
  refine ⟨hm.listening hk hu hu' h.listening, ?_⟩
  rw [hm.settings]
  exact hm.exchange hk hu hu' h.listening h.exchange

theorem tracking_conversing :
    Tracking .opened connectionUp (fun _ => True) Conversing where
  start_ne := nofun
  span := connection_span
  begins := fun hm hk ho => hm.begins_conversing hk ho
  continues := fun hm hk hu hu' h => hm.conversing hk hu hu' h
  ends := fun _ _ _ _ _ => trivial
  current := fun _ => trivial

theorem conversations_of_idle (hk : c.WellKept) (hu : c.connectionUp = false) (ss : List Signal) :
    ∀ k ∈ connections (c.run ss).2, Conversation c.settings.login.bytes k := by
  let T : Settings → Trace → Prop := fun settings k => Conversation settings.login.bytes k
  have hcurrent : ∀ {c : Client} {k : Trace}, c.Conversing k → T c.settings k :=
    fun h => h.exchange.conversation
  have hends : ∀ {c : Client} {s c' before later k},
      Move c s c' (before ++ Event.closed :: later) → c.Conversing k →
        T c.settings (k ++ before ++ [Event.closed]) :=
    fun hm h => (hm.exchange_closing h.exchange).conversation
  exact tracking_conversing.run_all Move.settings hcurrent hends hk hu ss

theorem conversations_of_run (settings : Settings) (capacity : UInt64) (ss : List Signal) :
    ∀ k ∈ connections ((initial settings capacity).run ss).2,
      Conversation settings.login.bytes k :=
  conversations_of_idle (c := initial settings capacity) rfl rfl ss

/-! How a login ends -/

def LoginBroken (c : Client) (s : Signal) : Prop :=
  ∃ w, c.worker = some w ∧ w.phase.BrokenBy c.now s

/-- A stop was requested, and the worker is woken up for it. -/
def Abandons (c : Client) (s : Signal) : Prop :=
  s = .wake ∧ c.shared.permit = true ∧ c.shared.running = false

theorem closed_wakeAttempt_iff :
    Event.closed ∈ (c.wakeAttempt w true).2 ↔
      c.shared.permit = true ∧ c.shared.running = false := by
  unfold wakeAttempt
  cases hp : c.shared.permit
  · simp
  · cases hr : c.shared.running <;> simp [Shared.takePermit, hr]

theorem closed_greetingHeard_iff {stage : Stage} {deadline : Duration} {h : Heard} :
    Event.closed ∈ (c.greetingHeard w stage deadline h).2 ↔
      (∃ e, h = .failed e) ∨ h = .timedOut := by
  cases h with
  | line raw rest =>
    cases stage with
    | banner => simp [greetingHeard, Client.greeted]
    | acknowledgement =>
      simp only [greetingHeard, Client.greeted]
      split <;> simp
  | failed e => simp [greetingHeard, failHandshake]
  | timedOut => simp [greetingHeard, failHandshake]
  | waiting buffer => simp [greetingHeard]

theorem closed_greeting_iff {stage : Stage} {buffer : Bytes} {deadline : Duration} :
    Event.closed ∈ (c.greeting w stage buffer deadline s).2 ↔
      Heard.BrokenBy c.now deadline buffer s ∨ c.Abandons s := by
  unfold greeting Abandons
  split
  · next hs =>
    subst hs
    have hbroken : ¬ Heard.BrokenBy c.now deadline buffer .wake := nofun
    simp [closed_wakeAttempt_iff, hbroken]
  · next hs =>
    simp [hs, closed_greetingHeard_iff, Heard.brokenBy_iff]

theorem closed_loggingIn_iff {buffer rest : Bytes} :
    Event.closed ∈ (c.loggingIn w buffer rest s).2 ↔ Pushed.BrokenBy rest s ∨ c.Abandons s := by
  unfold loggingIn Abandons
  split
  · next hs =>
    subst hs
    have hbroken : ¬ Pushed.BrokenBy rest .wake := nofun
    simp [closed_wakeAttempt_iff, hbroken]
  · next hs =>
    rw [Pushed.brokenBy_iff]
    cases hpush : Pushed.ofSignal rest s <;> simp [hs, failHandshake]

theorem attempt?_of_connectionUp (hu : c.connectionUp = true) (hl : c.linkUp = false) :
    ∃ w, c.worker = some w ∧ w.phase.attempt? = some true := by
  cases hw : c.worker with
  | none => simp [connectionUp, hw] at hu
  | some w =>
    rw [linkUp_of_worker hw] at hl
    exact ⟨w, rfl, by simpa [connectionUp, hw, hl] using hu⟩

theorem not_mem_closed_call (c : Client) (k : Call) : Event.closed ∉ (c.call k).2 := by
  have henqueue : ∀ frame, Event.closed ∉ (c.enqueue frame).2 := by
    intro frame
    unfold enqueue
    split
    · split <;> simp
    · simp
  cases k with
  | start => cases hw : c.worker <;> simp [call, hw]
  | write frame => exact henqueue frame
  | writeMessage text => exact henqueue _
  | _ => simp [call]

/-- Before the link is there, a connection is closed when the login is broken off or abandoned, and
on no other occasion. -/
theorem closed_step_iff (hu : c.connectionUp = true) (hl : c.linkUp = false) :
    Event.closed ∈ (c.step s).2 ↔ c.LoginBroken s ∨ c.Abandons s := by
  obtain ⟨w, hw, hp⟩ := attempt?_of_connectionUp hu hl
  have hbroken : c.LoginBroken s ↔ w.phase.BrokenBy c.now s := by simp [LoginBroken, hw]
  have hproceed : Event.closed ∈ (c.proceed w s).2 ↔ c.LoginBroken s ∨ c.Abandons s := by
    rw [hbroken]
    unfold proceed
    cases hphase : w.phase with
    | greeting stage buffer deadline => exact closed_greeting_iff
    | loggingIn buffer rest => exact closed_loggingIn_iff
    | _ =>
      rw [hphase] at hp
      cases hp
  have hcaller : ∀ s, w.phase.BrokenBy c.now s → (∀ k, s ≠ .call k) ∧ ∀ d, s ≠ .elapse d := by
    intro s h
    cases hphase : w.phase <;> rw [hphase] at h <;> cases h <;> exact ⟨nofun, nofun⟩
  cases s with
  | call k =>
    refine iff_of_false (not_mem_closed_call c k) ?_
    rintro (h | ⟨h, -⟩)
    · exact (hcaller _ (hbroken.1 h)).1 k rfl
    · cases h
  | elapse d =>
    refine iff_of_false List.not_mem_nil ?_
    rintro (h | ⟨h, -⟩)
    · exact (hcaller _ (hbroken.1 h)).2 d rfl
    · cases h
  | _ => simpa only [step, hw] using hproceed

theorem Move.connects (hm : Move c s c' new) (hc : c.shared.connected = false)
    (hc' : c'.shared.connected = true) :
    ∃ w buffer deadline raw, c.worker = some w ∧
      w.phase = .greeting .acknowledgement buffer deadline ∧ Event.lineRead raw ∈ new := by
  have hcall : c'.shared.connected ≠ c.shared.connected := by simp [hc, hc']
  cases hm with
  | @established w buffer deadline s raw rest hw hp =>
    exact ⟨w, buffer, deadline, raw, hw, hp, by simp⟩
  | ended | frameFailed | readFailed => cases hc'
  | _ => exact absurd rfl hcall

theorem Move.established_of_lineRead {raw : Bytes} (hm : Move c s c' new) (hk : c.WellKept)
    (hc : c.linkUp = false) (hlisten : c.Listening k) (h1 : (linesRead k).length = 1)
    (hraw : Event.lineRead raw ∈ new) : c'.shared.connected = true := by
  cases hm <;> simp at hraw
  · next hw hp hs =>
    have hread := hlisten.length_linesRead hw
    simp [hp, Phase.greetings, h1] at hread
  · rfl
  · next hw hp hl hs =>
    rw [linkUp_polling hk hw hp] at hc
    cases hc

theorem Move.sent (hm : Move c s c' new) (hk : c.WellKept) :
    Trace.sent new = [] ∨ c.connectionUp = true ∧ c'.connectionUp = true := by
  cases hm with
  | loginSent hw hp =>
    obtain ⟨hl, hu⟩ := connectionUp_of_attempt hk hw (congrArg Phase.attempt? hp)
    exact .inr ⟨hu, connectionUp_wait hl _⟩
  | frameSent hw hp =>
    have hl := (hk.sound hw).linked true (by rw [hp]; rfl)
    have hu : c.connectionUp = true := (connectionUp_of_phase hw (hp ▸ rfl)).trans hl
    exact .inr ⟨hu, by simp [connectionUp, wait, withWorker, hl]⟩
  | @ended w => exact .inl (by cases hl : w.link <;> simp [Trace.sent])
  | @abandoned _ opened => exact .inl (by cases opened <;> simp [Trace.sent])
  | awaited | polled | greeted | established | ungreeted | readFailed | heard =>
    exact .inl (by simp [Trace.sent])
  | _ => exact .inl rfl

theorem connectionUp_of_linkUp (h : c.linkUp = true) : c.connectionUp = true := by
  cases hw : c.worker <;> simp_all [linkUp, connectionUp]

/-- A connection that is closed is no longer there. -/
theorem Move.connectionUp_of_closed (hm : Move c s c' new) (hk : c.WellKept)
    (hx : Event.closed ∈ new) : c'.connectionUp = false := by
  have hspan := connection_span hm hk
  rw [Client.connectionUp_of_closed hm hk hx] at hspan
  generalize c'.connectionUp = u at hspan
  cases hspan with
  | continues ho hc => exact absurd hx hc
  | ends => rfl

/-- The client becomes connected when the answer to the login, which is out, is read. -/
theorem connects_iff (hk : c.WellKept) {ks : List Trace}
    (ht : Tracked connectionUp (fun _ => True) Conversing c ks) (hc : c.shared.connected = false) :
    (c.step s).1.shared.connected = true ↔
      ∃ k earlier raw, ks = k :: earlier ∧ Event.closed ∉ k ∧ (linesRead k).length = 1 ∧
        Trace.sent k = c.settings.login.bytes ∧ Event.lineRead raw ∈ (c.step s).2 := by
  have hm := c.step_makes s
  have hl : c.linkUp = false := (linkUp_eq_connected hk).trans hc
  constructor
  · intro hc'
    obtain ⟨w, buffer, deadline, raw, hw, hp, hraw⟩ := hm.connects hc hc'
    obtain ⟨-, hu⟩ := connectionUp_of_attempt hk hw (congrArg Phase.attempt? hp)
    obtain ⟨k, earlier, hks, hopen, h⟩ := ht.under_way hu
    have hread := h.listening.length_linesRead hw
    rw [hp, Phase.greetings] at hread
    have h1 : (linesRead k).length = 1 := by omega
    have hexchange := h.exchange
    rw [hl, owed?_of_worker hw, hp] at hexchange
    exact ⟨k, earlier, raw, hks, hopen, h1, hexchange.sent_login h1, (mem_quiet_iff rfl).1 hraw⟩
  · rintro ⟨k, earlier, raw, rfl, hopen, h1, -, hraw⟩
    have hu : c.connectionUp = true := by
      by_contra hdown
      exact hopen (ht.closed (by simpa using hdown) k rfl)
    obtain ⟨k', earlier', hks, -, h⟩ := ht.under_way hu
    cases hks
    exact hm.established_of_lineRead hk hl h.listening h1 ((mem_quiet_iff rfl).2 hraw)

/-- A login that is broken off leaves no link and has cost no frame. -/
theorem broken_of_closed (hk : c.WellKept) {ks : List Trace}
    (ht : Tracked connectionUp (fun _ => True) Conversing c ks) (hc : c.shared.connected = false)
    (hx : Event.closed ∈ (c.step s).2) :
    (c.step s).1.shared.connected = false ∧ (c.step s).1.connectionUp = false ∧
      ∃ k earlier, (quiet (c.step s).2).foldl (note .opened) ks = k :: earlier ∧
        Event.closed ∈ k ∧ Event.established ∉ k ∧ Trace.dequeued k = [] ∧
        Trace.sent k <+: c.settings.login.bytes := by
  have hm := c.step_makes s
  have hl : c.linkUp = false := (linkUp_eq_connected hk).trans hc
  have hx' : Event.closed ∈ quiet (c.step s).2 := (mem_quiet_iff rfl).2 hx
  have hdown := hm.connectionUp_of_closed hk hx'
  refine ⟨?_, hdown, ?_⟩
  · rw [← linkUp_eq_connected (hm.wellKept hk)]
    by_contra hup
    simp [connectionUp_of_linkUp (by simpa using hup)] at hdown
  · obtain ⟨k, rest, before, later, -, hn, h, hfold⟩ :=
      tracking_conversing.closes hm hk ht (connectionUp_of_closed hm hk hx') hx'
    rw [Makes, hn] at hm
    have hend := hm.exchange_closing h.exchange
    rw [hl] at hend
    have hfew : (linesRead (k ++ before ++ [Event.closed])).length < 2 := by
      by_contra h2
      simpa using hend.answered (by omega)
    exact ⟨_, rest, hfold, by simp, by simpa using hend.linked, hend.dequeued_eq_nil,
      hend.now.prefix_login hfew⟩

/-- What is known of the connections of a run that led to `c` and showed `es`. -/
structure Dialogue (login : Bytes) (c : Client) (es : Trace) : Prop where
  conversations : ∀ k ∈ connections es, Conversation login k
  /-- What counts as a line that was read. -/
  lines : ∀ k ∈ connections es,
    (∀ raw ∈ linesRead k, IsLine raw) ∧ (linesRead k).flatten <+: received k
  sentOn : sent es = (connections es).reverse.flatMap sent
  dequeuedOn : dequeued es = (connections es).reverse.flatMap dequeued
  /-- The client becomes connected when the answer to the login, which is out, is read. -/
  connects : ∀ s, c.shared.connected = false →
    ((c.step s).1.shared.connected = true ↔
      ∃ k earlier raw, connections es = k :: earlier ∧ Event.closed ∉ k ∧
        (linesRead k).length = 1 ∧ sent k = login ∧ Event.lineRead raw ∈ (c.step s).2)
  breaks : ∀ s, c.shared.connected = false → c.connectionUp = true →
    (Event.closed ∈ (c.step s).2 ↔ c.LoginBroken s ∨ c.Abandons s)
  /-- A login that is broken off leaves no link and has cost no frame. -/
  broken : ∀ s, c.shared.connected = false → Event.closed ∈ (c.step s).2 →
    (c.step s).1.shared.connected = false ∧ (c.step s).1.connectionUp = false ∧
      ∃ k earlier, connections (es ++ (c.step s).2) = k :: earlier ∧ Event.closed ∈ k ∧
        Event.established ∉ k ∧ dequeued k = [] ∧ sent k <+: login

end

/-- On every connection of every run the login comes before the frames, and each waits for its line
of the server. -/
theorem login_precedes_frames (settings : Settings) (capacity : UInt64) (ss : List Signal) :
    Dialogue settings.login.bytes ((initial settings capacity).run ss).1
      ((initial settings capacity).run ss).2 := by
  have hk := run_wellKept settings capacity ss
  have ht := tracking_conversing.run (c := initial settings capacity) rfl rfl ss
  have hlogin := run_settings (initial settings capacity) ss
  refine {
    conversations := conversations_of_run settings capacity ss
    lines := ?_
    sentOn := ?_
    dequeuedOn := ?_
    connects := ?_
    breaks := fun s hc hu => closed_step_iff hu ((linkUp_eq_connected hk).trans hc)
    broken := ?_ }
  · intro k hmem
    obtain ⟨held, h⟩ :=
      (tracking_heeded.run (c := initial settings capacity) rfl rfl ss).all k hmem
    exact ⟨h.lines, held, h.bytes.symm⟩
  · have h := tracking_conversing.within _ (fun hm hk => hm.sent hk)
      (c := initial settings capacity) rfl rfl ss
    exact (sent_quiet _).symm.trans h
  · have hframes : ∀ {c s c' new}, Move c s c' new → c.WellKept →
        Trace.dequeued new = [] ∨ c.connectionUp = true ∧ c'.connectionUp = true :=
      fun hm _ => hm.dequeued.imp_right fun h =>
        ⟨connectionUp_of_linkUp h.1, connectionUp_of_linkUp h.2⟩
    have h := tracking_conversing.within _ hframes (c := initial settings capacity) rfl rfl ss
    exact (dequeued_quiet _).symm.trans h
  · intro s hc
    have hconnects := connects_iff (s := s) hk ht hc
    rwa [hlogin] at hconnects
  · intro s hc hx
    have hbroken := broken_of_closed hk ht hc hx
    rw [hlogin] at hbroken
    rw [connections, stretches_append]
    exact hbroken

/-- The answer comes along with the banner, and is not read before the login is out. On the next
connection the server hangs up in the middle of the login. -/
def earlyAnswer : List Signal :=
  [.call .start, .turn, .connected, .received (Utf8.encode "# hi\r\n# ok\r\n"), .poll, .took 9,
    .poll, .took 100, .flushed, .poll, .call (.write [65, 10]), .turn, .took 2, .flushed,
    .endOfStream, .call (.clock 60000), .turn, .connected, .received (Utf8.encode "# hi\r\n"),
    .took 4, .writeFailed (.ofKind .connectionReset)]

example : (connections ((initial trialSettings 2000).run earlyAnswer).2).map
    (fun k => (sent k, dequeued k)) =
      [(Utf8.encode "user", []),
        (trialSettings.login.bytes ++ [65, 10], [[65, 10]])] := by
  decide +kernel

end Client

end IGate
