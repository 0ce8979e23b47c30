import IGate.Proofs.Client.Trace

/-! Every move a client can make, named. A step on a signal is one of these moves; what a move shows
is given without the notices for the log. -/

namespace IGate

def Call.frame? : Call → Option Bytes
  | .write frame => some frame
  | .writeMessage text => some (Utf8.encode (Line.terminate text))
  | _ => none

/-- A write fails, or takes no byte. -/
def Signal.failsWrite : Signal → Bool
  | .writeFailed _ | .took 0 => true
  | _ => false

def Signal.failsRead : Signal → Bool
  | .poll | .received _ | .endOfStream | .readFailed _ => true
  | _ => false

/-- The worker is before its first turn or between two turns. -/
def Phase.boundary : Phase → Bool
  | .fresh | .between => true
  | _ => false

/-- Whether a connection is open, in the phases of an attempt to connect. -/
def Phase.attempt? : Phase → Option Bool
  | .connecting _ => some false
  | .greeting .. | .loggingIn .. => some true
  | _ => none

def Worker.ticked (w : Worker) (ms : UInt64) : Worker := { w with backoff := w.backoff.clock ms }

namespace Heard

variable {now deadline : Duration} {buffer raw rest buffer' : Bytes} {s : Signal} {e : IoError}

theorem intake_of_settled (h : LineBuffer.scan buffer ≠ .unfinished) : intake buffer s = [] := by
  cases s <;> simp [intake, h]

theorem ofScan_line (h : ofScan buffer = .line raw rest) :
    LineBuffer.scan buffer = .line raw rest := by
  unfold ofScan at h
  split at h <;> cases h
  assumption

theorem ofScan_waiting (h : ofScan buffer = .waiting buffer') :
    buffer' = buffer ∧ LineBuffer.scan buffer = .unfinished := by
  unfold ofScan at h
  split at h <;> cases h
  exact ⟨rfl, by assumption⟩

theorem ofScan_failed (h : ofScan buffer = .failed e) : LineBuffer.scan buffer = .overlong := by
  unfold ofScan at h
  split at h <;> cases h
  assumption

theorem ofScan_ne_timedOut : ofScan buffer ≠ .timedOut := by
  unfold ofScan
  split <;> nofun

theorem intake_received {chunk : Bytes} (hs : LineBuffer.scan buffer = .unfinished)
    (hlen : chunk.length ≤ readChunk) : intake buffer (.received chunk) = chunk :=
  if_pos ⟨hs, hlen⟩

theorem ofSignal_received {chunk : Bytes} (hs : LineBuffer.scan buffer = .unfinished)
    (hlen : chunk.length ≤ readChunk) :
    ofSignal now deadline buffer (.received chunk) = ofScan (buffer ++ chunk) := by
  simp [ofSignal, hs, intake_received hs hlen]

/-- A line is taken from what was there and what came with the signal. -/
theorem ofSignal_line (h : ofSignal now deadline buffer s = .line raw rest) :
    LineBuffer.scan (buffer ++ intake buffer s) = .line raw rest := by
  unfold ofSignal at h
  split at h
  · simpa [intake] using ofScan_line h
  · exact ofScan_line h
  · cases h
  · cases h
  · split at h <;> cases h
  · cases h

theorem ofSignal_waiting (h : ofSignal now deadline buffer s = .waiting buffer') :
    buffer' = buffer ++ intake buffer s := by
  unfold ofSignal at h
  split at h
  · simpa [intake] using (ofScan_waiting h).1
  · exact (ofScan_waiting h).1
  · cases h
  · cases h
  · split at h <;> cases h
    simp [intake]
  · next s _ _ _ hr _ _ _ =>
    cases h
    cases s with
    | received chunk =>
      rw [intake_of_settled (fun hu => hr chunk hu rfl), List.append_nil]
    | _ => simp [intake]

theorem ofSignal_timedOut (h : ofSignal now deadline buffer s = .timedOut) :
    LineBuffer.scan buffer = .unfinished ∧ intake buffer s = [] := by
  unfold ofSignal at h
  split at h
  · exact absurd h ofScan_ne_timedOut
  · exact absurd h ofScan_ne_timedOut
  · cases h
  · cases h
  · next hu => exact ⟨hu, rfl⟩
  · cases h

/-- A wait fails with too many bytes, or with a signal that came while it was unsettled. -/
theorem ofSignal_failed (h : ofSignal now deadline buffer s = .failed e) :
    LineBuffer.scan (buffer ++ intake buffer s) = .overlong ∨
      LineBuffer.scan buffer = .unfinished ∧ intake buffer s = [] := by
  unfold ofSignal at h
  split at h
  · exact .inl (by simpa [intake] using ofScan_failed h)
  · exact .inl (ofScan_failed h)
  · next hu => exact .inr ⟨hu, rfl⟩
  · next hu => exact .inr ⟨hu, rfl⟩
  · split at h <;> cases h
  · cases h

theorem failsRead_of_ofSignal (h : ofSignal now deadline buffer s = .failed e) :
    s.failsRead = true := by
  unfold ofSignal at h
  split at h
  · rfl
  · rfl
  · rfl
  · rfl
  · split at h <;> cases h
  · cases h

end Heard

namespace Pushed

variable {rest sent rest' : Bytes} {s : Signal} {e : IoError}

theorem ofSignal_failed (h : ofSignal rest s = .failed e) : s.failsWrite = true := by
  unfold ofSignal at h
  split at h
  · rfl
  · cases h
  · rfl
  · split at h <;> cases h
  · cases h

theorem ofSignal_finished (h : ofSignal rest s = .finished) : rest = [] := by
  unfold ofSignal at h
  split at h
  · split at h <;> cases h
  · cases h
  · cases h
  · split at h
    · assumption
    · cases h
  · cases h

theorem ofSignal_waiting (h : ofSignal rest s = .waiting sent rest') : rest = sent ++ rest' := by
  unfold ofSignal at h
  split at h
  · split at h <;> cases h
    assumption
  · cases h
    exact (List.take_append_drop _ rest).symm
  · cases h
  · split at h <;> cases h
    rfl
  · cases h
    rfl

end Pushed

namespace Client

def ticked (c : Client) : Client := { c with shared := { c.shared with pending := 0 } }

def roused (c : Client) : Client := { c with shared := c.shared.takePermit }

def unlinked (c : Client) (w : Worker) : Client :=
  ({ c with shared := { c.shared with connected := false } }.scheduleReconnect
    { w with link := none }).1

def phaseFor (c : Client) (line : String) : Phase :=
  if line = "" ∨ Line.isComment line then .between
  else
    match c.shared.sink with
    | none => .between
    | some _ => .delivering line

theorem phaseFor_eq_or (c : Client) (line : String) :
    c.phaseFor line = .between ∨ c.phaseFor line = .delivering line := by
  unfold phaseFor
  split
  · exact .inl rfl
  · split
    · exact .inl rfl
    · exact .inr rfl

def deliveries (c : Client) (line : String) : List Event :=
  if line = "" ∨ Line.isComment line then []
  else
    match c.shared.sink with
    | none => [.handed line]
    | some sink => [.handed line, .delivered sink line]

/-- The state that follows on a move, and the events. -/
inductive Move (c : Client) : Signal → Client → Trace → Prop
  /-- A signal that nothing waits for. -/
  | ignored {s} : Move c s c []
  | started (hw : c.worker = none) :
    Move c (.call .start)
      { c with shared := { c.shared with running := true }, worker := some Worker.initial } []
  | stopRequested :
    Move c (.call .requestStop) { c with shared := { c.shared with running := false }.wake } []
  | accepted {k frame queue} (hk : k.frame? = some frame) (hc : c.shared.connected = true)
    (hq : c.shared.queue.enqueue frame = .ok queue) :
    Move c (.call k) { c with shared := { c.shared with queue }.wake } [.accepted frame]
  | rejected {k frame} (hk : k.frame? = some frame) : Move c (.call k) c [.rejected frame]
  | clocked (ms) : Move c (.call (.clock ms)) { c with shared := c.shared.clock ms } []
  | sinkSet (sink) :
    Move c (.call (.setSink sink)) { c with shared := { c.shared with sink := some sink } } []
  | elapsed (d) : Move c (.elapse d) { c with now := c.now + d } []
  /-- The last turn of a worker that was asked to stop. -/
  | ended {w} (hw : c.worker = some w) (hp : w.phase.boundary = true)
    (hr : c.shared.running = false) :
    Move c .turn (c.shutdown w).1
      ((if w.link.isSome then [.closed] else []) ++ [.discarded c.shared.queue.frames, .ended])
  /-- A turn with a link and nothing to send. -/
  | rested {w} (hw : c.worker = some w) (hp : w.phase.boundary = true)
    (hr : c.shared.running = true) (hl : w.link.isSome) (hq : c.shared.queue.dequeue = none) :
    Move c .turn (c.ticked.enterPoll (w.ticked c.shared.pending)) []
  | took {w frame queue} (hw : c.worker = some w) (hp : w.phase.boundary = true)
    (hr : c.shared.running = true) (hl : w.link.isSome)
    (hq : c.shared.queue.dequeue = some (frame, queue)) :
    Move c .turn
      ({ c.ticked with shared := { c.ticked.shared with queue } }.wait
        (w.ticked c.shared.pending) (.sending frame)) [.dequeued frame]
  /-- The first turn without a link. -/
  | attempted {w} (hw : c.worker = some w) (hp : w.phase.boundary = true)
    (hr : c.shared.running = true) (hl : w.link = none) (ha : w.attempted = false) :
    Move c .turn (c.ticked.attempt (w.ticked c.shared.pending)).1 [.attempting]
  /-- A later turn without a link, with the countdown at its end. -/
  | reattempted {w} (hw : c.worker = some w) (hp : w.phase.boundary = true)
    (hr : c.shared.running = true) (hl : w.link = none) (ha : w.attempted = true)
    (he : (w.ticked c.shared.pending).backoff.expired = true) :
    Move c .turn
      (c.ticked.attempt { w.ticked c.shared.pending with
        backoff := (w.ticked c.shared.pending).backoff.stop }).1 [.attempting]
  | dozed {w} (hw : c.worker = some w) (hp : w.phase.boundary = true)
    (hr : c.shared.running = true) (hl : w.link = none) (ha : w.attempted = true)
    (he : (w.ticked c.shared.pending).backoff.expired = false) :
    Move c .turn (c.ticked.wait (w.ticked c.shared.pending) (.idle (c.now + idleSlice))) []
  | opened {w deadline} (hw : c.worker = some w) (hp : w.phase = .connecting deadline) :
    Move c .connected
      (c.wait w (.greeting .banner [] (c.now + c.settings.readTimeout))) [.opened]
  | unreached {w deadline s} (hw : c.worker = some w) (hp : w.phase = .connecting deadline) :
    Move c s (c.scheduleReconnect w).1 [.failed w.backoff.fail.delay]
  /-- A wake-up in an attempt that goes on. -/
  | stirred {w opened} (hw : c.worker = some w) (hp : w.phase.attempt? = some opened)
    (hr : c.shared.running = true) : Move c .wake c.roused []
  | abandoned {w opened} (hw : c.worker = some w) (hp : w.phase.attempt? = some opened)
    (hr : c.shared.running = false) :
    Move c .wake (c.roused.wait w .between) (if opened then [.closed] else [])
  | awaited {w stage buffer deadline s buffer'} (hw : c.worker = some w)
    (hp : w.phase = .greeting stage buffer deadline)
    (hs : Heard.ofSignal c.now deadline buffer s = .waiting buffer') :
    Move c s (c.wait w (.greeting stage buffer' deadline)) (readEvents (Heard.intake buffer s))
  | greeted {w buffer deadline s raw rest} (hw : c.worker = some w)
    (hp : w.phase = .greeting .banner buffer deadline)
    (hs : Heard.ofSignal c.now deadline buffer s = .line raw rest) :
    Move c s
      (c.wait w (.loggingIn rest (Utf8.encode (c.settings.login.line ++ Line.terminator))))
      (readEvents (Heard.intake buffer s) ++ [.lineRead raw])
  | established {w buffer deadline s raw rest} (hw : c.worker = some w)
    (hp : w.phase = .greeting .acknowledgement buffer deadline)
    (hs : Heard.ofSignal c.now deadline buffer s = .line raw rest) :
    Move c s
      ({ c with shared := { c.shared with attempts := 0, delay := 0, connected := true } }.wait
        { w with backoff := w.backoff.reset, link := some rest } .between)
      (readEvents (Heard.intake buffer s) ++ [.lineRead raw, .established])
  | ungreeted {w stage buffer deadline s} (hw : c.worker = some w)
    (hp : w.phase = .greeting stage buffer deadline)
    (hs : (∃ e, Heard.ofSignal c.now deadline buffer s = .failed e) ∨
      Heard.ofSignal c.now deadline buffer s = .timedOut) :
    Move c s (c.scheduleReconnect w).1
      (readEvents (Heard.intake buffer s) ++ [.closed, .failed w.backoff.fail.delay])
  | loginSent {w buffer rest s sent rest'} (hw : c.worker = some w)
    (hp : w.phase = .loggingIn buffer rest) (hs : Pushed.ofSignal rest s = .waiting sent rest') :
    Move c s (c.wait w (.loggingIn buffer rest')) (sentEvents sent)
  | loginFlushed {w buffer rest s} (hw : c.worker = some w)
    (hp : w.phase = .loggingIn buffer rest) (hs : Pushed.ofSignal rest s = .finished) :
    Move c s (c.wait w (.greeting .acknowledgement buffer (c.now + c.settings.readTimeout))) []
  | loginFailed {w buffer rest s e} (hw : c.worker = some w)
    (hp : w.phase = .loggingIn buffer rest) (hs : Pushed.ofSignal rest s = .failed e) :
    Move c s (c.scheduleReconnect w).1 [.closed, .failed w.backoff.fail.delay]
  | frameSent {w rest s sent rest'} (hw : c.worker = some w) (hp : w.phase = .sending rest)
    (hs : Pushed.ofSignal rest s = .waiting sent rest') :
    Move c s (c.wait w (.sending rest')) (sentEvents sent)
  | frameFlushed {w rest s} (hw : c.worker = some w) (hp : w.phase = .sending rest)
    (hs : Pushed.ofSignal rest s = .finished) : Move c s (c.enterPoll w) []
  /-- The link is lost in a write. -/
  | frameFailed {w rest s e} (hw : c.worker = some w) (hp : w.phase = .sending rest)
    (hs : Pushed.ofSignal rest s = .failed e) :
    Move c s (c.unlinked w) [.closed, .failed w.backoff.fail.delay]
  /-- A poll that ends with a wake-up. -/
  | pollWoken {w deadline} (hw : c.worker = some w) (hp : w.phase = .polling deadline) :
    Move c .wake (c.roused.wait w .between) []
  | pollEnded {w deadline buffer s} (hw : c.worker = some w) (hp : w.phase = .polling deadline)
    (hl : w.link = some buffer) (hs : Heard.ofSignal c.now deadline buffer s = .timedOut) :
    Move c s (c.wait w .between) []
  | polled {w deadline buffer s buffer'} (hw : c.worker = some w)
    (hp : w.phase = .polling deadline) (hl : w.link = some buffer)
    (hs : Heard.ofSignal c.now deadline buffer s = .waiting buffer') :
    Move c s (c.withWorker { w with link := some buffer' })
      (readEvents (Heard.intake buffer s))
  | heard {w deadline buffer s raw rest} (hw : c.worker = some w)
    (hp : w.phase = .polling deadline) (hl : w.link = some buffer)
    (hs : Heard.ofSignal c.now deadline buffer s = .line raw rest) :
    Move c s
      (c.wait { w with link := some rest } (c.phaseFor (Line.rtrim (Utf8.decodeLossy raw))))
      (readEvents (Heard.intake buffer s) ++ .lineRead raw ::
        c.deliveries (Line.rtrim (Utf8.decodeLossy raw)))
  /-- The link is lost in a read. -/
  | readFailed {w deadline buffer s e} (hw : c.worker = some w)
    (hp : w.phase = .polling deadline) (hl : w.link = some buffer)
    (hs : Heard.ofSignal c.now deadline buffer s = .failed e) :
    Move c s (c.unlinked w)
      (readEvents (Heard.intake buffer s) ++ [.closed, .failed w.backoff.fail.delay])
  | sinkDone {w line s} (hw : c.worker = some w) (hp : w.phase = .delivering line) :
    Move c s (c.wait w .between) []
  | idleEnded {w deadline} (hw : c.worker = some w) (hp : w.phase = .idle deadline) :
    Move c .timeout (c.wait w .between) []
  | idleWoken {w deadline} (hw : c.worker = some w) (hp : w.phase = .idle deadline) :
    Move c .wake (c.roused.wait w .between) []

/-! Each function of the step makes moves -/

section
variable {c : Client} {w : Worker} {s : Signal}

def Makes (c : Client) (s : Signal) (a : Step) : Prop := Move c s a.1 (Trace.quiet a.2)

theorem call_makes (c : Client) (k : Call) : c.Makes (.call k) (c.call k) := by
  have henqueue : ∀ frame, k.frame? = some frame → c.Makes (.call k) (c.enqueue frame) := by
    intro frame hk
    unfold enqueue
    split
    · next hc =>
      split
      · next queue hq => exact .accepted hk hc hq
      · exact .rejected hk
    · exact .rejected hk
  cases k with
  | start =>
    cases hw : c.worker with
    | none => simpa [Makes, call, hw] using Move.started hw
    | some w => simpa [Makes, call, hw] using Move.ignored
  | requestStop => exact .stopRequested
  | write frame => exact henqueue frame rfl
  | writeMessage text => exact henqueue _ rfl
  | clock ms => exact .clocked ms
  | setSink sink => exact .sinkSet sink

theorem connectedTurn_makes (hw : c.worker = some w) (hp : w.phase.boundary = true)
    (hr : c.shared.running = true) (hl : w.link.isSome) :
    c.Makes .turn (c.ticked.connectedTurn (w.ticked c.shared.pending)) := by
  unfold connectedTurn
  split
  · next hq => exact .rested hw hp hr hl hq
  · next frame queue hq =>
    have h := Move.took hw hp hr hl hq
    simp only [Makes, Trace.quiet_cons _ _ (show (Event.dequeued frame).isLog = false from rfl),
      Trace.quiet_logs]
    exact h

theorem disconnectedTurn_makes (hw : c.worker = some w) (hp : w.phase.boundary = true)
    (hr : c.shared.running = true) (hl : w.link = none) :
    c.Makes .turn (c.ticked.disconnectedTurn (w.ticked c.shared.pending)) := by
  unfold disconnectedTurn
  split
  · next ha => exact .attempted hw hp hr hl (by simpa [Worker.ticked] using ha)
  · next ha =>
    have ha : w.attempted = true := by simpa [Worker.ticked] using ha
    split
    · next he => exact .reattempted hw hp hr hl ha he
    · next he => exact .dozed hw hp hr hl ha (by simpa using he)

theorem turn_of_running (hr : c.shared.running = true) :
    c.turn w =
      if w.link.isSome then c.ticked.connectedTurn (w.ticked c.shared.pending)
      else c.ticked.disconnectedTurn (w.ticked c.shared.pending) := by
  unfold turn
  rw [if_pos hr]
  cases hl : w.link <;> simp [ticked, Worker.ticked, hl]

theorem quiet_shutdown (c : Client) (w : Worker) :
    Trace.quiet (c.shutdown w).2 =
      (if w.link.isSome then [.closed] else []) ++ [.discarded c.shared.queue.frames, .ended] := by
  cases hl : w.link <;> cases hq : c.shared.queue.frames <;>
    simp [shutdown, Queue.drain, Queue.length, hl, hq, Trace.quiet, Event.isLog]

theorem turn_makes (hw : c.worker = some w) (hp : w.phase.boundary = true) :
    c.Makes .turn (c.turn w) := by
  cases hr : c.shared.running with
  | true =>
    rw [turn_of_running hr]
    split
    · next hl => exact connectedTurn_makes hw hp hr hl
    · next hl => exact disconnectedTurn_makes hw hp hr (by simpa using hl)
  | false =>
    have h := Move.ended hw hp hr
    rw [← quiet_shutdown] at h
    simpa [Makes, turn, hr] using h

theorem wakeAttempt_makes {opened : Bool} (hw : c.worker = some w)
    (hp : w.phase.attempt? = some opened) : c.Makes .wake (c.wakeAttempt w opened) := by
  unfold wakeAttempt
  split
  · simp only
    split
    · next hr => exact .stirred hw hp hr
    · next hr =>
      have h := Move.abandoned hw hp (by simpa [Shared.takePermit] using hr)
      cases opened <;> exact h
  · exact .ignored

theorem connecting_makes {deadline : Duration} (hw : c.worker = some w)
    (hp : w.phase = .connecting deadline) : c.Makes s (c.connecting w deadline s) := by
  unfold connecting
  split
  · exact .opened hw hp
  · exact .unreached hw hp
  · split
    · exact .unreached hw hp
    · exact .ignored
  · exact wakeAttempt_makes hw (by rw [hp]; rfl)
  · exact .ignored

theorem quiet_readEvents (bytes : Bytes) : Trace.quiet (readEvents bytes) = readEvents bytes := by
  unfold readEvents
  split <;> rfl

theorem quiet_sentEvents (bytes : Bytes) : Trace.quiet (sentEvents bytes) = sentEvents bytes := by
  unfold sentEvents
  split <;> rfl

theorem greetingHeard_makes {stage : Stage} {buffer : Bytes} {deadline : Duration} {h : Heard}
    (hw : c.worker = some w) (hp : w.phase = .greeting stage buffer deadline)
    (hs : Heard.ofSignal c.now deadline buffer s = h) :
    Move c s (c.greetingHeard w stage deadline h).1
      (readEvents (Heard.intake buffer s) ++
        Trace.quiet (c.greetingHeard w stage deadline h).2) := by
  cases h with
  | line raw rest =>
    cases stage with
    | banner => exact .greeted hw hp hs
    | acknowledgement =>
      simp only [greetingHeard, Client.greeted]
      split <;> exact .established hw hp hs
  | failed e => exact .ungreeted hw hp (.inl ⟨e, hs⟩)
  | timedOut => exact .ungreeted hw hp (.inr hs)
  | waiting buffer' =>
    simp only [greetingHeard, Trace.quiet_nil, List.append_nil]
    exact .awaited hw hp hs

theorem greeting_makes {stage : Stage} {buffer : Bytes} {deadline : Duration}
    (hw : c.worker = some w) (hp : w.phase = .greeting stage buffer deadline) :
    c.Makes s (c.greeting w stage buffer deadline s) := by
  unfold greeting
  split
  · next hs => exact hs ▸ wakeAttempt_makes hw (by rw [hp]; rfl)
  · simp only [Makes, Trace.quiet_append, quiet_readEvents]
    exact greetingHeard_makes hw hp rfl

theorem loggingIn_makes {buffer rest : Bytes} (hw : c.worker = some w)
    (hp : w.phase = .loggingIn buffer rest) : c.Makes s (c.loggingIn w buffer rest s) := by
  unfold loggingIn
  split
  · next hs => exact hs ▸ wakeAttempt_makes hw (by rw [hp]; rfl)
  · split
    · next e hs => exact .loginFailed hw hp hs
    · next hs => exact .loginFlushed hw hp hs
    · next sent rest' hs =>
      rw [Makes, quiet_sentEvents]
      exact .loginSent hw hp hs

theorem sending_makes {rest : Bytes} (hw : c.worker = some w) (hp : w.phase = .sending rest) :
    c.Makes s (c.sending w rest s) := by
  unfold sending
  split
  · next e hs => exact .frameFailed hw hp hs
  · next hs => exact .frameFlushed hw hp hs
  · next sent rest' hs =>
    rw [Makes, quiet_sentEvents]
    exact .frameSent hw hp hs

theorem heardLine_eq (c : Client) (w : Worker) (raw : Bytes) :
    (c.heardLine w raw).1 = c.wait w (c.phaseFor (Line.rtrim (Utf8.decodeLossy raw))) ∧
      Trace.quiet (c.heardLine w raw).2 =
        .lineRead raw :: c.deliveries (Line.rtrim (Utf8.decodeLossy raw)) := by
  unfold heardLine phaseFor deliveries
  by_cases he : Line.rtrim (Utf8.decodeLossy raw) = ""
  · simp [he, Trace.quiet, Event.isLog]
  · by_cases hm : Line.isComment (Line.rtrim (Utf8.decodeLossy raw))
    · simp [he, hm, Trace.quiet, Event.isLog]
    · cases hs : c.shared.sink <;> simp [he, hm, Trace.quiet, Event.isLog]

theorem pollHeard_makes {buffer : Bytes} {deadline : Duration} {h : Heard}
    (hw : c.worker = some w) (hp : w.phase = .polling deadline) (hl : w.link = some buffer)
    (hs : Heard.ofSignal c.now deadline buffer s = h) :
    Move c s (c.pollHeard w h).1
      (readEvents (Heard.intake buffer s) ++ Trace.quiet (c.pollHeard w h).2) := by
  cases h with
  | line raw rest =>
    obtain ⟨hc, he⟩ := c.heardLine_eq { w with link := some rest } raw
    rw [pollHeard, hc, he]
    exact .heard hw hp hl hs
  | failed e => exact .readFailed hw hp hl hs
  | timedOut =>
    rw [(Heard.ofSignal_timedOut hs).2]
    exact .pollEnded hw hp hl hs
  | waiting buffer' =>
    simp only [pollHeard, Trace.quiet_nil, List.append_nil]
    exact .polled hw hp hl hs

theorem polling_makes {deadline : Duration} (hw : c.worker = some w)
    (hp : w.phase = .polling deadline) : c.Makes s (c.polling w deadline s) := by
  unfold polling
  split
  · exact .ignored
  · next buffer hl =>
    split
    · next hs =>
      split
      · exact hs ▸ .pollWoken hw hp
      · exact .ignored
    · simp only [Makes, Trace.quiet_append, quiet_readEvents]
      exact pollHeard_makes hw hp hl rfl

/-- What a wait for a line may end with is for the worker, and is no wake-up. -/
theorem step_of_awaited (hw : c.worker = some w) (hs : s.failsRead = true ∨ s = .timeout) :
    c.step s = c.proceed w s ∧ s ≠ .wake := by
  constructor
  · cases s with
    | call | elapse => rcases hs with hs | hs <;> cases hs
    | _ => simp only [step, hw]
  · rintro rfl
    rcases hs with hs | hs <;> cases hs

theorem step_of_greeting {stage : Stage} {buffer : Bytes} {deadline : Duration}
    (hw : c.worker = some w) (hp : w.phase = .greeting stage buffer deadline)
    (hs : s.failsRead = true ∨ s = .timeout) :
    c.step s = ((c.greetingHeard w stage deadline (Heard.ofSignal c.now deadline buffer s)).1,
      readEvents (Heard.intake buffer s) ++
        (c.greetingHeard w stage deadline (Heard.ofSignal c.now deadline buffer s)).2) := by
  obtain ⟨hstep, hwake⟩ := step_of_awaited hw hs
  rw [hstep, proceed, hp]
  exact if_neg hwake

theorem step_of_polling {buffer : Bytes} {deadline : Duration} (hw : c.worker = some w)
    (hp : w.phase = .polling deadline) (hl : w.link = some buffer) (hs : s.failsRead = true) :
    c.step s = ((c.pollHeard w (Heard.ofSignal c.now deadline buffer s)).1,
      readEvents (Heard.intake buffer s) ++
        (c.pollHeard w (Heard.ofSignal c.now deadline buffer s)).2) := by
  obtain ⟨hstep, hwake⟩ := step_of_awaited hw (.inl hs)
  simp only [hstep, proceed, hp, polling, hl]
  exact if_neg hwake

theorem delivering_makes {line : String} (hw : c.worker = some w)
    (hp : w.phase = .delivering line) : c.Makes s (c.delivering w line s) := by
  unfold delivering
  split
  · exact .sinkDone hw hp
  · exact .sinkDone hw hp
  · exact .ignored

theorem idle_makes {deadline : Duration} (hw : c.worker = some w)
    (hp : w.phase = .idle deadline) : c.Makes s (c.idle w deadline s) := by
  unfold idle
  split
  · split
    · exact .idleEnded hw hp
    · exact .ignored
  · split
    · exact .idleWoken hw hp
    · exact .ignored
  · exact .ignored

theorem proceed_makes (hw : c.worker = some w) : c.Makes s (c.proceed w s) := by
  unfold proceed
  split
  · next hp =>
    split
    · next hs =>
      have h := turn_makes hw (by rw [hp]; rfl)
      simpa [Makes, starting, hs] using h
    · exact .ignored
  · next hp =>
    split
    · next hs => exact hs ▸ turn_makes hw (by rw [hp]; rfl)
    · exact .ignored
  · next hp => exact idle_makes hw hp
  · next hp => exact connecting_makes hw hp
  · next hp => exact greeting_makes hw hp
  · next hp => exact loggingIn_makes hw hp
  · next hp => exact sending_makes hw hp
  · next hp => exact polling_makes hw hp
  · next hp => exact delivering_makes hw hp

/-- Every step is a move. -/
theorem step_makes (c : Client) (s : Signal) : c.Makes s (c.step s) := by
  cases s with
  | call k => exact call_makes c k
  | elapse d => exact .elapsed d
  | _ =>
    cases hw : c.worker with
    | none =>
      simp only [step, hw]
      exact .ignored
    | some w =>
      simp only [step, hw]
      exact proceed_makes hw

end

theorem run_concat (c : Client) (ss : List Signal) (s : Signal) :
    c.run (ss ++ [s]) = (((c.run ss).1.step s).1, (c.run ss).2 ++ ((c.run ss).1.step s).2) := by
  simp [run_append, run_cons]

theorem run_keeps_on {P : Client → Trace → Prop} {ss : List Signal}
    (hmove : ∀ {c s c' es new}, s ∈ ss → P c es → Move c s c' new → P c' (es ++ new))
    {c : Client} {es : Trace} (h : P c es) :
    P (c.run ss).1 (es ++ Trace.quiet (c.run ss).2) := by
  induction ss generalizing c es with
  | nil => simpa using h
  | cons s rest ih =>
    have hfirst := hmove (List.mem_cons_self ..) h (c.step_makes s)
    have hnext := ih (fun hs h hm => hmove (List.mem_cons_of_mem _ hs) h hm) hfirst
    rwa [List.append_assoc, ← Trace.quiet_append] at hnext

/-- What every move keeps, a run keeps. -/
theorem run_keeps {P : Client → Trace → Prop}
    (hmove : ∀ {c s c' es new}, P c es → Move c s c' new → P c' (es ++ new))
    {c : Client} {es : Trace} (h : P c es) (ss : List Signal) :
    P (c.run ss).1 (es ++ Trace.quiet (c.run ss).2) :=
  run_keeps_on (P := P) (fun _ h hm => hmove h hm) h

end Client

end IGate
