import IGate.Client.State
import IGate.Line
import IGate.Notice

/-! The client as a machine: each call of a caller and each thing the worker waited for is a signal,
and a step answers a signal with the next state and the events that follow. A signal that the
state does not wait for changes nothing. -/

namespace IGate

def idleSlice : Duration := Duration.ofMillis 20

inductive Call where
  | start
  | requestStop
  | write (frame : Bytes)
  | writeMessage (text : String)
  | clock (ms : UInt64)
  | setSink (sink : Nat)
  deriving DecidableEq

inductive Signal where
  | call (c : Call)
  | elapse (d : Duration)
  /-- The worker takes its next turn. -/
  | turn
  /-- The worker takes the stored wake-up. -/
  | wake
  /-- The deadline of the wait has passed. -/
  | timeout
  | connected
  | connectFailed (e : IoError)
  /-- The worker looks for a line among the bytes it has. -/
  | poll
  | received (chunk : Bytes)
  | endOfStream
  | readFailed (e : IoError)
  /-- A write takes `count` bytes. -/
  | took (count : Nat)
  | writeFailed (e : IoError)
  | flushed
  | sinkReturned
  | sinkPanicked
  deriving DecidableEq

inductive Event where
  | accepted (frame : Bytes)
  | rejected (frame : Bytes)
  | attempting
  | opened
  /-- Bytes of the server have come in. -/
  | read (bytes : Bytes)
  | lineRead (raw : Bytes)
  | established
  | dequeued (frame : Bytes)
  | sent (bytes : Bytes)
  | handed (line : String)
  | delivered (sink : Nat) (line : String)
  | closed
  | failed (delay : UInt64)
  | discarded (frames : List Bytes)
  | ended
  | log (notice : Notice)
  deriving DecidableEq

/-- What a signal means to a wait for a line. -/
inductive Heard where
  | line (raw rest : Bytes)
  | failed (e : IoError)
  | timedOut
  | waiting (buffer : Bytes)

namespace Heard

def ofScan (buffer : Bytes) : Heard :=
  match LineBuffer.scan buffer with
  | .line raw rest => .line raw rest
  | .overlong => .failed LineBuffer.overlongError
  | .unfinished => .waiting buffer

/-- The bytes that are read on a signal: a chunk of a fitting size, and none while the buffer
settles the wait by itself. -/
def intake (buffer : Bytes) : Signal → Bytes
  | .received chunk =>
    if LineBuffer.scan buffer = .unfinished ∧ chunk.length ≤ readChunk then chunk else []
  | _ => []

/-- A line that is complete comes before anything that could be read or fail. -/
def ofSignal (now deadline : Duration) (buffer : Bytes) (s : Signal) : Heard :=
  match LineBuffer.scan buffer, s with
  | _, .poll => ofScan buffer
  | .unfinished, .received _ => ofScan (buffer ++ intake buffer s)
  | .unfinished, .endOfStream => .failed .closedByPeer
  | .unfinished, .readFailed e => .failed e
  | .unfinished, .timeout => if deadline ≤ now then .timedOut else .waiting buffer
  | _, _ => .waiting buffer

end Heard

/-- What a signal means to a wait for bytes to go out. -/
inductive Pushed where
  | failed (e : IoError)
  | finished
  | waiting (sent rest : Bytes)

/-- Every byte must be taken, and then flushed. -/
def Pushed.ofSignal (rest : Bytes) : Signal → Pushed
  | .took 0 => if rest = [] then .waiting [] [] else .failed (.ofKind .writeZero)
  | .took (n + 1) => .waiting (rest.take (n + 1)) (rest.drop (n + 1))
  | .writeFailed e => .failed e
  | .flushed => if rest = [] then .finished else .waiting [] rest
  | _ => .waiting [] rest

namespace Client

abbrev Step := Client × List Event

def withWorker (c : Client) (w : Worker) : Client := { c with worker := some w }

def wait (c : Client) (w : Worker) (phase : Phase) : Client := c.withWorker { w with phase }

/-! Calls -/

def enqueue (c : Client) (frame : Bytes) : Step :=
  if c.shared.connected then
    match c.shared.queue.enqueue frame with
    | .ok queue => ({ c with shared := { c.shared with queue }.wake }, [.accepted frame])
    | .error why => (c, [.rejected frame, .log (.frameRefused why)])
  else (c, [.rejected frame])

def call (c : Client) : Call → Step
  | .start =>
    match c.worker with
    | some _ => (c, [])
    | none =>
      ({ c with shared := { c.shared with running := true }, worker := some Worker.initial }, [])
  | .requestStop => ({ c with shared := { c.shared with running := false }.wake }, [])
  | .write frame => c.enqueue frame
  | .writeMessage text => c.enqueue (Utf8.encode (Line.terminate text))
  | .clock ms => ({ c with shared := c.shared.clock ms }, [])
  | .setSink sink => ({ c with shared := { c.shared with sink := some sink } }, [])

/-! Failures -/

/-- Ticks clocked so far belong to no countdown. The new one is published. -/
def scheduleReconnect (c : Client) (w : Worker) : Step :=
  let backoff := w.backoff.fail
  let shared := { c.shared with
    pending := 0
    attempts := backoff.attempts
    delay := backoff.delay }
  ({ c with shared, worker := some { w with backoff, phase := .between } },
    [.failed backoff.delay, .log (.reconnectIn backoff.attempts)])

def failAttempt (c : Client) (w : Worker) (e : LinkFailure) : Step :=
  let (c, events) := c.scheduleReconnect w
  (c, .log (.attemptFailed e) :: events)

def dropLink (c : Client) (w : Worker) (e : IoError) : Step :=
  let c := { c with shared := { c.shared with connected := false } }
  let (c, events) := c.scheduleReconnect { w with link := none }
  (c, .log (.linkLost (.transport e)) :: .closed :: events)

/-! Turns -/

def shutdown (c : Client) (w : Worker) : Step :=
  let (count, queue) := c.shared.queue.drain
  let shared := { c.shared with queue, connected := false }
  let closing := if w.link.isSome then [Event.closed] else []
  let draining := if count = 0 then [] else [.log (.discarded count)]
  ({ c with shared, worker := none },
    closing ++ .discarded c.shared.queue.frames :: draining ++ [.log .writerStopped, .ended])

/-- Waits for a line, but does not sit on queued frames. -/
def enterPoll (c : Client) (w : Worker) : Client :=
  let timeout := if c.shared.queue.isEmpty then c.settings.pollTimeout else 0
  c.wait w (.polling (c.now + timeout))

def connectedTurn (c : Client) (w : Worker) : Step :=
  match c.shared.queue.dequeue with
  | none => (c.enterPoll w, [])
  | some (frame, queue) =>
    let dump := if c.settings.debug then HexDump.notices "APRS-IS frame" frame else []
    ({ c with shared := { c.shared with queue } }.wait w (.sending frame),
      .dequeued frame :: dump.map .log)

def attempt (c : Client) (w : Worker) : Step :=
  (c.wait { w with attempted := true } (.connecting (c.now + c.settings.readTimeout)),
    [.attempting])

/-- The first attempt is due at once, a later one when its countdown has expired. -/
def disconnectedTurn (c : Client) (w : Worker) : Step :=
  if !w.attempted then c.attempt w
  else if w.backoff.expired then c.attempt { w with backoff := w.backoff.stop }
  else (c.wait w (.idle (c.now + idleSlice)), [])

def turn (c : Client) (w : Worker) : Step :=
  if c.shared.running then
    let w := { w with backoff := w.backoff.clock c.shared.pending }
    let c := { c with shared := { c.shared with pending := 0 } }
    match w.link with
    | some _ => c.connectedTurn w
    | none => c.disconnectedTurn w
  else c.shutdown w

/-! Logging in -/

/-- Takes the wake-up. The attempt goes on unless a stop was requested. -/
def wakeAttempt (c : Client) (w : Worker) (opened : Bool) : Step :=
  if c.shared.permit then
    let c := { c with shared := c.shared.takePermit }
    if c.shared.running then (c, [])
    else
      (c.wait w .between,
        (if opened then [.closed] else []) ++ [.log .attemptAbandoned])
  else (c, [])

def failHandshake (c : Client) (w : Worker) (e : LinkFailure) : Step :=
  let (c, events) := c.failAttempt w e
  (c, .closed :: events)

/-- Whether `part` stands somewhere in `text`. -/
def mentions (part text : List Char) : Bool :=
  match text with
  | [] => part.isEmpty
  | c :: rest => part.isPrefixOf (c :: rest) || mentions part rest

def greeted (c : Client) (w : Worker) (raw rest : Bytes) : Stage → Step
  | .banner =>
    let line := Line.rtrim (Utf8.decodeLossy raw)
    let login := Utf8.encode (c.settings.login.line ++ Line.terminator)
    (c.wait w (.loggingIn rest login), [.lineRead raw, .log (.banner line)])
  | .acknowledgement =>
    let line := Line.rtrim (Utf8.decodeLossy raw)
    let warning := if mentions "unverified".toList line.toList then [.log .unverified] else []
    let shared := { c.shared with attempts := 0, delay := 0, connected := true }
    ({ c with shared }.wait { w with backoff := w.backoff.reset, link := some rest } .between,
      .lineRead raw :: .log (.loginReply line) :: warning ++
        [.established, .log (.connected c.settings.address)])

def connecting (c : Client) (w : Worker) (deadline : Duration) : Signal → Step
  | .connected =>
    (c.wait w (.greeting .banner [] (c.now + c.settings.readTimeout)), [.opened])
  | .connectFailed e => c.failAttempt w (.connect c.settings.address e)
  | .timeout =>
    if deadline ≤ c.now then
      c.failAttempt w (.connectTimeout c.settings.address c.settings.readTimeout)
    else (c, [])
  | .wake => c.wakeAttempt w false
  | _ => (c, [])

/-- The event of bytes that came in, if any did. -/
def readEvents (bytes : Bytes) : List Event := if bytes = [] then [] else [.read bytes]

def greetingHeard (c : Client) (w : Worker) (stage : Stage) (deadline : Duration) : Heard → Step
  | .line raw rest => c.greeted w raw rest stage
  | .failed e => c.failHandshake w (.handshakeRead stage e)
  | .timedOut => c.failHandshake w (.noReply stage c.settings.readTimeout)
  | .waiting buffer => (c.wait w (.greeting stage buffer deadline), [])

def greeting (c : Client) (w : Worker) (stage : Stage) (buffer : Bytes) (deadline : Duration)
    (s : Signal) : Step :=
  if s = .wake then c.wakeAttempt w true
  else
    let (c, events) := c.greetingHeard w stage deadline (Heard.ofSignal c.now deadline buffer s)
    (c, readEvents (Heard.intake buffer s) ++ events)

def sentEvents (bytes : Bytes) : List Event := if bytes = [] then [] else [.sent bytes]

def loggingIn (c : Client) (w : Worker) (buffer rest : Bytes) (s : Signal) : Step :=
  if s = .wake then c.wakeAttempt w true
  else
    match Pushed.ofSignal rest s with
    | .failed e => c.failHandshake w (.handshakeWrite e)
    | .finished =>
      (c.wait w (.greeting .acknowledgement buffer (c.now + c.settings.readTimeout)), [])
    | .waiting sent rest => (c.wait w (.loggingIn buffer rest), sentEvents sent)

/-! Connected -/

def sending (c : Client) (w : Worker) (rest : Bytes) (s : Signal) : Step :=
  match Pushed.ofSignal rest s with
  | .failed e => c.dropLink w e
  | .finished => (c.enterPoll w, [])
  | .waiting sent rest => (c.wait w (.sending rest), sentEvents sent)

/-- An empty line means nothing and a comment goes to the log; any other goes to the sink. -/
def heardLine (c : Client) (w : Worker) (raw : Bytes) : Step :=
  let line := Line.rtrim (Utf8.decodeLossy raw)
  if line = "" then (c.wait w .between, [.lineRead raw])
  else if Line.isComment line then
    (c.wait w .between, [.lineRead raw, .log (.comment line)])
  else
    match c.shared.sink with
    | none => (c.wait w .between, [.lineRead raw, .handed line])
    | some sink =>
      (c.wait w (.delivering line), [.lineRead raw, .handed line, .delivered sink line])

def pollHeard (c : Client) (w : Worker) : Heard → Step
  | .line raw rest => c.heardLine { w with link := some rest } raw
  | .failed e => c.dropLink w e
  | .timedOut => (c.wait w .between, [])
  | .waiting buffer => (c.withWorker { w with link := some buffer }, [])

def polling (c : Client) (w : Worker) (deadline : Duration) (s : Signal) : Step :=
  match w.link with
  | none => (c, [])
  | some buffer =>
    if s = .wake then
      if c.shared.permit then
        ({ c with shared := c.shared.takePermit }.wait w .between, [])
      else (c, [])
    else
      let (c, events) := c.pollHeard w (Heard.ofSignal c.now deadline buffer s)
      (c, readEvents (Heard.intake buffer s) ++ events)

def delivering (c : Client) (w : Worker) (line : String) : Signal → Step
  | .sinkReturned => (c.wait w .between, [])
  | .sinkPanicked => (c.wait w .between, [.log (.sinkPanicked line)])
  | _ => (c, [])

/-! Disconnected -/

def idle (c : Client) (w : Worker) (deadline : Duration) : Signal → Step
  | .timeout => if deadline ≤ c.now then (c.wait w .between, []) else (c, [])
  | .wake =>
    if c.shared.permit then ({ c with shared := c.shared.takePermit }.wait w .between, [])
    else (c, [])
  | _ => (c, [])

def starting (c : Client) (w : Worker) : Step :=
  let (after, events) := c.turn w
  (after, .log (.writerStarting c.settings.address) :: events)

def proceed (c : Client) (w : Worker) (s : Signal) : Step :=
  match w.phase with
  | .fresh => if s = .turn then c.starting w else (c, [])
  | .between => if s = .turn then c.turn w else (c, [])
  | .idle deadline => c.idle w deadline s
  | .connecting deadline => c.connecting w deadline s
  | .greeting stage buffer deadline => c.greeting w stage buffer deadline s
  | .loggingIn buffer rest => c.loggingIn w buffer rest s
  | .sending rest => c.sending w rest s
  | .polling deadline => c.polling w deadline s
  | .delivering line => c.delivering w line s

def step (c : Client) (s : Signal) : Step :=
  match s with
  | .call k => c.call k
  | .elapse d => ({ c with now := c.now + d }, [])
  | s =>
    match c.worker with
    | none => (c, [])
    | some w => c.proceed w s

/-- A run: the state after all signals, and all events in order. -/
def run (c : Client) : List Signal → Step
  | [] => (c, [])
  | s :: rest =>
    let (c', events) := c.step s
    let (c'', more) := c'.run rest
    (c'', events ++ more)

@[simp] theorem run_nil (c : Client) : c.run [] = (c, []) := rfl

theorem run_cons (c : Client) (s : Signal) (rest : List Signal) :
    c.run (s :: rest) =
      (((c.step s).1.run rest).1, (c.step s).2 ++ ((c.step s).1.run rest).2) := rfl

theorem run_append (c : Client) (before after : List Signal) :
    c.run (before ++ after) =
      (((c.run before).1.run after).1, (c.run before).2 ++ ((c.run before).1.run after).2) := by
  induction before generalizing c with
  | nil => simp
  | cons s rest ih => simp [run_cons, ih, List.append_assoc]

end Client

end IGate
