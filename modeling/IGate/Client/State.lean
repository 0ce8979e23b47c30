import IGate.Client.Settings
import IGate.Countdown
import IGate.LineBuffer
import IGate.LinkFailure

/-! The client: what its callers and its worker share, the worker itself and where it waits. -/

namespace IGate

/-- What callers and worker share. `permit` is the one stored wake-up. `pending` holds the
milliseconds clocked and not yet taken; `delay` is the published reconnect delay. -/
structure Shared where
  queue : Queue
  permit : Bool
  running : Bool
  connected : Bool
  attempts : Nat
  delay : UInt64
  pending : UInt64
  sink : Option Nat
  deriving DecidableEq

namespace Shared

def initial (capacity : UInt64) : Shared :=
  ⟨Queue.empty capacity, false, false, false, 0, 0, 0, none⟩

def wake (s : Shared) : Shared := { s with permit := true }

def takePermit (s : Shared) : Shared := { s with permit := false }

def clock (s : Shared) (ms : UInt64) : Shared := { s with pending := s.pending + ms }

end Shared

/-- Where the worker waits: for its first turn, between two turns, for the end of an idle slice,
for a connection, for a line of the greeting, for the login line or a frame to go out, for a line
of the server, or for the sink to return. A deadline, the instant of the wait and its timeout, is
assumed to be one the clock can tell. -/
inductive Phase where
  | fresh
  | between
  | idle (deadline : Duration)
  | connecting (deadline : Duration)
  | greeting (stage : Stage) (buffer : Bytes) (deadline : Duration)
  | loggingIn (buffer rest : Bytes)
  | sending (rest : Bytes)
  | polling (deadline : Duration)
  | delivering (line : String)
  deriving DecidableEq

/-- `link` is there exactly while connected and holds the bytes received on it. -/
structure Worker where
  backoff : Backoff
  link : Option Bytes
  attempted : Bool
  phase : Phase
  deriving DecidableEq

def Worker.initial : Worker := ⟨Backoff.initial, none, false, .fresh⟩

structure Client where
  settings : Settings
  shared : Shared
  worker : Option Worker
  now : Duration
  deriving DecidableEq

structure LinkStatus where
  connected : Bool
  attempts : Nat
  delay : Duration
  queued : Nat
  deriving DecidableEq

namespace Client

def initial (settings : Settings) (capacity : UInt64) : Client :=
  ⟨settings, Shared.initial capacity, none, 0⟩

def new (config : ClientConfig) : Except ClientConfigError Client :=
  match config.settings with
  | .error e => .error e
  | .ok settings => .ok (initial settings config.queueCapacity)

def status (c : Client) : LinkStatus :=
  ⟨c.shared.connected, c.shared.attempts, Duration.ofMillis c.shared.delay.toNat,
    c.shared.queue.length⟩

end Client

def LinkStatus.describe (s : LinkStatus) : String :=
  "LinkStatus \x7b connected: " ++ toString s.connected ++ ", attempts: " ++
    toString s.attempts ++ ", reconnect_delay: " ++ s.delay.text ++ ", queued_frames: " ++
    toString s.queued ++ " \x7d"

def Client.describe (c : Client) : String :=
  "AprsIsClient \x7b address: " ++ Text.quote c.settings.address ++ ", status: " ++
    c.status.describe ++ " \x7d"

end IGate
