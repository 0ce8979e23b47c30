import IGate.Duration

/-! A countdown that moves only when it is told how much time has passed, and the delay before the
next attempt to connect, which grows by a minute with each failure up to ten. -/

namespace IGate

/-- A stopped countdown has no time left and has not expired. -/
structure Countdown where
  timeout : UInt64
  remaining : UInt64
  running : Bool
  deriving DecidableEq

namespace Countdown

def initial : Countdown := ⟨0, 0, false⟩

def setTimeout (t : Countdown) (d : Duration) : Countdown := { t with timeout := d.millisWord }

def start (t : Countdown) : Countdown := { t with remaining := t.timeout, running := true }

def stop (t : Countdown) : Countdown := { t with remaining := 0, running := false }

/-- Takes `ms` from the remaining time, down to zero. -/
def clock (t : Countdown) (ms : UInt64) : Countdown :=
  if t.running then { t with remaining := if ms ≤ t.remaining then t.remaining - ms else 0 }
  else t

def expired (t : Countdown) : Bool := t.running && t.remaining == 0

def left (t : Countdown) : UInt64 := if t.running then t.remaining else 0

inductive Action where
  | setTimeout (d : Duration)
  | start
  | stop
  | clock (ms : UInt64)
  | query

def act (t : Countdown) : Action → Countdown
  | .setTimeout d => t.setTimeout d
  | .start => t.start
  | .stop => t.stop
  | .clock ms => t.clock ms
  | .query => t

def run (t : Countdown) (as : List Action) : Countdown := as.foldl act t

end Countdown

def reconnectStep : Duration := Duration.ofSeconds 60

def maxAttempts : Nat := 10

/-- The failures in a row, up to ten, and the countdown to the next attempt. -/
structure Backoff where
  countdown : Countdown
  attempts : Nat
  deriving DecidableEq

namespace Backoff

def initial : Backoff := ⟨Countdown.initial, 0⟩

/-- The delay after the `attempts`-th failure in a row. -/
def delayAfter (attempts : Nat) : Duration := reconnectStep * attempts

/-- Counts a failure and starts the countdown that belongs to it. -/
def fail (b : Backoff) : Backoff :=
  let attempts := min (b.attempts + 1) maxAttempts
  ⟨(b.countdown.setTimeout (delayAfter attempts)).start, attempts⟩

def clock (b : Backoff) (ms : UInt64) : Backoff := { b with countdown := b.countdown.clock ms }

def stop (b : Backoff) : Backoff := { b with countdown := b.countdown.stop }

def reset (b : Backoff) : Backoff := ⟨b.countdown.stop, 0⟩

def expired (b : Backoff) : Bool := b.countdown.expired

def running (b : Backoff) : Bool := b.countdown.running

/-- The delay of the latest failure in milliseconds, also after it has passed. -/
def delay (b : Backoff) : UInt64 := b.countdown.timeout

def left (b : Backoff) : UInt64 := b.countdown.left

inductive Action where
  | fail
  | clock (ms : UInt64)
  | stop
  | reset
  | query
  deriving DecidableEq

def act (b : Backoff) : Action → Backoff
  | .fail => b.fail
  | .clock ms => b.clock ms
  | .stop => b.stop
  | .reset => b.reset
  | .query => b

def answer? (b : Backoff) : Action → Option Duration
  | .fail => some (delayAfter b.fail.attempts)
  | _ => none

def run (b : Backoff) (as : List Action) : Backoff := as.foldl act b

end Backoff

end IGate
