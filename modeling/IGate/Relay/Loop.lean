import IGate.Duration
import IGate.Notice

/-! The relay: it waits for a local frame, offers it to the uplink, tells the uplink how much time
has passed, and rests until its tick of 20 ms is over. -/

namespace IGate

/-- Where frames go. Writing tells whether the frame was taken. -/
structure Uplink (υ : Type) where
  write : υ → Bytes → Bool × υ
  clock : υ → UInt64 → υ

/-- The counts so far, and the instant up to which the uplink has been told the time. -/
structure Relay where
  counts : RelayCounts
  clocked : Duration
  deriving DecidableEq

namespace Relay

/-- The length of one turn, unless the wait for a frame takes longer. -/
def tick : Duration := Duration.ofMillis 20

def start (now : Duration) : Relay := ⟨RelayCounts.zero, now⟩

variable {υ : Type}

/-- Counts what the source brought and passes a frame on. -/
def offer (u : Uplink υ) (r : Relay) (s : υ) : Reception → Relay × υ × List Notice
  | .nothing => (r, s, [])
  | .failed e =>
    ({ r with counts := { r.counts with sourceErrors := r.counts.sourceErrors + 1 } }, s,
      [.sourceFailed e])
  | .frame bytes =>
    match u.write s bytes with
    | (true, s) =>
      ({ r with counts := { r.counts with
          received := r.counts.received + 1, forwarded := r.counts.forwarded + 1 } }, s, [])
    | (false, s) =>
      ({ r with counts := { r.counts with
          received := r.counts.received + 1, refused := r.counts.refused + 1 } }, s,
        [.uplinkRefused bytes.length])

/-- The whole milliseconds since the uplink was last told. The fraction stays for the next time. -/
def lap (r : Relay) (now : Duration) : UInt64 × Relay :=
  let ms := Duration.millisWord (now - r.clocked)
  (ms, { r with clocked := r.clocked + Duration.ofMillis ms.toNat })

def receive (u : Uplink υ) (r : Relay) (s : υ) (now : Duration) (what : Reception) :
    Relay × υ × List Notice :=
  let (r, s, notices) := r.offer u s what
  let (ms, r) := r.lap now
  (r, u.clock s ms, notices)

/-- When the turn that began at `began` ends, if its wait for a frame ended at `now`. -/
def turnEnd (began now : Duration) : Duration := max now (began + tick)

/-- One turn of the loop: how long the wait for a frame took, and what it brought. -/
structure Turn where
  elapsed : Duration
  reception : Reception
  deriving DecidableEq

structure Outcome (υ : Type) where
  relay : Relay
  uplink : υ
  notices : List Notice
  now : Duration

def turns (u : Uplink υ) (r : Relay) (s : υ) (now : Duration) : List Turn → Outcome υ
  | [] => ⟨r, s, [], now⟩
  | t :: rest =>
    let (r, s, notices) := r.receive u s (now + t.elapsed) t.reception
    let after := turns u r s (turnEnd now (now + t.elapsed)) rest
    { after with notices := notices ++ after.notices }

/-- A whole run from the instant `now`. The flag is cleared during the last of the turns. -/
def run (u : Uplink υ) (s : υ) (now : Duration) (ts : List Turn) : Outcome υ :=
  let after := turns u (start now) s now ts
  { after with
    notices := .relayStarted :: after.notices ++ [.relayStopped after.relay.counts] }

end Relay

inductive UplinkCall where
  | write (frame : Bytes) (taken : Bool)
  | clock (ms : UInt64)
  deriving DecidableEq

/-- An uplink that follows a pattern of answers, over and over, and remembers its calls. -/
structure Recorder where
  pattern : List Bool
  writes : Nat
  calls : List UplinkCall
  deriving DecidableEq

namespace Recorder

def answer (r : Recorder) : Bool := r.pattern.getD (r.writes % r.pattern.length) true

def uplink : Uplink Recorder where
  write r frame :=
    (r.answer, { r with writes := r.writes + 1, calls := r.calls ++ [.write frame r.answer] })
  clock r ms := { r with calls := r.calls ++ [.clock ms] }

end Recorder

end IGate
