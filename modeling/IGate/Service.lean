import IGate.Client.Arrivals
import IGate.CommandLine
import IGate.Datagram
import IGate.Relay.Loop

/-! A gateway that runs, as a machine: relay and worker move on whatever happens, as far as they
can get, and tell what is to be done outside. -/

namespace IGate

/-- What happens around a gateway. News of a connection carries its number. -/
inductive Happening where
  | tick
  | datagram (sender : String) (bytes : Bytes)
  | receiveFailed (e : IoError)
  | outcome (link : Nat) (s : Signal)
  | chunk (link : Nat) (bytes : Bytes)
  | ending (link : Nat) (s : Signal)
  | terminate
  deriving DecidableEq, Inhabited

inductive Effect where
  | connect (link : Nat) (address : String)
  | send (link : Nat) (bytes : Bytes)
  | close (link : Nat)
  | forward (line : String)
  | log (notice : Notice)
  | finish
  deriving DecidableEq

inductive RelayPhase where
  | waiting (began : Duration)
  | resting (deadline : Duration)
  | ended
  deriving DecidableEq

/-- `link` is the number of the latest connection, and `writing` tells that bytes are on their way
out on it. -/
structure Service where
  client : Client
  link : Nat
  arrivals : Arrivals
  writing : Bool
  source : FrameSource
  inbox : List (Except IoError (String × Bytes))
  relay : Relay
  phase : RelayPhase
  terminating : Bool

namespace Service

abbrev Step := Service × List Effect

def start (c : Client) : Step :=
  ({ client := (c.call .start).1
     link := 0
     arrivals := .none
     writing := false
     source := .initial
     inbox := []
     relay := .start c.now
     phase := .resting c.now
     terminating := false }, [.log .relayStarted])

def elapse (s : Service) (now : Duration) : Service :=
  { s with client := (s.client.step (.elapse (now - s.client.now))).1 }

/-- Late news of a connection that is no longer the latest is dropped. -/
def takeIn (s : Service) : Happening → Step
  | .tick => (s, [])
  | .datagram sender bytes => ({ s with inbox := s.inbox ++ [.ok (sender, bytes)] }, [])
  | .receiveFailed e => ({ s with inbox := s.inbox ++ [.error e] }, [])
  | .outcome link o =>
    if link = s.link then
      ({ s with arrivals := { s.arrivals with outcome := some o }, writing := false }, [])
    else (s, [])
  | .chunk link bytes =>
    if link = s.link then
      ({ s with arrivals := { s.arrivals with unread := s.arrivals.unread ++ bytes } }, [])
    else (s, [])
  | .ending link e =>
    if link = s.link then ({ s with arrivals := { s.arrivals with ending := some e } }, [])
    else (s, [])
  | .terminate => ({ s with terminating := true }, [.log .shutdownRequested])

/-! The relay -/

def uplink : Uplink Client where
  write c frame :=
    let (c, events) := c.call (.write frame)
    (events.any fun | .accepted _ => true | _ => false, c)
  clock c ms := (c.call (.clock ms)).1

def finishWait (s : Service) (began : Duration) (what : Reception) : Step :=
  let (relay, client, notices) := s.relay.receive uplink s.client s.client.now what
  ({ s with relay, client, phase := .resting (Relay.turnEnd began client.now) },
    notices.map .log)

/-- A datagram ends the wait, and so does a failure or a tick without either. -/
def receive (s : Service) : Step :=
  match s.phase, s.inbox with
  | .waiting began, .ok (sender, bytes) :: rest =>
    let (what, source, notices) := s.source.receive sender bytes
    let (s, effects) := { s with source, inbox := rest }.finishWait began what
    (s, notices.map .log ++ effects)
  | .waiting began, .error e :: rest =>
    { s with inbox := rest }.finishWait began (.failed (.receive e))
  | .waiting began, [] =>
    if began + Relay.tick ≤ s.client.now then s.finishWait began .nothing else (s, [])
  | _, _ => (s, [])

/-- The next turn begins, unless the gateway is to stop. Then the client is told so. -/
def beginTurn (s : Service) : Step :=
  match s.phase with
  | .resting deadline =>
    if deadline ≤ s.client.now then
      if s.terminating then
        ({ s with client := (s.client.call .requestStop).1, phase := .ended },
          [.log (.relayStopped s.relay.counts)])
      else ({ s with phase := .waiting s.client.now }, [])
    else (s, [])
  | _ => (s, [])

def andThen (a : Step) (f : Service → Step) : Step := ((f a.1).1, a.2 ++ (f a.1).2)

def moveRelay (s : Service) : Step := andThen (andThen s.receive beginTurn) receive

/-! The worker -/

/-- What an event of the client asks for. Each attempt is a new connection, which is closed however
it ends but by becoming a link. -/
def carry (s : Service) : Event → Step
  | .attempting =>
    let link := s.link + 1
    ({ s with link, arrivals := .none, writing := false },
      [.connect link s.client.settings.address])
  | .closed | .failed _ => (s, [.close s.link])
  | .log .attemptAbandoned => (s, [.log .attemptAbandoned, .close s.link])
  | .log notice => (s, [.log notice])
  | .ended => (s, [.log (.gatewayStopped CommandLine.version), .finish])
  | _ => (s, [])

def signal (s : Service) (g : Signal) : Step :=
  let (client, events) := s.client.step g
  events.foldl (fun a e => andThen a (carry · e)) ({ s with client }, [])

def toWrite (s : Service) : Bytes :=
  if s.writing ∨ s.arrivals.outcome.isSome then []
  else
    match s.client.worker.map Worker.phase with
    | some (.loggingIn _ rest) | some (.sending rest) => rest
    | _ => []

/-- Serves the worker once, unless it is at rest. -/
def serve? (s : Service) : Option Step :=
  match s.client.worker.map Worker.phase with
  | some (.delivering line) => some (andThen (s, [.forward line]) (signal · .sinkReturned))
  | _ =>
    match s.arrivals.next? s.client with
    | some (g, arrivals) => some ({ s with arrivals }.signal g)
    | none =>
      if s.toWrite = [] then none
      else some ({ s with writing := true }, [.send s.link s.toWrite])

def serve (fuel : Nat) (s : Service) : Step :=
  match fuel with
  | 0 => (s, [])
  | fuel + 1 =>
    match s.serve? with
    | some a => andThen a (serve fuel)
    | none => (s, [])

/-- More services than the worker needs before it waits, unless its polls have no length. -/
def effort (s : Service) : Nat :=
  64 + 8 * s.arrivals.unread.length + 8 * s.client.shared.queue.length +
    8 * ((s.client.worker.bind (·.link)).map List.length).getD 0

def step (s : Service) (now : Duration) (h : Happening) : Step :=
  let moved := andThen ((s.elapse now).takeIn h) moveRelay
  andThen moved fun s => s.serve s.effort

end Service

end IGate
