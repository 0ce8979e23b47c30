import IGate.Session.World

/-! Sessions: steps of the callers, of the server and of time, each followed by a report once all
has come to rest. -/

namespace IGate.Session

inductive HangUp where
  | close
  | reset
  deriving DecidableEq

/-- A wait for a frame as the pauses it consists of, and what it brings. -/
structure Wait where
  pauses : List Duration
  reception : Reception
  deriving DecidableEq

inductive Act where
  | start
  | stop
  | status
  | clock (ms : UInt64)
  | advance (d : Duration)
  | write (frames : List Bytes) (thenStop : Bool)
  | writeMessage (texts : List String) (thenStop : Bool)
  | send (bytes : Bytes) (next : Option HangUp)
  | hangUp (how : HangUp)
  | listen (on : Bool)
  | sink (s : Sink)
  | relay (waits : List Wait)
  deriving DecidableEq

inductive Result where
  | nothing
  | flags (taken : List Bool)
  | flag (done : Bool)
  | counts (c : RelayCounts)
  deriving DecidableEq

namespace World

/-! The relay beside the worker -/

/-- Where the relay stands: at the top of its loop, in a pause of its wait, or resting. -/
inductive RelayPhase where
  | top
  | waiting (began deadline : Duration) (later : List Duration) (what : Reception)
  | resting (deadline : Duration)

structure Task where
  relay : Relay
  waits : List Wait
  phase : RelayPhase

def uplink : Uplink World where
  write w frame := w.offer (.write frame)
  clock w ms := w.tell (.call (.clock ms))

/-- One move of the relay, unless it waits for time; `none` for the task when it is over. -/
def relayMove? (w : World) (t : Task) : Option (World × Option Task) :=
  let now := w.client.now
  match t.phase with
  | .top =>
    match t.waits with
    | [] => some ({ w with log := w.log ++ [.relayStopped t.relay.counts] }, none)
    | wait :: rest =>
      some (w, some { t with waits := rest, phase := .waiting now now wait.pauses wait.reception })
  | .waiting began deadline later what =>
    if deadline ≤ now then
      match later with
      | pause :: later =>
        some (w, some { t with phase := .waiting began (now + pause) later what })
      | [] =>
        let (relay, w, notices) := t.relay.receive uplink w now what
        some ({ w with log := w.log ++ notices },
          some { t with relay, phase := .resting (Relay.turnEnd began now) })
    else none
  | .resting deadline => if deadline ≤ now then some (w, some { t with phase := .top }) else none

def relayMoves (fuel : Nat) (w : World) (t : Task) : World × Task × Bool :=
  match fuel with
  | 0 => (w, t, false)
  | fuel + 1 =>
    match w.relayMove? t with
    | none => (w, t, false)
    | some (w, some t) => relayMoves fuel w t
    | some (w, none) => (w, t, true)

/-- Relay and worker come to rest, then time moves on by a tick, until the relay is over. -/
def relayJumps (jumps moves : Nat) (w : World) (t : Task) : World × RelayCounts :=
  let (w, t, ended) := w.relayMoves moves t
  let w := w.settle
  match jumps, ended with
  | jumps + 1, false => relayJumps jumps moves (w.tell (.elapse Relay.tick)) t
  | _, _ => (w, t.relay.counts)

def jumpsFor (wait : Wait) : Nat := wait.pauses.foldl (fun n p => n + p / Relay.tick + 1) 1

def movesFor (wait : Wait) : Nat := 4 + wait.pauses.length

def relay (w : World) (waits : List Wait) : World × RelayCounts :=
  let w := { w with log := w.log ++ [.relayStarted] }
  relayJumps (waits.foldl (fun n wait => n + jumpsFor wait) 1)
    (waits.foldl (fun n wait => n + movesFor wait) 1) w
    ⟨Relay.start w.client.now, waits, .top⟩

/-! Steps -/

def hangUp (w : World) : HangUp → World
  | .close => w.onConnection fun c => if c.isOpen then { c with finished := true } else c
  | .reset => w.onConnection fun c => if c.isOpen then { c with wasReset := true } else c

def stopAfter (w : World) (thenStop : Bool) : World :=
  if thenStop then w.tell (.call .requestStop) else w

def send (w : World) (bytes : Bytes) (next : Option HangUp) : Result × World :=
  if (w.connection.map (·.isOpen)).getD false then
    let w := w.onConnection fun c => { c with unread := c.unread ++ bytes }
    (.flag true, (next.map w.hangUp).getD w)
  else (.flag false, w)

def enact (w : World) : Act → Result × World
  | .start => (.nothing, w.tell (.call .start))
  | .stop => (.nothing, w.tell (.call .requestStop))
  | .status => (.nothing, w)
  | .clock ms => (.nothing, w.tell (.call (.clock ms)))
  | .advance d => (.nothing, w.tell (.elapse d))
  | .write frames thenStop =>
    let (taken, w) := w.offers (frames.map .write)
    (.flags taken, w.stopAfter thenStop)
  | .writeMessage texts thenStop =>
    let (taken, w) := w.offers (texts.map .writeMessage)
    (.flags taken, w.stopAfter thenStop)
  | .send bytes next => w.send bytes next
  | .hangUp how => (.nothing, w.hangUp how)
  | .listen on => (.nothing, { w with network := { w.network with listening := on } })
  | .sink s =>
    (.nothing, { w with sinks := w.sinks ++ [s] }.tell (.call (.setSink w.sinks.length)))
  | .relay waits =>
    let (w, counts) := w.relay waits
    (.counts counts, w)

def forget (w : World) : World :=
  { w with received := [], delivered := [], sinkWrites := [], log := [] }

def act (w : World) (a : Act) : Result × World :=
  let (result, w) := w.forget.enact a
  (result, w.settle)

def run (w : World) : List Act → List (Result × World)
  | [] => []
  | a :: rest => w.act a :: run (w.act a).2 rest

inductive ServerLink where
  | up
  | closedByClient
  | down
  deriving DecidableEq

def serverLink (w : World) : ServerLink :=
  match w.connection with
  | none => .down
  | some c =>
    if c.finished || c.wasReset then .down
    else if c.clientClosed then .closedByClient
    else .up

end World

end IGate.Session
