import IGate.Client.Arrivals
import IGate.Datagram
import IGate.Relay.Loop

/-! A client, the network it finds, and a server that is played for it. The worker is served what
it waits for until it waits for time or for something new. -/

namespace IGate.Session

structure Network where
  reachable : Bool
  listening : Bool
  deriving DecidableEq

/-- The latest connection: what the server sent and the client has not read, and who has hung up. -/
structure Connection where
  unread : Bytes
  finished : Bool
  wasReset : Bool
  clientClosed : Bool
  deriving DecidableEq

namespace Connection

def opened : Connection := ⟨[], false, false, false⟩

def isOpen (c : Connection) : Bool := !c.finished && !c.wasReset && !c.clientClosed

def ending (c : Connection) : Option Signal :=
  if c.wasReset then some (.readFailed (.system .connectionReset))
  else if c.finished then some .endOfStream
  else none

end Connection

/-- What a sink does with one line: it writes frames, has the connection reset, panics. -/
structure Rule where
  line : String
  writes : List Bytes
  resets : Bool
  panics : Bool
  deriving DecidableEq

inductive Sink where
  | recorder (name : String) (script : List Rule)
  | forwarder
  deriving DecidableEq

/-- The last five fields are what happened since the latest report. -/
structure World where
  client : Client
  network : Network
  accepted : Nat
  connection : Option Connection
  sinks : List Sink
  received : Bytes
  delivered : List (String × String)
  sinkWrites : List Bool
  log : List Notice

namespace World

def serverName : String := "SERVER"

def new (config : ClientConfig) (network : Network) : Except ClientConfigError World :=
  match Client.new config with
  | .error e => .error e
  | .ok c =>
    .ok ⟨{ c with settings := { c.settings with address := serverName } }, network, 0, none, [],
      [], [], [], []⟩

def onConnection (w : World) (f : Connection → Connection) : World :=
  { w with connection := w.connection.map f }

def witness (w : World) : Event → World
  | .opened => { w with accepted := w.accepted + 1, connection := some Connection.opened }
  | .sent bytes =>
    if (w.connection.map (·.isOpen)).getD false then { w with received := w.received ++ bytes }
    else w
  | .closed => w.onConnection ({ · with clientClosed := true })
  | .log notice => { w with log := w.log ++ [notice] }
  | _ => w

def signal (w : World) (s : Signal) : World × List Event :=
  let (client, events) := w.client.step s
  (events.foldl witness { w with client }, events)

def tell (w : World) (s : Signal) : World := (w.signal s).1

def wasAccepted (events : List Event) : Bool :=
  events.any fun | .accepted _ => true | _ => false

def offer (w : World) (c : Call) : Bool × World :=
  let (w, events) := w.signal (.call c)
  (wasAccepted events, w)

def offers (w : World) : List Call → List Bool × World
  | [] => ([], w)
  | c :: rest =>
    let (taken, w) := w.offer c
    let (others, w) := offers w rest
    (taken :: others, w)

/-- A forwarder's datagrams are listed under this name. -/
def forwarderName : String := "udp"

def targetName : String := "TARGET"

def forward (w : World) (line : String) : World :=
  let (datagram, notices) := Datagram.forward w.network.reachable targetName line
  { w with
    delivered := w.delivered ++ (datagram.map fun _ => (forwarderName, line)).toList
    log := w.log ++ notices }

def sinkTurn (w : World) (line : String) : World :=
  match w.client.shared.sink.bind (w.sinks[·]?) with
  | none => w.tell .sinkReturned
  | some .forwarder => (w.forward line).tell .sinkReturned
  | some (.recorder name script) =>
    let w := { w with delivered := w.delivered ++ [(name, line)] }
    match script.find? (·.line == line) with
    | none => w.tell .sinkReturned
    | some rule =>
      let (taken, w) := w.offers (rule.writes.map .write)
      let w := { w with sinkWrites := w.sinkWrites ++ taken }
      let w := if rule.resets then w.onConnection ({ · with wasReset := true }) else w
      w.tell (if rule.panics then .sinkPanicked else .sinkReturned)

/-- What the network answers to an attempt. No time at all is too little on any network that is
reachable. -/
def connectAnswer (w : World) : Signal :=
  if !w.network.reachable then .connectFailed (.system .networkUnreachable)
  else if w.client.settings.readTimeout = 0 then .timeout
  else if w.network.listening then .connected
  else .connectFailed (.system .connectionRefused)

/-- What a write meets: a peer that has reset the connection, or one that takes everything. -/
def writeAnswer (w : World) (rest : Bytes) : Option Signal :=
  if (w.connection.map (·.wasReset)).getD false then
    some (.writeFailed (.system .connectionReset))
  else if rest = [] then none
  else some (.took rest.length)

def outcome (w : World) : Phase → Option Signal
  | .connecting _ => some w.connectAnswer
  | .loggingIn _ rest | .sending rest => w.writeAnswer rest
  | _ => none

def arrivals (w : World) (phase : Phase) : Arrivals :=
  ⟨w.outcome phase, (w.connection.map (·.unread)).getD [],
    w.connection.bind Connection.ending⟩

/-- A poll of no length begins again at once when it is over, which is not rest. -/
def spins (w : World) : Phase → Bool
  | .polling deadline =>
    w.client.settings.pollTimeout == 0 && w.client.shared.queue.isEmpty &&
      deadline == w.client.now
  | _ => false

def serve? (w : World) : Option World :=
  match w.client.worker.map Worker.phase with
  | none => none
  | some (.delivering line) => some (w.sinkTurn line)
  | some phase =>
    match (w.arrivals phase).next? w.client with
    | none => none
    | some (s, left) =>
      if s = .timeout ∧ w.spins phase then none
      else some ((w.onConnection ({ · with unread := left.unread })).tell s)

def serve (fuel : Nat) (w : World) : World :=
  match fuel with
  | 0 => w
  | fuel + 1 =>
    match w.serve? with
    | some w => serve fuel w
    | none => w

def scriptWrites : Sink → Nat
  | .recorder _ script => (script.flatMap Rule.writes).length
  | .forwarder => 0

/-- More services than the worker can need: some for each byte that is unread, for each frame that
is queued, and for each frame that a sink may write on a line. -/
def effort (w : World) : Nat :=
  let unread := (w.connection.map (·.unread.length)).getD 0 +
    ((w.client.worker.bind (·.link)).map List.length).getD 0
  let writes := w.sinks.foldl (fun n s => n + scriptWrites s) 1
  64 + 8 * (unread + 1) * writes + 8 * w.client.shared.queue.length

def settle (w : World) : World := w.serve w.effort

end World

end IGate.Session
