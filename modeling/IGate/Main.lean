import IGate.Service
import IGate.Startup
import Std.Async.DNS
import Std.Async.Signal
import Std.Async.TCP
import Std.Async.UDP
import Std.Sync.CancellationToken
import Std.Sync.Channel

/-! The program: files, sockets, signals and the clock around a running gateway. -/

namespace IGate.Program

open Std.Async

/-! Failures and addresses as the system knows them -/

/-- The system's number of a failure, which some calls report below zero. -/
def number? : IO.Error → Option UInt32
  | .alreadyExists _ n _ | .invalidArgument _ n _ | .permissionDenied _ n _
  | .resourceExhausted _ n _ | .inappropriateType _ n _ | .noSuchThing _ n _
  | .interrupted _ n _ | .noFileOrDirectory _ n _ | .otherError n _ | .resourceBusy n _
  | .resourceVanished n _ | .unsupportedOperation n _ | .hardwareFault n _
  | .unsatisfiedConstraints n _ | .illegalOperation n _ | .protocolError n _
  | .timeExpired n _ => some n
  | .unexpectedEof | .userError _ => none

def failure (e : IO.Error) : IoError :=
  match (number? e).bind fun n => SystemFailure.ofCode? n.toInt32.toInt.natAbs with
  | some f => .system f
  | none => .described .other (toString e)

def attempt {α : Type} (act : IO α) : IO (Except IoError α) := do
  match ← act.toBaseIO with
  | .ok a => return .ok a
  | .error e => return .error (failure e)

def toNet : SocketAddress → Option Std.Net.SocketAddress
  | .v4 [a, b, c, d] port =>
    some (.v4 ⟨.ofParts a.toUInt8 b.toUInt8 c.toUInt8 d.toUInt8, port.toUInt16⟩)
  | .v6 [a, b, c, d, e, f, g, h] _ port =>
    some (.v6 ⟨.ofParts a.toUInt16 b.toUInt16 c.toUInt16 d.toUInt16 e.toUInt16 f.toUInt16
      g.toUInt16 h.toUInt16, port.toUInt16⟩)
  | _ => none

def ofNet : Std.Net.SocketAddress → SocketAddress
  | .v4 a => .v4 (a.addr.octets.toList.map UInt8.toNat) a.port.toNat
  | .v6 a => .v6 (a.addr.segments.toList.map UInt16.toNat) 0 a.port.toNat

def withPort (port : Nat) : Std.Net.IPAddr → Std.Net.SocketAddress
  | .v4 a => .v4 ⟨a, port.toUInt16⟩
  | .v6 a => .v6 ⟨a, port.toUInt16⟩

/-- The name and the port to ask for where a text does not hold an address itself. -/
def question? (address : String) : Option (String × Nat) := do
  let (host, digits) ← Lookup.lastColon? address.toList
  let port ← Lookup.port? digits
  if Lookup.isName host then some (String.ofList host, port) else none

/-- All addresses that a text stands for. A name is looked up. -/
def lookUp (address : String) : IO (Except IoError (List Std.Net.SocketAddress)) := do
  match Lookup.resolve address, question? address with
  | .ok a, _ => return .ok (toNet a).toList
  | .error e, none => return .error e
  | .error e, some (name, port) =>
    match ← attempt (DNS.getAddrInfo name (toString port)).block with
    | .ok found => return .ok (found.toList.map (withPort port))
    | .error _ => return .error e

def bytesOf (b : ByteArray) : Bytes := b.toList

def arrayOf (b : Bytes) : ByteArray := ⟨b.toArray⟩

/-! Time -/

def stamp : IO (String × String) := do
  let now := Std.Time.PlainDateTime.ofWallTime
    (Std.Time.WallTime.ofTimestamp (← Std.Time.Timestamp.now) Std.Time.TimeZone.UTC.offset)
  return (now.date.toSQLDateString, now.time.toTime24Hour)

/-! Start -/

def onFile {α : Type} (path : String) (act : String → IO α) : IO (Except IoError α) :=
  if '\x00' ∈ path.toList then return .error IoError.zeroByte else attempt (act path)

/-- The files of the machine we run on. A directory is what has entries, itself among them. -/
def files : FileSystem IO where
  read path := onFile path fun path => bytesOf <$> IO.FS.readBinFile path
  append path := onFile path fun path => discard (IO.FS.Handle.mk path .append)
  makeDirectory path := onFile path fun path => IO.FS.createDir path
  isDirectory path := do
    return (← onFile (Path.join path ".") fun path => IO.FS.Handle.mk path .read).toOption.isSome

/-- The machine we run on. The source of frames is bound to the given socket. -/
def host (socket : UDP.Socket) : Host IO where
  toFileSystem := files
  date := Prod.fst <$> stamp
  bind address := do
    match ← lookUp address with
    | .error e => return .error (.bind address e)
    | .ok addresses =>
      match addresses with
      | [] => return .error (.bind address (.ofKind .addrNotAvailable))
      | a :: _ =>
        return ((← attempt (socket.bind a)).mapError (.bind address)).map fun _ => ofNet a

/-! The log -/

def report (config : LogConfig) (n : Notice) : IO Unit := do
  if LogFile.admits config.level n then
    let (day, time) ← stamp
    let line := day ++ "T" ++ time ++ "Z " ++ n.level.name.toUpper ++ " " ++ n.message ++ "\n"
    IO.print line
    match LogFile.path? config day with
    | none => pure ()
    | some path =>
      let file ← IO.FS.Handle.mk path .append
      file.putStr line

/-! Connections -/

/-- A flag that is set once and can be waited for. -/
structure Stop where
  token : Std.CancellationToken
  came : Task Unit

namespace Stop

def new : IO Stop := do
  let token ← Std.CancellationToken.new
  let wait : Task (Except IO.Error Unit) ← token.wait
  return ⟨token, wait.map fun _ => ()⟩

def before (s : Stop) {α : Type} (act : Async α) : IO (Option (Except IoError α)) := do
  let awaited : Task (Except IO.Error α) ← act.toIO
  return (← IO.waitAny [awaited.map some, s.came.map fun _ => none]).map (·.mapError failure)

end Stop

/-- An open connection with its number. Its reader ends when it is stopped. -/
structure Wire where
  number : Nat
  socket : TCP.Socket.Client
  stop : Stop

/-- What a running program holds. No connection with a number up to `closed` is wanted. -/
structure Desk where
  news : Std.Channel.Sync Happening
  log : LogConfig
  target : Option (UDP.Socket × SocketAddress)
  wires : IO.Ref (List Wire)
  closed : IO.Ref Nat
  stop : Stop

namespace Desk

def tell (d : Desk) (h : Happening) : IO Unit := d.news.send h

def aside (act : IO Unit) : IO Unit := discard (IO.asTask act .dedicated)

partial def read (d : Desk) (w : Wire) : IO Unit := do
  match ← w.stop.before (w.socket.recv? readChunk.toUInt64) with
  | none => discard (attempt w.socket.native.cancelRecv)
  | some (.ok none) => d.tell (.ending w.number .endOfStream)
  | some (.ok (some chunk)) =>
    d.tell (.chunk w.number (bytesOf chunk))
    d.read w
  | some (.error e) => d.tell (.ending w.number (.readFailed e))

def open? (addresses : List Std.Net.SocketAddress) : IO (Except IoError TCP.Socket.Client) := do
  let mut last := IoError.ofKind .addrNotAvailable
  for a in addresses do
    let socket ← TCP.Socket.Client.mk
    match ← attempt (socket.connect a).block with
    | .ok () => return .ok socket
    | .error e => last := e
  return .error last

def hangUp (w : Wire) : IO Unit := do
  w.stop.token.cancel
  discard (attempt w.socket.shutdown.block)

def connect (d : Desk) (number : Nat) (address : String) : IO Unit := do
  let opened ← match ← lookUp address with
    | .ok addresses => open? addresses
    | .error e => pure (.error e)
  match opened with
  | .error e => d.tell (.outcome number (.connectFailed e))
  | .ok socket =>
    discard (attempt socket.noDelay)
    let w : Wire := ⟨number, socket, ← Stop.new⟩
    d.wires.modify (w :: ·)
    if number ≤ (← d.closed.get) then hangUp w
    else
      d.tell (.outcome number .connected)
      d.read w

def wire? (d : Desk) (number : Nat) : IO (Option Wire) := do
  return (← d.wires.get).find? (·.number == number)

def send (d : Desk) (number : Nat) (bytes : Bytes) : IO Unit := do
  let some w ← d.wire? number | pure ()
  match ← attempt (w.socket.send (arrayOf bytes)).block with
  | .ok () => d.tell (.outcome number (.took bytes.length))
  | .error e => d.tell (.outcome number (.writeFailed e))

def close (d : Desk) (number : Nat) : IO Unit := do
  d.closed.modify (max number)
  let some w ← d.wire? number | pure ()
  d.wires.modify (·.filter (·.number != number))
  hangUp w

def forward (d : Desk) (line : String) : IO Unit := do
  let some (socket, target) := d.target | pure ()
  match ← attempt (socket.send (arrayOf (Utf8.encode line)) (toNet target)).block with
  | .ok () => pure ()
  | .error e => report d.log (.forwardFailed target.text e)

def perform (d : Desk) : Effect → IO Unit
  | .connect number address => aside (d.connect number address)
  | .send number bytes => aside (d.send number bytes)
  | .close number => d.close number
  | .forward line => d.forward line
  | .log notice => report d.log notice
  | .finish => d.stop.token.cancel

/-! News -/

/-- Passes on every datagram, and after a failure rests for a tick. -/
partial def listen (d : Desk) (socket : UDP.Socket) : IO Unit := do
  match ← d.stop.before (socket.recv Datagram.maxRequest.toUInt64) with
  | none => discard (attempt socket.native.cancelRecv)
  | some (.ok (bytes, sender)) =>
    d.tell (.datagram ((sender.map fun a => (ofNet a).text).getD "") (bytesOf bytes))
    d.listen socket
  | some (.error e) =>
    d.tell (.receiveFailed e)
    IO.sleep (Duration.millis Relay.tick).toUInt32
    d.listen socket

partial def tick (d : Desk) : IO Unit := do
  IO.sleep (Duration.millis Relay.tick).toUInt32
  if !(← d.stop.token.isCancelled) then
    d.tell .tick
    d.tick

def heed (d : Desk) (s : Std.Async.Signal) : IO Unit := do
  let waiter ← Signal.Waiter.mk s false
  match ← d.stop.before (.ofAsyncTask (← waiter.wait)) with
  | none => waiter.stop
  | some _ => d.tell .terminate

partial def serve (d : Desk) (s : Service) : IO Unit := do
  let h ← d.news.recv
  let (s, effects) := s.step (← IO.monoNanosNow) h
  effects.forM d.perform
  if !effects.contains .finish then d.serve s

end Desk

/-! The gateway -/

def forwarder (g : Gateway) : IO (Option (UDP.Socket × SocketAddress)) := do
  match g.config.forwardTarget with
  | none => return none
  | some target => return some (← UDP.Socket.mk, target)

def run (g : Gateway) (socket : UDP.Socket) : IO Unit := do
  let log := g.config.log
  let target ← forwarder g
  let client := if target.isSome then (g.client.call (.setSink 0)).1 else g.client
  let d : Desk := ⟨← Std.Channel.Sync.new, log, target, ← IO.mkRef [], ← IO.mkRef 0,
    ← Stop.new⟩
  report log (.gatewayStarting CommandLine.version)
  target.forM fun t => report log (.forwarding t.2.text)
  report log (.listening g.config.bindAddress)
  let (s, effects) := Service.start { client with now := ← IO.monoNanosNow }
  effects.forM d.perform
  Desk.aside (d.listen socket)
  Desk.aside (d.heed .sigterm)
  Desk.aside (d.heed .sigint)
  Desk.aside d.tick
  d.serve s

end IGate.Program

open IGate in
def main (arguments : List String) : IO UInt32 := do
  let socket ← Std.Async.UDP.Socket.mk
  let fromEnv ← IO.getEnv CommandLine.variableName
  let started ← Startup.run (Program.host socket) arguments fromEnv
  match started with
  | .ready g => Program.run g socket
  | _ => pure ()
  let (code, output, errors) := started.exit
  IO.print output
  IO.eprint errors
  return code.toUInt32
