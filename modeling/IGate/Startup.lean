import IGate.Client.State
import IGate.CommandLine
import IGate.Config.Validate
import IGate.Datagram
import IGate.LogFile

/-! The way from the command line to a gateway that runs, or to the report of why none does. -/

namespace IGate

inductive StartupError where
  | usage (e : CommandLine.UsageError)
  | config (path : String) (e : ConfigError)
  | log (e : LogFile.Error)
  | client (e : ClientConfigError)
  | source (e : SourceError)
  deriving DecidableEq

namespace StartupError

/-- The error and, one by one, what caused it. -/
def chain : StartupError → String × List String
  | usage e => (e.message, [])
  | config path e =>
    ("failed to load configuration from " ++ path, e.message :: e.cause?.toList)
  | log e => ("failed to open the log file", [e.message, e.cause.message])
  | client e =>
    ("invalid APRS-IS settings",
      match e with
      | .credentials cause => [e.message, cause.message]
      | _ => [e.message])
  | source e =>
    ("failed to open the local frame socket",
      match e with
      | .bind _ cause | .receive cause => [e.message, cause.message])

def causeText (number cause : String) : String :=
  let margin := String.ofList (List.replicate (4 + number.length) ' ')
  "    " ++ number ++ String.intercalate ("\n" ++ margin) (cause.splitOn "\n") ++ "\n"

def causesText (causes : List String) : String :=
  match causes with
  | [cause] => causeText "" cause
  | causes => String.join (causes.zipIdx.map fun c => causeText (toString c.2 ++ ": ") c.1)

def message (e : StartupError) : String :=
  match e with
  | .usage e => e.message
  | e =>
    let (head, causes) := e.chain
    "Error: " ++ head ++ "\n\nCaused by:\n" ++ causesText causes

def code : StartupError → Nat
  | usage _ => 2
  | _ => 1

end StartupError

structure Gateway where
  config : GatewayConfig
  client : Client
  bound : SocketAddress

/-- What a start needs of the machine it happens on: files, the date, and sockets. -/
structure Host (m : Type → Type) extends FileSystem m where
  date : m String
  bind : String → m (Except SourceError SocketAddress)

def Files.host : Host (StateM Files) where
  toFileSystem := Files.system
  date := return "0000-00-00"
  bind address := return (FrameSource.bind address).map Prod.fst

inductive Startup where
  | answer (text : String)
  | failed (e : StartupError)
  | ready (g : Gateway)

namespace Startup

variable {m : Type → Type} [Monad m]

/-- Loads the configuration, opens the log, makes the client and binds the source of frames. -/
def prepare (host : Host m) (path : String) : ExceptT StartupError m Gateway := do
  let content ← host.read path
  let config ← liftExcept ((GatewayConfig.load path content).mapError (.config path))
  match LogFile.path? config.log (← host.date) with
  | some path =>
    let created ← (LogFile.create host.toFileSystem path : m (Except LogFile.Error Unit))
    liftExcept (created.mapError .log)
  | none => pure ()
  let client ← liftExcept ((Client.new (config.client CommandLine.version)).mapError .client)
  let bound ← host.bind config.bindAddress
  return ⟨config, client, ← liftExcept (bound.mapError .source)⟩
where
  liftExcept {α : Type} (e : Except StartupError α) : ExceptT StartupError m α :=
    ExceptT.mk (pure e)

def run (host : Host m) (arguments : List String) (fromEnv : Option String) : m Startup :=
  match CommandLine.parse arguments fromEnv with
  | .error e => pure (.failed (.usage e))
  | .ok .version => pure (.answer CommandLine.versionText)
  | .ok (.help long) => pure (.answer (CommandLine.helpText long fromEnv))
  | .ok (.run path) => do
    match ← (prepare host path).run with
    | .error e => return .failed e
    | .ok g => return .ready g

def exit : Startup → Nat × String × String
  | answer text => (0, text, "")
  | failed e => (e.code, "", e.message)
  | ready _ => (0, "", "")

end Startup

end IGate
