import IGate.Login
import IGate.Duration
import IGate.Queue

/-! What a client is made from, and what it keeps of that once it has been checked. -/

namespace IGate

def defaultServerPort : UInt16 := 14580

def defaultClientName : String := "APRSGateway"

def defaultTimeout : Duration := Duration.ofSeconds 10

structure ClientConfig where
  server : String
  port : UInt16
  callsign : String
  passcode : String
  clientName : String
  version : String
  filter : Option String
  debug : Bool
  readTimeout : Duration
  pollTimeout : Duration
  queueCapacity : UInt64
  deriving DecidableEq

inductive ClientConfigError where
  | credentials (e : CredentialsError)
  | emptyServer
  | invalidPort
  | emptyClientName
  deriving DecidableEq

def ClientConfigError.message : ClientConfigError → String
  | credentials e => "invalid credentials: " ++ e.message
  | emptyServer => "server address must not be empty"
  | invalidPort => "server port must be non-zero"
  | emptyClientName => "client name must not be empty"

/-- A checked configuration. -/
structure Settings where
  address : String
  login : Login
  debug : Bool
  readTimeout : Duration
  pollTimeout : Duration
  deriving DecidableEq

namespace ClientConfig

/-- Ten seconds for each wait, the default name and queue, no filter and no dumps. -/
def withDefaults (server : String) (port : UInt16) (callsign passcode version : String) :
    ClientConfig where
  server := server
  port := port
  callsign := callsign
  passcode := passcode
  clientName := defaultClientName
  version := version
  filter := none
  debug := false
  readTimeout := defaultTimeout
  pollTimeout := defaultTimeout
  queueCapacity := defaultCapacity

def address (c : ClientConfig) : String := Text.trim c.server ++ ":" ++ toString c.port.toNat

/-- The first fault counts: of the credentials, the server, its port, the client name. -/
def settings (c : ClientConfig) : Except ClientConfigError Settings :=
  match Credentials.new c.callsign c.passcode with
  | .error e => .error (.credentials e)
  | .ok credentials =>
    if Text.trim c.server = "" then .error .emptyServer
    else if c.port = 0 then .error .invalidPort
    else if Text.trim c.clientName = "" then .error .emptyClientName
    else .ok {
      address := c.address
      login := ⟨credentials, Text.trim c.clientName, c.version, c.filter⟩
      debug := c.debug
      readTimeout := c.readTimeout
      pollTimeout := c.pollTimeout }

end ClientConfig

end IGate
