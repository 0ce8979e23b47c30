import IGate.Client.Settings

/-! The configuration of the gateway. -/

namespace IGate

/-- The station, and whether outbound frames are dumped. -/
structure StationConfig where
  callsign : String
  debug : Bool
  deriving DecidableEq

/-- The log: its filter, and the directory, name and rotation of a file. -/
structure LogConfig where
  level : String
  directory : Option String
  fileRoot : String
  rotate : Bool
  deriving DecidableEq

structure ServerConfig where
  server : String
  port : UInt16
  password : String
  clientName : String
  filter : Option String
  deriving DecidableEq

/-- Where local frames come from and where lines of the server go. -/
structure LocalConfig where
  address : String
  port : UInt16
  forwardAddress : Option String
  deriving DecidableEq

structure GatewayConfig where
  station : StationConfig
  log : LogConfig
  server : ServerConfig
  localSide : LocalConfig
  deriving DecidableEq

namespace GatewayConfig

def defaultLevel : String := "info"

def defaultFileRoot : String := "aprs-gateway"

def defaultBindAddress : String := "127.0.0.1"

def defaultLog : LogConfig := ⟨defaultLevel, none, defaultFileRoot, false⟩

def client (c : GatewayConfig) (version : String) : ClientConfig :=
  { ClientConfig.withDefaults c.server.server c.server.port c.station.callsign c.server.password
      version with
    clientName := c.server.clientName
    filter := c.server.filter
    debug := c.station.debug }

def bindAddress (c : GatewayConfig) : String :=
  c.localSide.address ++ ":" ++ toString c.localSide.port.toNat

end GatewayConfig

end IGate
