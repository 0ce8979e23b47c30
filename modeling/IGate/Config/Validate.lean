import IGate.Config.Shape
import IGate.Failure
import IGate.SocketAddress
import IGate.Text.Utf8
import IGate.Toml.Document

/-! Which configurations can be used, and why another cannot. -/

namespace IGate

/-- The first value that cannot be used. -/
inductive Fault where
  | emptyCallsign
  | emptyServer
  | zeroServerPort
  | emptyPassword
  | emptyClientName
  | emptyFileRoot
  | zeroPort
  | badForwardAddress (address : String)
  deriving DecidableEq

def Fault.message : Fault → String
  | emptyCallsign => "general.callsign must not be empty"
  | emptyServer => "aprs_is.server must not be empty"
  | zeroServerPort => "aprs_is.port must be non-zero"
  | emptyPassword => "aprs_is.password must not be empty"
  | emptyClientName => "aprs_is.client_name must not be empty"
  | emptyFileRoot => "log.file_root must not be empty when log.file_path is set"
  | zeroPort => "network.port must be non-zero"
  | badForwardAddress address =>
    "network.forward_address " ++ Text.quote address ++ " is not an ip:port pair"

inductive ConfigError where
  | io (path : String) (e : IoError)
  | malformed (report : Toml.Report)
  | shape (e : ShapeError) (report : Toml.Report)
  | invalid (fault : Fault)
  deriving DecidableEq

namespace ConfigError

def message : ConfigError → String
  | io path e => "I/O error accessing config at " ++ path ++ ": " ++ e.message
  | malformed report | shape _ report => "failed to parse config TOML: " ++ report.text
  | invalid fault => "invalid configuration: " ++ fault.message

def cause? : ConfigError → Option String
  | io _ e => some e.message
  | malformed report | shape _ report => some report.text
  | invalid _ => none

end ConfigError

namespace GatewayConfig

def forwardTarget (c : GatewayConfig) : Option SocketAddress :=
  c.localSide.forwardAddress.bind SocketAddress.parse?

def badForward? (c : GatewayConfig) : Option String :=
  c.localSide.forwardAddress.filter fun a => (SocketAddress.parse? a).isNone

def fault? (c : GatewayConfig) : Option Fault :=
  if Text.trim c.station.callsign = "" then some .emptyCallsign
  else if Text.trim c.server.server = "" then some .emptyServer
  else if c.server.port = 0 then some .zeroServerPort
  else if c.server.password = "" then some .emptyPassword
  else if Text.trim c.server.clientName = "" then some .emptyClientName
  else if c.log.directory.isSome ∧ Text.trim c.log.fileRoot = "" then some .emptyFileRoot
  else if c.localSide.port = 0 then some .zeroPort
  else c.badForward?.map .badForwardAddress

def validate (c : GatewayConfig) : Except ConfigError Unit :=
  match c.fault? with
  | some fault => .error (.invalid fault)
  | none => .ok ()

def ofToml (document : String) : Except ConfigError GatewayConfig :=
  match Toml.parse document with
  | .error report => .error (.malformed report)
  | .ok root =>
    match Shape.gateway root with
    | .error e => .error (.shape e.value ⟨document, e.span, e.value.message⟩)
    | .ok c => c.validate.map fun _ => c

def notUtf8 : IoError := .described .invalidData "stream did not contain valid UTF-8"

/-- Reads and checks the content of the file at `path`, or tells why there is none. -/
def load (path : String) (content : Except IoError Bytes) : Except ConfigError GatewayConfig :=
  match content with
  | .error e => .error (.io path e)
  | .ok bytes =>
    match Utf8.decode? bytes with
    | none => .error (.io path notUtf8)
    | some document => ofToml document

end GatewayConfig

end IGate
