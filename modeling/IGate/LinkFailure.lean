import IGate.Duration
import IGate.Failure

/-! How an attempt to connect fails, and how a connection is lost. -/

namespace IGate

/-- The line that is awaited while logging in. -/
inductive Stage where
  | banner
  | acknowledgement
  deriving DecidableEq

def Stage.name : Stage → String
  | .banner => "login banner"
  | .acknowledgement => "login acknowledgement"

inductive LinkFailure where
  | connect (address : String) (e : IoError)
  | connectTimeout (address : String) (timeout : Duration)
  | noReply (stage : Stage) (timeout : Duration)
  | handshakeRead (stage : Stage) (e : IoError)
  | handshakeWrite (e : IoError)
  | transport (e : IoError)
  deriving DecidableEq

def LinkFailure.message : LinkFailure → String
  | connect address e => "could not connect to " ++ address ++ ": " ++ e.message
  | connectTimeout address timeout =>
    "connecting to " ++ address ++ " timed out after " ++ timeout.text
  | noReply stage timeout =>
    "no " ++ stage.name ++ " from the APRS-IS server after " ++ timeout.text
  | handshakeRead stage e =>
    "error reading the " ++ stage.name ++ " from the APRS-IS server: " ++ e.message
  | handshakeWrite e => "error sending the login line: " ++ e.message
  | transport e => "connection to the APRS-IS server failed: " ++ e.message

end IGate
