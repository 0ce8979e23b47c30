import IGate.Countdown
import IGate.HexDump
import IGate.LinkFailure
import IGate.Queue
import IGate.Relay.Basic

/-! What the gateway tells its log. -/

namespace IGate

inductive Level where
  | error | warn | info | debug
  deriving DecidableEq

def Level.name : Level → String
  | error => "error"
  | warn => "warn"
  | info => "info"
  | debug => "debug"

inductive Notice where
  | writerStarting (address : String)
  | writerStopped
  | connected (address : String)
  | attemptFailed (e : LinkFailure)
  | attemptAbandoned
  | linkLost (e : LinkFailure)
  | reconnectIn (minutes : Nat)
  | banner (line : String)
  | loginReply (line : String)
  | unverified
  | comment (line : String)
  | sinkPanicked (line : String)
  | frameRefused (why : Refusal)
  | dump (text : String)
  | discarded (count : Nat)
  | relayStarted
  | uplinkRefused (length : Nat)
  | sourceFailed (e : SourceError)
  | relayStopped (counts : RelayCounts)
  | listening (address : String)
  | oversized (sender : String)
  | received (length : Nat) (sender : String)
  | forwarding (target : String)
  | forwardFailed (target : String) (e : IoError)
  | gatewayStarting (version : String)
  | shutdownRequested
  | gatewayStopped (version : String)
  deriving DecidableEq

namespace Notice

def level : Notice → Level
  | attemptFailed _ | linkLost _ | sinkPanicked _ => .error
  | unverified | sourceFailed _ | oversized _ | forwardFailed _ _ => .warn
  | comment _ | frameRefused _ | dump _ | uplinkRefused _ | received _ _ => .debug
  | _ => .info

def message : Notice → String
  | writerStarting address => "starting the APRS-IS writer for " ++ address
  | writerStopped => "stopped the APRS-IS writer"
  | connected address => "connected to the APRS-IS server " ++ address
  | attemptFailed e => "connect attempt to the APRS-IS server failed: " ++ e.message
  | attemptAbandoned => "connect attempt abandoned on shutdown"
  | linkLost e => e.message
  | reconnectIn minutes => "will attempt to reconnect in " ++ toString minutes ++ " minute(s)"
  | banner line => "received login banner: " ++ line
  | loginReply line => "response from the APRS-IS server: " ++ line
  | unverified => "APRS-IS login is unverified; frames will not be gated by the server"
  | comment line => "APRS-IS server: " ++ line
  | sinkPanicked line => "read callback panicked while handling: " ++ line
  | frameRefused why => "outbound frame refused: " ++ why.message
  | dump text => text
  | discarded count => "discarded " ++ toString count ++ " queued frame(s) on shutdown"
  | relayStarted => "relay started"
  | uplinkRefused length => "uplink refused a " ++ toString length ++ " byte frame"
  | sourceFailed e => "local frame source error: " ++ e.message
  | relayStopped counts => "relay stopped: " ++ counts.text
  | listening address => "listening for local frames on UDP " ++ address
  | oversized sender =>
    "dropping oversized frame from " ++ sender ++ ": more than " ++ toString maxFrameLength ++
      " bytes"
  | received length sender =>
    "received " ++ toString length ++ " byte frame from " ++ sender
  | forwarding target => "forwarding APRS-IS lines to UDP " ++ target
  | forwardFailed target e =>
    "failed to forward APRS-IS line to " ++ target ++ ": " ++ e.message
  | gatewayStarting version => "APRS gateway " ++ version ++ " is starting"
  | shutdownRequested => "shutdown requested"
  | gatewayStopped version => "APRS gateway " ++ version ++ " has stopped"

end Notice

def Backoff.notices (b : Backoff) : Backoff.Action → List Notice
  | .fail => [.reconnectIn b.attempts]
  | _ => []

def HexDump.notices (title : String) (data : Bytes) : List Notice :=
  .dump title :: (HexDump.rows data).map .dump

end IGate
