import IGate.Client.Interleaving
import IGate.Proofs.Buffering
import IGate.Proofs.Client.Attempt
import IGate.Proofs.Client.Batching
import IGate.Proofs.Client.Consistency
import IGate.Proofs.Client.Conversation
import IGate.Proofs.Client.Datagrams
import IGate.Proofs.Client.Delay
import IGate.Proofs.Client.Forwarding
import IGate.Proofs.Client.Inbound
import IGate.Proofs.Client.Interleaved
import IGate.Proofs.Client.Messages
import IGate.Proofs.Client.Outbound
import IGate.Proofs.Client.Passcode
import IGate.Proofs.Client.Stop
import IGate.Proofs.Client.WorkedOff
import IGate.Proofs.Countdown.History
import IGate.Proofs.Datagram
import IGate.Proofs.HexDump
import IGate.Proofs.Line
import IGate.Proofs.LineLimit
import IGate.Proofs.Login.Callsign
import IGate.Proofs.Login.Fields
import IGate.Proofs.Queue.Fifo
import IGate.Proofs.ReadBack
import IGate.Proofs.Reading
import IGate.Proofs.Relay.Offers
import IGate.LineStream.Scripted
import IGate.Main
import IGate.Session.Script
import IGate.Toml.Report
import IGate.Toml.Table
