import Thespian.Decoding.Basic
import Thespian.Decoding.Recursion
import Thespian.Decoding.BigEndian
import Thespian.Decoding.Frames
import Thespian.Decoding.Rounds
import Thespian.Decoding.CommandLine
import Thespian.Transition.Runs
import Thespian.Transition.Tickets
import Thespian.Concurrent.Chain
import Thespian.Concurrent.Mutex
import Thespian.Cbor.Buffer
import Thespian.Cbor.Decode
import Thespian.Cbor.Header
import Thespian.Cbor.SelfDelimiting
import Thespian.Cbor.Extract
import Thespian.Cbor.Match
import Thespian.Cbor.MatchSemantics
import Thespian.Cbor.MatchReturns
import Thespian.Cbor.WellFormed
import Thespian.Cbor.ToJson
import Thespian.Cbor.DecodersAgree
import Thespian.Cbor.PushJson
import Thespian.Cbor.JsonText
import Thespian.Cbor.PrintedLines
import Thespian.Cbor.JsonRoundTrip
import Thespian.Cbor.JsonBuffer
import Thespian.Cbor.JsonItems
import Thespian.Cbor.JsonReading
import Thespian.Cbor.JsonRenderings
import Thespian.Cbor.JsonStrings
import Thespian.Cbor.SkipRounds
import Thespian.Cbor.Iterate
import Thespian.Endpoint.Connection
import Thespian.Endpoint.ReadLoop
import Thespian.Endpoint.InvalidPeers
import Thespian.Endpoint.Closing
import Thespian.Socket.WriteQueue
import Thespian.Socket.Closing
import Thespian.Socket.UnixAcceptor
import Thespian.Socket.PathOwnership
import Thespian.Zig.Errors
import Thespian.Zig.DelayedSender
import Thespian.Zig.Subprocess
import Thespian.Zig.SubprocessStdin
import Thespian.Zig.SubprocessOutput
import Thespian.Zig.SubprocessFiles
import Thespian.Zig.CommandLine
import Thespian.Remote.Package
import Thespian.Remote.Protocol
import Thespian.Remote.Reference
import Thespian.Remote.Matching
import Thespian.Remote.Connection
import Thespian.Remote.Node
import Thespian.Remote.Proxy
import Thespian.Remote.System
import Thespian.Remote.Frames
import Thespian.Remote.Turns
import Thespian.Remote.ProxyTable
import Thespian.Remote.ProxyExits
import Thespian.Remote.TableInvariant
import Thespian.Remote.Inbound
import Thespian.Remote.Controls
import Thespian.Remote.Transparent
import Thespian.Remote.Reasons
import Thespian.Remote.Hops
import Thespian.Remote.Regular
import Thespian.Remote.RegularSteps
import Thespian.Remote.Dispatch
import Thespian.Remote.Network
import Thespian.Remote.Delivery
import Thespian.Remote.Exits
import Thespian.Remote.Notices
import Thespian.Remote.LinkSteps
import Thespian.Remote.LinkStages
import Thespian.Remote.LinkRuns
import Thespian.Remote.LinkReports
import Thespian.Runtime.Instance
import Thespian.Runtime.System
import Thespian.Runtime.Steps
import Thespian.Runtime.Moves
import Thespian.Runtime.Invariants
import Thespian.Runtime.Postal
import Thespian.Runtime.Named
import Thespian.Runtime.Exits
import Thespian.Runtime.Messages
import Thespian.Runtime.Termination
import Thespian.Runtime.ExitProcessing
import Thespian.Runtime.Links
import Thespian.Runtime.Mailbox
import Thespian.Runtime.Spawn
import Thespian.Runtime.Supervision
import Thespian.Runtime.Startup
import Thespian.Runtime.Forwarded
import Thespian.Runtime.Alarm
import Thespian.Runtime.Metronome
import Thespian.Endpoint.Reports
import Thespian.Endpoint.Acceptor
import Thespian.Endpoint.AcceptorRuns
import Thespian.Zig.Call
import Thespian.Zig.CallRuns
import Thespian.Hub.Receiver
import Thespian.Hub.Calls
import Thespian.Hub.Subscriptions
import Thespian.Hub.Survival
import Thespian.Hub.Unwrapping
import Thespian.Debug.Registry
import Thespian.Debug.Addressable
import Thespian.Debug.Taps
import Thespian.Console.Fields
import Thespian.Console.Connection
import Thespian.Console.Receive
import Thespian.Console.Lines
import Thespian.Console.Commands
import Thespian.Console.Reports
import Thespian.Console.Ledger
import Thespian.Console.Responses
import Thespian.Trace.Channels
import Thespian.Trace.File
import Thespian.Trace.FileSteps
import Thespian.Trace.FileOrder
import Thespian.Trace.FileRuns
import Thespian.Trace.Writers
