import WsProto.Lib.Run
import WsProto.Lib.Simulation
import WsProto.Lib.Visit
import WsProto.Lib.Window
import WsProto.Lib.Meter
import WsProto.Lib.CondVar
import WsProto.Lib.Utf8
import WsProto.Lib.Decimal
import WsProto.Lib.JsNumber
import WsProto.Lib.Mailbox
import WsProto.Lib.Outbox
import WsProto.Lib.Dialogue
import WsProto.Lib.Emitter
import WsProto.Lib.Broadcast
import WsProto.Wire
import WsProto.Inbox
import WsProto.Drain
import WsProto.Go.Status
import WsProto.Go.Stream
import WsProto.Go.Mux
import WsProto.Go.Ops
import WsProto.Go.Flow.Link
import WsProto.Go.Flow.InOrder
import WsProto.Go.Flow.Conservation
import WsProto.Go.Flow.Delivery
import WsProto.Go.Inbound.Model
import WsProto.Go.Inbound.Complete
import WsProto.Go.Inbound.Exact
import WsProto.Go.Inbound.Stable
import WsProto.Go.Receive
import WsProto.Go.SendWait
import WsProto.Go.Handlers
import WsProto.Go.WriteContext
import WsProto.Go.ClientStreams
import WsProto.Go.Cancel
import WsProto.Go.StreamContext
import WsProto.Go.Serve
import WsProto.Go.Grammar
import WsProto.Go.Isolation
import WsProto.Go.Ids
import WsProto.Go.Pipe
import WsProto.Go.Control
import WsProto.Go.Ownership
import WsProto.Go.StreamCap
import WsProto.Go.Backlog
import WsProto.Go.Reconnect
import WsProto.Lib.Binary64
import WsProto.Go.Backoff
import WsProto.Go.Keepalive
import WsProto.Go.Stats
import WsProto.Go.ConnLoss.Model
import WsProto.Go.ConnLoss.Books
import WsProto.Go.ConnLoss.Code
import WsProto.Go.Bridge.Model
import WsProto.Go.Bridge.Reply
import WsProto.Go.Bridge.Agree
import WsProto.Go.Bridge.Metadata
import WsProto.Ts.Stream
import WsProto.Ts.Queue
import WsProto.Ts.Terminal
import WsProto.Ts.Mux
import WsProto.Ts.Receive
import WsProto.Ts.Registry
import WsProto.Ts.Turns
import WsProto.Ts.Ledger
import WsProto.Ts.HalfClose
import WsProto.Ts.Backlog
import WsProto.Ts.ReadSide
import WsProto.Ts.StreamTerminal
import WsProto.Ts.Transport.Model
import WsProto.Ts.Transport.Notice
import WsProto.Ts.Transport.Timers
import WsProto.Ts.Transport.Events
import WsProto.Ts.Transport.Steady
import WsProto.Ts.Transport.Phases
import WsProto.Ts.Transport.Resume
import WsProto.Ts.Transport.Backoff
import WsProto.Ts.Transport.Listeners
import WsProto.Ts.WireGrammar
import WsProto.Deadline
import WsProto.Ts.CallGuards
import WsProto.Agree.Flow
import WsProto.Go.Credit
import WsProto.Agree.Received
import WsProto.Agree.SingleResponse
import WsProto.Agree.UnaryCall
import WsProto.Agree.MixedLink.Model
import WsProto.Agree.MixedLink.Simulation
import WsProto.Agree.MixedLink.Results
import WsProto.Agree.MixedLink.Progress
import WsProto.Agree.Dispatch
import WsProto.Agree.Cancellation
import WsProto.Go.Inbound.FromClient
import WsProto.Agree.Upload
import WsProto.Agree.Download
import WsProto.Agree.Backlog
import WsProto.Agree.UnknownKind
import WsProto.Generator.Model
import WsProto.Generator.Imports
