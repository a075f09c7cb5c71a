import TurboNet.Common.Bytes
import TurboNet.Common.Lists
import TurboNet.Common.Machine
import TurboNet.Common.ExactReader
import TurboNet.Common.Outbox
import TurboNet.Common.Timer
import TurboNet.Common.Table
import TurboNet.Common.TimedOp
import TurboNet.Common.WriteQueue
import TurboNet.Common.Pipe
import TurboNet.Common.Locks
import TurboNet.Common.LockRules
import TurboNet.Common.LockOrder
import TurboNet.Common.Baton
import TurboNet.Common.Races
import TurboNet.Common.Critical
import TurboNet.Common.Chunks
import TurboNet.Common.Counter
import TurboNet.Wire.Frame
import TurboNet.Server.Session
import TurboNet.Server.Authentication
import TurboNet.Server.Output
import TurboNet.Server.Accept
import TurboNet.Server.Stop
import TurboNet.Client.Sender
import TurboNet.Client.Responses
import TurboNet.Client.Client
import TurboNet.Client.SendPath
import TurboNet.Client.ReadLoop
import TurboNet.Client.Rounds
import TurboNet.Client.ResponseTimeouts
import TurboNet.Client.ResponseSweep
import TurboNet.Client.Lifecycle
import TurboNet.Link.Framing
import TurboNet.Link.Receiving
import TurboNet.Link.Conversation
import TurboNet.Link.Arrival
import TurboNet.Link.FirstRequest
import TurboNet.Link.Unbound
import TurboNet.Gateway.Gateway
import TurboNet.Gateway.Routing
import TurboNet.Gateway.Downstream
import TurboNet.Gateway.Deployment
import TurboNet.Asio.Packet
import TurboNet.Asio.PacketReader
import TurboNet.Asio.Chunking
import TurboNet.Asio.Server
import TurboNet.Asio.Dispatch
import TurboNet.Asio.UserDispatch
import TurboNet.Asio.TimeoutCallbacks
import TurboNet.Asio.ServerSockets
import TurboNet.Asio.Registry
import TurboNet.Asio.Client
import TurboNet.Asio.SweepPeriod
import TurboNet.Asio.SyncRequest
import TurboNet.Asio.Requests
import TurboNet.Asio.LifeCycle
import TurboNet.Asio.ClientSocket
import TurboNet.Asio.ClientReads
import TurboNet.Asio.ClientWrites
import TurboNet.Asio.WriteOrder
import TurboNet.Asio.FastResponse
import TurboNet.Asio.RequestFates
import TurboNet.Asio.TimeoutSweep
import TurboNet.Asio.Link
import TurboNet.Asio.Decoding
import TurboNet.Asio.SocketStreams
import TurboNet.Asio.ByteLink
import TurboNet.Asio.Delivery
import TurboNet.Asio.Answers
import TurboNet.Asio.Echo
import TurboNet.Asio.ReturnValue
import TurboNet.Asio.Locks
import TurboNet.Asio.Deadlock
import TurboNet.Asio.Races
import TurboNet.Asio.ThreadedSweep
import TurboNet.Qwen.PacketStream
import TurboNet.Qwen.Server
import TurboNet.Qwen.Accounting
import TurboNet.Qwen.Verdicts
import TurboNet.Qwen.Idle
import TurboNet.Qwen.Deadlock
import TurboNet.Qwen.Races
import TurboNet.Qwen.Iterators
import TurboNet.Smpp.Framing
import TurboNet.Smpp.Session
import TurboNet.Smpp.Correlation
import TurboNet.Smpp.Timeouts
import TurboNet.Smpp.Batch
import TurboNet.Smpp.RoundTrip
import TurboNet.Epoll.ThreadPool
import TurboNet.Epoll.Connection
import TurboNet.Epoll.BufferBounds
import TurboNet.Epoll.EdgeTriggered
import TurboNet.Epoll.Server
