import FlockwaveConn.Machinery.Transition
import FlockwaveConn.Connections.Base
import FlockwaveConn.Connections.Invariant
import FlockwaveConn.Connections.Exclusive
import FlockwaveConn.Connections.Stranded
import FlockwaveConn.Connections.History
import FlockwaveConn.Connections.Honest
import FlockwaveConn.Connections.Receivers
import FlockwaveConn.Listeners.Base
import FlockwaveConn.Supervision.Loop
import FlockwaveConn.Supervision.Teardown
import FlockwaveConn.Supervision.Removed
import FlockwaveConn.Supervision.Supervisor
import FlockwaveConn.Supervision.Commands
import FlockwaveConn.Supervision.Policy
import FlockwaveConn.Connections.UDPListener
import FlockwaveConn.Connections.Broadcast
import FlockwaveConn.Channels.Message
import FlockwaveConn.Channels.OverUDP
import FlockwaveConn.Channels.Delivery
import FlockwaveConn.Middleware.Base
import FlockwaveConn.Middleware.ReadOnly
import FlockwaveConn.Middleware.Hexdump
import FlockwaveConn.Machinery.FutureMap
import FlockwaveConn.Channels.Rpc.Peer
import FlockwaveConn.Channels.Rpc.Pending
import FlockwaveConn.Channels.Rpc.Matching
import FlockwaveConn.Channels.Rpc.Network
import FlockwaveConn.Channels.Rpc.Deadlock
import FlockwaveConn.Middleware.Logging
import FlockwaveConn.Connections.Session
import FlockwaveConn.Connections.TaskConnection
import FlockwaveConn.Connections.TaskRuns
import FlockwaveConn.Listeners.Trio
import FlockwaveConn.Listeners.Session
import FlockwaveConn.Listeners.ScheduledClose
import FlockwaveConn.Listeners.LostTask
import FlockwaveConn.Channels.Rpc.Wire
import FlockwaveConn.Connections.Servers
import FlockwaveConn.Supervision.Attempts
import FlockwaveConn.Supervision.Renewal
import FlockwaveConn.Supervision.Isolation
import FlockwaveConn.Connections.Loopback
import FlockwaveConn.Connections.Sequential
import FlockwaveConn.Connections.Stream
import FlockwaveConn.Connections.File
import FlockwaveConn.Connections.Process
import FlockwaveConn.Machinery.Text
import FlockwaveConn.Machinery.Urllib
import FlockwaveConn.Factory.Specification
import FlockwaveConn.Factory.RoundTrip
import FlockwaveConn.Factory.Create
import FlockwaveConn.Factory.BareName
import FlockwaveConn.Factory.Query
import FlockwaveConn.Machinery.Hexadecimal
import FlockwaveConn.Machinery.Fnmatch
import FlockwaveConn.Connections.Serial
import FlockwaveConn.Connections.FailedOpening
import FlockwaveConn.Connections.Capabilities
import FlockwaveConn.Connections.Datagrams
import FlockwaveConn.Connections.ReadError
import FlockwaveConn.Supervision.PolicyError
import FlockwaveConn.Supervision.Entries
import FlockwaveConn.Connections.UnixSocket
import FlockwaveConn.Channels.Lossy
import FlockwaveConn.Connections.DeviceSelection
import FlockwaveConn.Connections.SerialAddress
import FlockwaveConn.Connections.ThreadedSerial
import FlockwaveConn.Connections.FileHandle
import FlockwaveConn.Channels.Rpc.Remote
import FlockwaveConn.Channels.Encoder
import FlockwaveConn.Factory.Use
import FlockwaveConn.Middleware.Restore
import FlockwaveConn.Channels.Rpc.Session
import FlockwaveConn.Channels.Rpc.Ledger
import FlockwaveConn.Channels.Consumers
import FlockwaveConn.Channels.Framing
import FlockwaveConn.Middleware.Stack
import FlockwaveConn.Connections.OneShot
import FlockwaveConn.Middleware.Transcript
import FlockwaveConn.Connections.UnixThreads
import FlockwaveConn.Supervision.Persistence
import FlockwaveConn.Connections.SerialReading
import FlockwaveConn.Channels.Rpc.Duplex
