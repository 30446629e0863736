import Muduo.Lib.Outcome
import Muduo.Lib.System
import Muduo.Lib.Coupled
import Muduo.Lib.Rounds
import Muduo.Lib.Search
import Muduo.Lib.Vec
import Muduo.Lib.OrdSet
import Muduo.Lib.Condition
import Muduo.Lib.Format
import Muduo.Lib.Fields
import Muduo.Lib.Bytes
import Muduo.Lib.CInt
import Muduo.Lib.Calendar
import Muduo.Buffer.Model
import Muduo.Buffer.Wf
import Muduo.Buffer.Queue
import Muduo.Buffer.Wire
import Muduo.Buffer.RoundTrip
import Muduo.Buffer.ReadFd
import Muduo.Buffer.Size
import Muduo.Buffer.Search
import Muduo.Buffer.Storage
import Muduo.Net.Sockets
import Muduo.Net.Channel
import Muduo.Net.Acceptor
import Muduo.Net.Address
import Muduo.Connection.Model
import Muduo.Connection.System
import Muduo.Connection.Stream
import Muduo.Connection.Close
import Muduo.Connection.Interest
import Muduo.Connection.Threads
import Muduo.Connection.HighWater
import Muduo.Connection.Paced
import Muduo.Connection.Messages
import Muduo.Connection.Link
import Muduo.Connection.Transfer
import Muduo.Loop.Model
import Muduo.Loop.Functors
import Muduo.Loop.Wakeup
import Muduo.Loop.Owner
import Muduo.Loop.Thread
import Muduo.Loop.StartLoop
import Muduo.Loop.ThreadPool
import Muduo.Timers.Model
import Muduo.Timers.Ownership
import Muduo.Timers.Runs
import Muduo.Timers.Effects
import Muduo.Timers.Cancel
import Muduo.Timers.Threads
import Muduo.Timers.Batch
import Muduo.Timers.Expiry
import Muduo.Timers.Kept
import Muduo.Timers.Armed
import Muduo.Poller.Model
import Muduo.Poller.Slots
import Muduo.Poller.EPoll
import Muduo.Poller.Reuse
import Muduo.Poller.Poll
import Muduo.Poller.Agree
import Muduo.Poller.Teardown
import Muduo.Poller.Active
import Muduo.Dispatch.Model
import Muduo.Dispatch.Safety
import Muduo.Dispatch.Turn
import Muduo.Dispatch.Progress
import Muduo.Client.Connector
import Muduo.Client.Sockets
import Muduo.Client.Attempts
import Muduo.Client.TcpClient
import Muduo.Client.Lifecycle
import Muduo.Client.Destruct
import Muduo.Client.Stop
import Muduo.Client.BackOff
import Muduo.Client.Names
import Muduo.Server.Model
import Muduo.Server.Table
import Muduo.Server.Destruct
import Muduo.Server.Start
import Muduo.Pool.Model
import Muduo.Pool.Wakeups
import Muduo.Pool.Stop
import Muduo.Pool.BlockingQueue
import Muduo.Date.Model
import Muduo.Date.JulianDay
import Muduo.Date.Texts
