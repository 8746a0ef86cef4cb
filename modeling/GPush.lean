import GPush.LoopBuf.Core
import GPush.Connection.Flush
import GPush.Connection.Close
import GPush.ConnectServer.Push
import GPush.ConnectServer.TypeMap
import GPush.EventLoop.Operators
import GPush.EventLoop.Timers
import GPush.Discovery.ServerStatus
import GPush.Discovery.ZkWatcher.Awake
import GPush.ConnectServer.Login
import GPush.PushServer.Links
import GPush.SessCache.Race
import GPush.ClientSdk.EventLoop
import GPush.PushServer.Acknowledge
import GPush.PushServer.SessionId
import GPush.ClientSdk.OpQueue
import GPush.ClientSdk.Timers
import GPush.ClientSdk.Turns
import GPush.ClientSdk.Send
import GPush.Connection.Stream
import GPush.PushServer.ListenCon
import GPush.ClientSdk.Close
import GPush.ClientSdk.Destroy
import GPush.ClientSdk.Grammar
import GPush.ConnectServer.Refusal
import GPush.ClientSdk.Header
import GPush.LoopBuf.Termination
import GPush.Connection.StaleErrno
import GPush.EventLoop.Firing
import GPush.ConnectServer.Dispatch
import GPush.Connection.Client
import GPush.PushServer.Sockets
import GPush.PushServer.Overlap
import GPush.EventLoop.Stop
import GPush.ClientSdk.Stop
import GPush.Discovery.Connecting
import GPush.Config.Loader
import GPush.ConnectServer.Leftover
import GPush.EventLoop.Answers
import GPush.ConnectServer.Alive
import GPush.PushServer.Uncaught
import GPush.Codec.Grammar
import GPush.Crypt.RoundTrip
import GPush.Crypt.Hostile
import GPush.Redis.Client
import GPush.Redis.Cache
import GPush.Redis.Arguments
import GPush.Discovery.ServerNode
import GPush.EventLoop.Batch
import GPush.ClientSdk.Fifo
import GPush.ClientSdk.TimerList
import GPush.ClientSdk.OpCounts
import GPush.Utility.Trim
import GPush.Utility.ThreadPool
import GPush.Utility.FileAppender
import GPush.Discovery.ZkPath
import GPush.Discovery.DataWatcher
import GPush.PushServer.Advertised
import GPush.PushServer.Published
import GPush.Crypt.Primitives
import GPush.Json.Strings
