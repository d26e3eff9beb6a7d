import CanMonitor.Library.Runs
import CanMonitor.Library.Locking
import CanMonitor.Library.Window
import CanMonitor.Library.Text
import CanMonitor.Library.Numeral
import CanMonitor.Library.StdString
import CanMonitor.Library.Cursor
import CanMonitor.Library.Names
import CanMonitor.Library.Entries
import CanMonitor.Library.Path
import CanMonitor.Library.Ledger
import CanMonitor.Library.Json
import CanMonitor.Library.JsonUnique
import CanMonitor.Can.FrameStore
import CanMonitor.Can.Polling
import CanMonitor.Can.Codec
import CanMonitor.Can.Statistics
import CanMonitor.Can.Receiver
import CanMonitor.Can.Runtime
import CanMonitor.Can.Monitoring
import CanMonitor.Can.Stopping
import CanMonitor.Http.Request
import CanMonitor.Http.Framing
import CanMonitor.Http.Whole
import CanMonitor.Http.Decoding
import CanMonitor.Http.EndOfStream
import CanMonitor.Http.HeaderCase
import CanMonitor.Http.Recovery
import CanMonitor.Http.ContentLength
import CanMonitor.Http.Response
import CanMonitor.Http.Delimiting
import CanMonitor.Connection.Json
import CanMonitor.Connection.Encoding
import CanMonitor.Connection.Routes
import CanMonitor.Connection.Checked
import CanMonitor.Connection.Query
import CanMonitor.Connection.Parameters
import CanMonitor.Connection.DocumentRoot
import CanMonitor.Connection.SendBody
import CanMonitor.Connection.Rendering
import CanMonitor.Connection.Output
import CanMonitor.Connection.System
import CanMonitor.Connection.WakeUp
import CanMonitor.Connection.Stream
import CanMonitor.Connection.Delivery
import CanMonitor.Connection.Pipelining
import CanMonitor.Connection.StaticFiles
import CanMonitor.Connection.Wire
import CanMonitor.Connection.Listening
import CanMonitor.EventLoop.Timer
import CanMonitor.EventLoop.System
import CanMonitor.EventLoop.Table
import CanMonitor.EventLoop.Identity
import CanMonitor.EventLoop.Timeout
import CanMonitor.EventLoop.Firing
import CanMonitor.EventLoop.ThreadPool
import CanMonitor.EventLoop.Lifecycle
import CanMonitor.QmlClient.Refresh
import CanMonitor.SseClient.Receive
import CanMonitor.SseClient.Summary
import CanMonitor.Service.System
import CanMonitor.Service.Telemetry
import CanMonitor.Service.Sending
import CanMonitor.Service.Streaming
import CanMonitor.Connection.Replies
import CanMonitor.Service.Counting
import CanMonitor.Service.Threads
import CanMonitor.EventLoop.Handlers
import CanMonitor.EventLoop.Overflow
import CanMonitor.EventLoop.Turns
import CanMonitor.Service.Calls
import CanMonitor.Service.Process
