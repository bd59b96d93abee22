import Myoj.Net.Shutdown
import Myoj.Http.Refusal
import Myoj.Http.HeaderBlock
import Myoj.Http.Rendering
import Myoj.Judge.Earned
import Myoj.Oj.Authorship
import Myoj.Oj.ComesBack
import Myoj.Mysql.Ownership
import Myoj.Net.EpollPoller
import Myoj.Net.ActiveChannels
import Myoj.Net.EventLoopThread
import Myoj.Net.EventLoopThreadPool
import Myoj.Net.LoadWindow
import Myoj.Net.Handover
import Myoj.Net.EventLoop
import Myoj.Net.ByteQueue
import Myoj.Logger.Drain
import Myoj.Oj.ProblemCommands
import Myoj.Oj.Recorded
import Myoj.Timer.Wakeups
import Myoj.Timer.HandleRead
import Myoj.Timer.Lifetime
import Myoj.Net.Lifecycle
import Myoj.Net.Registration
import Myoj.Net.TcpServer
import Myoj.Net.ConnectionTable
import Myoj.Net.Deregistration
import Myoj.Lib.Rows
import Myoj.Oj.Documents
import Myoj.Oj.Databases
import Myoj.Oj.ProblemCache
import Myoj.Oj.CommentCounts
import Myoj.Oj.Accounts
import Myoj.Oj.Privilege
import Myoj.Oj.HiddenSolutions
import Myoj.Http.Response
import Myoj.Oj.UserModel
import Myoj.Oj.Statuses
import Myoj.Judge.Monitor
import Myoj.Oj.FirstAccepted
import Myoj.Net.Connector
import Myoj.Oj.Identifiers
import Myoj.Oj.ProblemData
import Myoj.Net.LineSearch
import Myoj.Base.WorkThreadPool
import Myoj.Mysql.Recycling
import Myoj.Logger.LogStream
import Myoj.Logger.FileUtil
import Myoj.Logger.Logging
import Myoj.Logger.LogFile
import Myoj.Oj.StatementLengths
import Myoj.Oj.SearchById
import Myoj.Lib.Pages
import Myoj.Oj.Pages
import Myoj.Http.Termination
import Myoj.Logger.Spares
import Myoj.Net.WriteInterest
import Myoj.Oj.Snowflake
import Myoj.Oj.Mutations
import Myoj.Oj.Sessions
import Myoj.Judge.Sandbox
import Myoj.Logger.Pipeline
import Myoj.Http.Conversation
import Myoj.Http.Exchange
import Myoj.Net.Payloads
import Myoj.Net.Reconnect
import Myoj.Mysql.Starvation
