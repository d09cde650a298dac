import HttpCerver.Core.Iteration
import HttpCerver.Core.Search
import HttpCerver.Core.Delimited
import HttpCerver.Core.Framed
import HttpCerver.Core.Trim
import HttpCerver.Core.Traces
import HttpCerver.Core.Records
import HttpCerver.Core.Queues
import HttpCerver.Core.Resuming
import HttpCerver.Core.Walk
import HttpCerver.Core.Programs
import HttpCerver.Core.Machines
import HttpCerver.Runtime.Bytes
import HttpCerver.Runtime.Numerals
import HttpCerver.Runtime.Memory
import HttpCerver.Runtime.System
import HttpCerver.Runtime.Descriptors
import HttpCerver.Config
import HttpCerver.Config.Numbers
import HttpCerver.Config.Options
import HttpCerver.Parse.Request
import HttpCerver.Parse.Grammar
import HttpCerver.Parse.Boundary
import HttpCerver.Parse.Encoding
import HttpCerver.Parse.Lines
import HttpCerver.Parse.Limits
import HttpCerver.Parse.Spelling
import HttpCerver.Parse.Arrays
import HttpCerver.Parse.Bounds
import HttpCerver.Parse.HeaderBounds
import HttpCerver.Server.File
import HttpCerver.Server.Resolution
import HttpCerver.Server.Sending
import HttpCerver.Server.Response
import HttpCerver.Server.Delivery
import HttpCerver.Server.Connection
import HttpCerver.Server.Http
import HttpCerver.Server.ArrayBounds
import HttpCerver.Server.Framing
import HttpCerver.Server.ContentLength
import HttpCerver.Server.Controls
import HttpCerver.Server.Answers
import HttpCerver.Server.Paths
import HttpCerver.Server.Exchange
import HttpCerver.Server.ForkServer
import HttpCerver.Server.Sessions
import HttpCerver.Server.Buffering
import HttpCerver.Server.Growth
import HttpCerver.Stream.Reference
import HttpCerver.Stream.Bodies
import HttpCerver.Stream.Client
import HttpCerver.Stream.Replies
import HttpCerver.Stream.Startup
import HttpCerver.Stream.Fate
import HttpCerver.Stream.HeadRequests
import HttpCerver.Stream.Ownership
import HttpCerver.Stream.Respelling
import HttpCerver.Stream.Resumption
import HttpCerver.Stream.ErrorPaths
import HttpCerver.Stream.Draining
import HttpCerver.Stream.Closing
import HttpCerver.Stream.Containment
import HttpCerver.Stream.NotFound
import HttpCerver.Stream.ContentType
import HttpCerver.Stream.Pipelining
import HttpCerver.Stream.Rendering
import HttpCerver.Stream.Raising
import HttpCerver.Stream.Secrecy
import HttpCerver.Stream.IndexFiles
import HttpCerver.Stream.Truncation
import HttpCerver.Stream.Reading
import HttpCerver.Stream.Spares
import HttpCerver.Process.Calls
import HttpCerver.Process.Listening
import HttpCerver.Process.Main
import HttpCerver.Process.Forking
import HttpCerver.Process.Protocol
import HttpCerver.Process.Visits
import HttpCerver.Process.Interleaving
import HttpCerver.Process.Service
import HttpCerver.Process.Reaping
import HttpCerver.Process.Progress
import HttpCerver.Process.Completion
import HttpCerver.Process.Opening
import HttpCerver.Process.Custody
import HttpCerver.Process.Isolation
import HttpCerver.Process.Order
import HttpCerver.Process.Availability
