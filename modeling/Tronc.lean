import Tronc.Library.Transition
import Tronc.Library.Retain
import Tronc.Library.Mpsc
import Tronc.Library.CancelTree
import Tronc.Library.Base64
import Tronc.Library.Text
import Tronc.Library.Keyset
import Tronc.Mcp.RoundTrip
import Tronc.Mcp.Pagination
import Tronc.Json
import Tronc.Tasks.Store
import Tronc.Tasks.Manager
import Tronc.Tasks.Step
import Tronc.Tasks.Lifecycle
import Tronc.Tasks.Finality
import Tronc.Tasks.Registry
import Tronc.Tasks.Input
import Tronc.Tasks.Answering
import Tronc.Tasks.Cancellation
import Tronc.Tasks.ApplyInput
import Tronc.Tasks.Wire
import Tronc.Tools.Consistency
import Tronc.Sessions.Bounds
import Tronc.Sessions.Advance
import Tronc.Sessions.Busy
import Tronc.Mcp.Encoding
import Tronc.Mcp.Gateway
import Tronc.Mcp.Modern
import Tronc.Mcp.Isolation
import Tronc.Mcp.Completions
import Tronc.Mcp.ServerRequests
import Tronc.Mcp.Panics
import Tronc.HttpClient.FirstHop
import Tronc.HttpClient.Embeddings
import Tronc.HttpClient.Allowlist
import Tronc.Notifications.Dispatcher
import Tronc.Notifications.Limits
import Tronc.Notifications.Slack
import Tronc.Secrets.Tokens
import Tronc.Notify.Dedup
import Tronc.Notify.Batches
import Tronc.Iam.Answers
import Tronc.Mcp.Eras
import Tronc.Mcp.Challenge
import Tronc.Mcp.Shapes
import Tronc.Mcp.SchemaRoundTrip
import Tronc.Mcp.Accept
import Tronc.Mcp.Origins
import Tronc.Mcp.DialedHosts
import Tronc.Mcp.Capture
import Tronc.Notify.Mrkdwn
import Tronc.Secrets.Bytes
import Tronc.ServiceClient.Classified
import Tronc.Mcp.Handshake
import Tronc.Mcp.Mirroring
import Tronc.Iam.Refresh
import Tronc.Server.RequestIds
import Tronc.ServiceClient.Calls
import Tronc.Mcp.Discipline
import Tronc.Mcp.Reach
import Tronc.Notify.Context
import Tronc.Mcp.ContentTrip
import Tronc.Mcp.Asked
import Tronc.Notifications.Mailed
import Tronc.Notifications.Captures
import Tronc.Mcp.Traceparent
import Tronc.Mcp.Discovery
import Tronc.Notifications.Uploads
import Tronc.Secrets.Environment
