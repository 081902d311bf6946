import JsonRpcClient.Ws.Pending
import JsonRpcClient.Ws.Notifications
import JsonRpcClient.Ws.Reconnect
import JsonRpcClient.Ws.StructuredParams
import JsonRpcClient.Ws.FrameEffect
import JsonRpcClient.Ws.Ranges
import JsonRpcClient.Core.Completeness
import JsonRpcClient.Core.Itemwise
import JsonRpcClient.Core.Layout
import JsonRpcClient.Http.Client
import JsonRpcClient.Concurrent.Sends
import JsonRpcClient.Ws.DrainOnce
import JsonRpcClient.Ws.SingleReply
import JsonRpcClient.Ws.Callers
import JsonRpcClient.Ws.Rpc
import JsonRpcClient.Http.Rpc
import JsonRpcClient.Ws.Echo
import JsonRpcClient.Ws.Timeouts
import JsonRpcClient.Core.IdSpace
import JsonRpcClient.Ws.Progress
