import InterceptingProxy.Address.HostPort
import InterceptingProxy.Address.IpAddr
import InterceptingProxy.Address.ServerName
import InterceptingProxy.Address.Uri
import InterceptingProxy.Call.Destination
import InterceptingProxy.Call.Destinations
import InterceptingProxy.Call.Handler
import InterceptingProxy.Call.Info
import InterceptingProxy.Call.Interceptor
import InterceptingProxy.Call.MessageStream
import InterceptingProxy.Call.Pool
import InterceptingProxy.Call.Relay
import InterceptingProxy.Certificate.Coverage
import InterceptingProxy.Certificate.Der
import InterceptingProxy.Certificate.KeyPair
import InterceptingProxy.Certificate.Pem
import InterceptingProxy.Certificate.PrivateKey
import InterceptingProxy.Certificate.X509
import InterceptingProxy.Config.Flags
import InterceptingProxy.Config.Options
import InterceptingProxy.Config.ServerConfig
import InterceptingProxy.Connection
import InterceptingProxy.Dialing.Dialer
import InterceptingProxy.Dialing.HttpProxy
import InterceptingProxy.Dialing.NoProxy
import InterceptingProxy.Dialing.Tunnel
import InterceptingProxy.Encoding.Base64
import InterceptingProxy.Encoding.Deflate
import InterceptingProxy.Encoding.Gzip
import InterceptingProxy.Encoding.Hex
import InterceptingProxy.Encoding.Percent
import InterceptingProxy.FileTree
import InterceptingProxy.Grpc.Frame
import InterceptingProxy.Grpc.Service
import InterceptingProxy.Grpc.Web
import InterceptingProxy.Header
import InterceptingProxy.Header.Forwarded
import InterceptingProxy.Header.HopByHop
import InterceptingProxy.Header.Via
import InterceptingProxy.Http.Cors
import InterceptingProxy.Http.Head
import InterceptingProxy.Http.Http1
import InterceptingProxy.Http.Http2
import InterceptingProxy.Http.Message
import InterceptingProxy.Http.Reason
import InterceptingProxy.Http.Request
import InterceptingProxy.Http.ReverseProxy
import InterceptingProxy.Intake.Bounce
import InterceptingProxy.Intake.Classify
import InterceptingProxy.Intake.Listener
import InterceptingProxy.Intake.Mux
import InterceptingProxy.Intake.Outbound
import InterceptingProxy.Intake.Serving
import InterceptingProxy.IoError
import InterceptingProxy.KeyLog
import InterceptingProxy.Main
import InterceptingProxy.Program
import InterceptingProxy.ProxyError
import InterceptingProxy.Relay
import InterceptingProxy.Router
import InterceptingProxy.Server
import InterceptingProxy.Sniff
import InterceptingProxy.Status
import InterceptingProxy.Stream
import InterceptingProxy.Text
import InterceptingProxy.Text.Duration
import InterceptingProxy.Text.Quoted
import InterceptingProxy.Text.Utf8
import InterceptingProxy.Proofs.Address.Hosts
import InterceptingProxy.Proofs.Address.Ports
import InterceptingProxy.Proofs.Certificate.HostnameGate
import InterceptingProxy.Proofs.Certificate.PairDetection
import InterceptingProxy.Proofs.Config.Composition
import InterceptingProxy.Proofs.Dialing.Attempts
import InterceptingProxy.Proofs.Dialing.Credentials
import InterceptingProxy.Proofs.Dialing.Exemptions
import InterceptingProxy.Proofs.Dialing.TunnelOpening
import InterceptingProxy.Proofs.Encoding.RoundTrips
import InterceptingProxy.Proofs.FileTree
import InterceptingProxy.Proofs.Header.Filtering
import InterceptingProxy.Proofs.Header.Loops
import InterceptingProxy.Proofs.Header.Marker
import InterceptingProxy.Proofs.Header.Removal
import InterceptingProxy.Proofs.Http.HeadPrefixes
import InterceptingProxy.Proofs.Http.RequestStart
import InterceptingProxy.Proofs.Intake.EarlyEnds
import InterceptingProxy.Proofs.Intake.Fates
import InterceptingProxy.Proofs.Intake.Looks
import InterceptingProxy.Proofs.Intake.Nesting
import InterceptingProxy.Proofs.Intake.Onward
import InterceptingProxy.Proofs.Intake.Requests
import InterceptingProxy.Proofs.Intake.Sniffing
import InterceptingProxy.Proofs.Interception.Chain
import InterceptingProxy.Proofs.Interception.Isolation
import InterceptingProxy.Proofs.Interception.Polls
import InterceptingProxy.Proofs.KeyLog
import InterceptingProxy.Proofs.Peeking
import InterceptingProxy.Proofs.PeekingOnce
import InterceptingProxy.Proofs.Pool.Alone
import InterceptingProxy.Proofs.Pool.Calls
import InterceptingProxy.Proofs.Pool.Entries
import InterceptingProxy.Proofs.Pool.SingleFlight
import InterceptingProxy.Proofs.Pool.Turns
import InterceptingProxy.Proofs.RawRelay
import InterceptingProxy.Proofs.RawRelay.Interleaving
import InterceptingProxy.Proofs.Relay.Delivery
import InterceptingProxy.Proofs.Relay.Fidelity
import InterceptingProxy.Proofs.Relay.Forwarding
import InterceptingProxy.Proofs.Relay.LastItem
import InterceptingProxy.Proofs.Relay.Steps
import InterceptingProxy.Proofs.Routing.Calls
import InterceptingProxy.Proofs.Routing.Departures
import InterceptingProxy.Proofs.Routing.Dials
import InterceptingProxy.Proofs.Routing.Marks
import InterceptingProxy.Proofs.Routing.ReturningCalls
import InterceptingProxy.Proofs.Routing.Security
import InterceptingProxy.Proofs.Text.Cutting
import InterceptingProxy.Proofs.Text.Trimming
import InterceptingProxy.Proofs.Text.Utf8
import InterceptingProxy.Proofs.Text.Visible
import InterceptingProxy.Proofs.Wrapping
import InterceptingProxy.Proofs.Writing
