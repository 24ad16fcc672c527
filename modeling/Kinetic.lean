import Kinetic.Core.LTS
import Kinetic.Core.Ledger
import Kinetic.Core.Scan
import Kinetic.Core.Worklist
import Kinetic.Core.Bytes
import Kinetic.Core.Dict
import Kinetic.Core.Index
import Kinetic.Core.Socket
import Kinetic.Core.Descriptor
import Kinetic.Core.Framing
import Kinetic.Core.Countdown
import Kinetic.Core.Ownership
import Kinetic.Core.Monitor
import Kinetic.L1Wire.Proto
import Kinetic.L1Wire.Status
import Kinetic.L1Wire.ReaderWriter
import Kinetic.L1Wire.StringIo
import Kinetic.L1Wire.Packet
import Kinetic.L1Wire.RoundTrip
import Kinetic.L1Wire.PacketStream
import Kinetic.L1Wire.Progress
import Kinetic.L1Wire.Retry
import Kinetic.L1Wire.Ssl
import Kinetic.L1Wire.SslStream
import Kinetic.L1Wire.MessageStream
import Kinetic.L1Wire.Lengths
import Kinetic.L1Wire.Hmac
import Kinetic.L1Wire.Codec
import Kinetic.L1Wire.Conversation
import Kinetic.L1Wire.StreamFactory
import Kinetic.L2Service.State
import Kinetic.L2Service.Service
import Kinetic.L2Service.Step
import Kinetic.L2Service.Turns
import Kinetic.L2Service.Callbacks
import Kinetic.L2Service.Custody
import Kinetic.L2Service.Reentry
import Kinetic.L2Service.Moves
import Kinetic.L2Service.System
import Kinetic.L2Service.Records
import Kinetic.L2Service.Completion
import Kinetic.L2Service.Interest
import Kinetic.L2Service.Failure
import Kinetic.L2Service.Wire
import Kinetic.L2Service.Delivery
import Kinetic.L2Service.Auth
import Kinetic.L2Service.Awaiting
import Kinetic.L2Service.Device
import Kinetic.L2Service.Matching
import Kinetic.L2Service.Responses
import Kinetic.L2Service.Reports
import Kinetic.L2Service.Registration
import Kinetic.L2Service.Signing
import Kinetic.L2Service.Handshake
import Kinetic.L2Service.Receiver
import Kinetic.L2Service.Enqueue
import Kinetic.L2Service.Retry
import Kinetic.L2Service.WriteFailure
import Kinetic.L2Service.Sending
import Kinetic.L2Service.Spoken
import Kinetic.L2Service.Starvation
import Kinetic.L2Service.Calls
import Kinetic.L2Service.Arrivals
import Kinetic.L2Service.SocketWrapper
import Kinetic.L3Client.Commands
import Kinetic.L3Client.DriveLog
import Kinetic.L3Client.PeerPush
import Kinetic.L3Client.Interpret
import Kinetic.L3Client.Forwarding
import Kinetic.L3Client.Factory
import Kinetic.L3Client.Blocking
import Kinetic.L3Client.Returned
import Kinetic.L3Client.Agreement
import Kinetic.L3Client.Answers
import Kinetic.L3Client.Threadsafe
import Kinetic.L3Client.KeyRange
import Kinetic.L3Client.Iteration
