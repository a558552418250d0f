import SipDemo.Run
import SipDemo.Census
import SipDemo.Segments
import SipDemo.Resequencer
import SipDemo.RunningMax
import SipDemo.Loop
import SipDemo.AdjacentSwaps
import SipDemo.Line
import SipDemo.OrderedMap
import SipDemo.Framing
import SipDemo.Handles
import SipDemo.Companding
import SipDemo.Bytes
import SipDemo.Bytes.Trim
import SipDemo.Bytes.BigEndian
import SipDemo.Bytes.Numerals
import SipDemo.SipMessage
import SipDemo.SipParser
import SipDemo.SipParser.RoundTrip
import SipDemo.SipParser.Accepted
import SipDemo.SipParser.ContentLength
import SipDemo.SipParser.Truncation
import SipDemo.SipParser.Params
import SipDemo.Sdp
import SipDemo.Sdp.RoundTrip
import SipDemo.Sdp.Answer
import SipDemo.Sdp.Sections
import SipDemo.Sdp.Audio
import SipDemo.Sdp.Address
import SipDemo.Sdp.Exchange
import SipDemo.SipUas
import SipDemo.SipUas.Response
import SipDemo.SipUas.Transition
import SipDemo.SipUas.Calls
import SipDemo.SipUas.Responses
import SipDemo.SipUas.Tags
import SipDemo.SipUas.Injection
import SipDemo.SipUas.Size
import SipDemo.SipUas.Uniqueness
import SipDemo.SipUas.Abstraction
import SipDemo.RtpPacket
import SipDemo.RtpPacket.RoundTrip
import SipDemo.RtpPacket.Format
import SipDemo.RtpStats
import SipDemo.RtpStats.Loss
import SipDemo.RtpStats.Jitter
import SipDemo.Rfc4733
import SipDemo.Rfc4733.Presses
import SipDemo.Rfc4733.EndOnly
import SipDemo.Codec
import SipDemo.Codec.Accuracy
import SipDemo.BoundedQueue
import SipDemo.BoundedQueue.Threads
import SipDemo.BoundedQueue.Linearity
import SipDemo.BoundedQueue.Wakeups
import SipDemo.JitterBuffer
import SipDemo.JitterBuffer.Delivery
import SipDemo.JitterBuffer.Arrival
import SipDemo.JitterBuffer.Accounting
import SipDemo.JitterBuffer.Representation
import SipDemo.RtpPacket.Serial
import SipDemo.UdpSocket
import SipDemo.MediaSession
import SipDemo.MediaSession.Echo
import SipDemo.MediaSession.Reception
import SipDemo.MediaSession.TelephoneEvents
import SipDemo.MediaSession.Latching
import SipDemo.MediaSession.Draining
import SipDemo.MediaSession.OutOfBand
import SipDemo.MediaSession.Contents
import SipDemo.MediaSession.Numbering
import SipDemo.Server
import SipDemo.Server.Survival
import SipDemo.Server.Sessions
import SipDemo.Server.Datagrams
import SipDemo.Server.Setup
import SipDemo.Server.Load
import SipDemo.Server.Peers
import SipDemo.WsClient
import SipDemo.WsClient.Reading
import SipDemo.WsClient.Wire
import SipDemo.WsClient.Sending
import SipDemo.WsClient.Threads
import SipDemo.WsClient.Lifecycle
import SipDemo.WsClient.Joining
import SipDemo.WsClient.Pings
import SipDemo.WsClient.Handshake
import SipDemo.WsClient.Upgrade
import SipDemo.Base64
import SipDemo.WsClient.Request
import SipDemo.Server.Gateway
import SipDemo.RtpSender
import SipDemo.RtpSender.Wav
import SipDemo.RtpSender.Chaos
import SipDemo.RtpSender.Reports
import SipDemo.RtpSender.Fidelity
