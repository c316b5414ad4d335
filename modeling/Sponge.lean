import Sponge.Lib.Run
import Sponge.Lib.Bisect
import Sponge.Lib.Fragments
import Sponge.Lib.Spans
import Sponge.Lib.Fifo
import Sponge.Lib.Expiry
import Sponge.Lib.BestMatch
import Sponge.Lib.Indexed
import Sponge.Lib.Retransmitter
import Sponge.Lib.BigEndian
import Sponge.Lib.OnesComplement
import Sponge.Lib.Outcome
import Sponge.Lib.Lossy
import Sponge.Cpp
import Sponge.WrappingIntegers
import Sponge.ByteStream
import Sponge.ByteStreamRuns
import Sponge.ByteStreamCaught
import Sponge.BufferString
import Sponge.BufferStringUnion
import Sponge.BufferStringBytes
import Sponge.BufferStringPops
import Sponge.StreamReassembler
import Sponge.ReassemblerStream
import Sponge.ReassemblerEof
import Sponge.ReassemblerWindow
import Sponge.TcpSegment
import Sponge.TcpReceiver
import Sponge.ReceiverStream
import Sponge.ReceiverSyn
import Sponge.ReceiverEnd
import Sponge.TcpSender
import Sponge.SenderHistory
import Sponge.SenderQueue
import Sponge.SenderWindow
import Sponge.SenderFill
import Sponge.SenderTimer
import Sponge.SenderNumbering
import Sponge.SenderSummary
import Sponge.TcpConnection
import Sponge.ConnectionAck
import Sponge.ConnectionTimeWait
import Sponge.ConnectionSilence
import Sponge.ConnectionAckFlag
import Sponge.ConnectionWindow
import Sponge.PassiveClose
import Sponge.ZeroWindow
import Sponge.SenderWire
import Sponge.ReceiverWire
import Sponge.Endpoint
import Sponge.Network
import Sponge.FifoNetwork
import Sponge.TcpState
import Sponge.ConnectionOut
import Sponge.NetworkRuns
import Sponge.ReceiverProgress
import Sponge.Promptness
import Sponge.Recovery
import Sponge.NetParser
import Sponge.InternetDatagram
import Sponge.TcpWire
import Sponge.TcpOverIp
import Sponge.EthernetFrame
import Sponge.SharedBuffer
import Sponge.NetworkInterface
import Sponge.ArpCache
import Sponge.InterfaceAddressing
import Sponge.InterfacePending
import Sponge.InterfaceRequests
import Sponge.InterfaceReplies
import Sponge.InterfaceMalformed
import Sponge.EthernetAdapter
import Sponge.FileDescriptor
import Sponge.EventLoop
import Sponge.StreamCopy
import Sponge.StreamCopyRuns
import Sponge.FdAdapter
import Sponge.SpongeSocket
import Sponge.AdapterWire
import Sponge.SocketMirror
import Sponge.SocketNetwork
import Sponge.CopyNetwork
import Sponge.Router
