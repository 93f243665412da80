import IpkChat.Foundation.Bytes
import IpkChat.Foundation.Framing
import IpkChat.Foundation.History
import IpkChat.Foundation.Runs
import IpkChat.Foundation.Refinement
import IpkChat.Foundation.Fifo
import IpkChat.Foundation.Ring
import IpkChat.Foundation.Block
import IpkChat.Foundation.Guarded
import IpkChat.Foundation.Stream
import IpkChat.Foundation.Decimal
import IpkChat.Foundation.Radix
import IpkChat.Foundation.Getopt
import IpkChat.Core.Common
import IpkChat.Core.Args
import IpkChat.Core.Acceptance
import IpkChat.Core.IdList
import IpkChat.Core.MsgQueue
import IpkChat.Core.QueueFifo
import IpkChat.Core.MsgBuffer
import IpkChat.Core.BufferBounds
import IpkChat.Core.BufferBytes
import IpkChat.Core.World
import IpkChat.Core.Allocation
import IpkChat.Udp.Message
import IpkChat.Udp.Comm
import IpkChat.Udp.Steps
import IpkChat.Udp.Receptions
import IpkChat.Udp.Blindness
import IpkChat.Udp.Delivery
import IpkChat.Udp.Confirmation
import IpkChat.Udp.AtMostOnce
import IpkChat.Udp.RoundTrip
import IpkChat.Udp.Decoding
import IpkChat.Udp.Reads
import IpkChat.Udp.Layout
import IpkChat.Udp.Peer
import IpkChat.Udp.Reordering
import IpkChat.Udp.Retransmission
import IpkChat.Udp.MessageId
import IpkChat.Udp.Order
import IpkChat.Tcp.Message
import IpkChat.Tcp.Comm
import IpkChat.Tcp.Reception
import IpkChat.Tcp.Segmentation
import IpkChat.Tcp.Encoding
import IpkChat.Tcp.Grammar
import IpkChat.Session.Input
import IpkChat.Session.Prompt
import IpkChat.Session.Fsm
import IpkChat.Session.Table
import IpkChat.Session.Client
import IpkChat.Session.Rounds
import IpkChat.Session.Conversation
import IpkChat.Session.Discipline
import IpkChat.Session.Settlement
import IpkChat.Session.Encoding
import IpkChat.Session.Order
import IpkChat.Session.Reached
import IpkChat.Session.Identity
import IpkChat.Session.Content
import IpkChat.Session.Classification
import IpkChat.Session.Machine
import IpkChat.Session.Interrupt
import IpkChat.Session.Stdin
import IpkChat.Session.Clock
import IpkChat.Session.Deadline
import IpkChat.Session.Timeouts
