import SunPush.Library.Transition
import SunPush.Library.Integer
import SunPush.Library.Memory
import SunPush.Library.Inspection
import SunPush.Library.Channels
import SunPush.Socket.NetMsg
import SunPush.Socket.Receive
import SunPush.Socket.Send
import SunPush.Socket.Outgoing
import SunPush.Socket.Header
import SunPush.Receiver.Connection
import SunPush.Receiver.Framing
import SunPush.Receiver.Segmentation
import SunPush.Session.World
import SunPush.Session.Service
import SunPush.Session.Moves
import SunPush.Session.Sound
import SunPush.Session.Refinement
import SunPush.Session.Registry
import SunPush.Session.Discipline
import SunPush.Session.ReadErrors
import SunPush.Session.Lifetime
import SunPush.Session.Clients
import SunPush.PushServer.UserManager
import SunPush.PushServer.UserIndexes
import SunPush.PushServer.Server
import SunPush.PushServer.MessageReads
import SunPush.PushServer.Tracking
import SunPush.Peers.JavaClient
import SunPush.Peers.WebServer
import SunPush.Peers.OrderForwarding
import SunPush.Peers.OrderService
import SunPush.Peers.OrderAccounting
import SunPush.Peers.Deliveries
import SunPush.Peers.OrderCompletion
import SunPush.Library.Tally
import SunPush.Library.Termination
import SunPush.Session.Books
import SunPush.Session.Engaged
import SunPush.Session.Bookkeeping
import SunPush.Session.Destruction
import SunPush.Session.Reclaim
import SunPush.Session.Counters
import SunPush.PushServer.Listening
import SunPush.PushServer.ConnectionCounts
import SunPush.PushServer.WebConnection
import SunPush.Library.StreamCipher
import SunPush.Socket.MessageEncrypt
import SunPush.Socket.IOPacket
import SunPush.Receiver.BigBuffer
import SunPush.Receiver.Encrypted
import SunPush.Socket.Batch
import SunPush.Socket.Pooled
import SunPush.Peers.JavaFraming
import SunPush.Peers.WebFraming
import SunPush.PushServer.Kicking
import SunPush.Library.Precedence
import SunPush.Peers.Authentication
import SunPush.Library.Noninterference
import SunPush.PushServer.Disclosure
import SunPush.Library.Isolation
import SunPush.PushServer.ClientViews
import SunPush.Library.Codec
import SunPush.Utility.ByteBuffer
import SunPush.Utility.ReadPositions
import SunPush.Session.Receiving
import SunPush.PushServer.UserRefusals
import SunPush.PushServer.UserCounts
import SunPush.PushServer.Login
import SunPush.Socket.MessageCreate
import SunPush.Peers.ServerReady
import SunPush.Session.Closing
import SunPush.Session.Shutdown
import SunPush.Session.Streams
import SunPush.Session.Ownership
import SunPush.PushServer.Occasions
import SunPush.PushServer.Conversations
import SunPush.Peers.JavaLogin
import SunPush.PushServer.Stopping
import SunPush.Library.SharedCounters
import SunPush.Session.SendAccounting
import SunPush.Session.Connecting
import SunPush.Socket.PacketCursors
import SunPush.Socket.PacketWrites
import SunPush.Socket.PacketReads
import SunPush.Socket.PacketQueue
import SunPush.Utility.Decoding
import SunPush.Utility.MemBand
import SunPush.Utility.MemoryPool
import SunPush.Utility.SafeMemoryPool
import SunPush.Utility.Timer
import SunPush.Utility.ExpireTimer
import SunPush.Utility.HexLike
import SunPush.Utility.TokenProgress
import SunPush.Utility.TokenBuffer
import SunPush.Utility.Comments
import SunPush.Library.DoublyLinked
import SunPush.Utility.CList
import SunPush.Utility.ListNodes
import SunPush.Utility.NList
import SunPush.Utility.NListChains
import SunPush.Utility.NLineBuffer
import SunPush.Utility.NHashTable
import SunPush.Utility.ListRefinement
import SunPush.PushServer.PacketHandler
import SunPush.Utility.NStringCalls
import SunPush.Utility.NStringSubstitute
