import GameServer.Lib.BigEndian
import GameServer.Lib.Bits
import GameServer.Lib.CString
import GameServer.Lib.Framer
import GameServer.Lib.Layout
import GameServer.Lib.Ledger
import GameServer.Lib.LinkedList
import GameServer.Lib.Locks
import GameServer.Lib.Memory
import GameServer.Lib.OrderedMap
import GameServer.Lib.Outbox
import GameServer.Lib.Ownership
import GameServer.Lib.Protobuf
import GameServer.Lib.Replies
import GameServer.Lib.Ring
import GameServer.Lib.Stamp
import GameServer.Lib.StdMap
import GameServer.Lib.TimingWheel
import GameServer.Lib.Transition
import GameServer.Common.SnowFlake
import GameServer.Common.KFifo
import GameServer.Common.KFifoRecords
import GameServer.Common.KFifoThreads
import GameServer.Common.LogBlock
import GameServer.Common.BufferLog
import GameServer.Common.LogReader
import GameServer.Common.LineScanner
import GameServer.Common.GameConf
import GameServer.Common.ConfReadBack
import GameServer.Network.Packet
import GameServer.Network.Queue
import GameServer.Network.QueueRuns
import GameServer.Network.PacketPool
import GameServer.Network.PoolThreads
import GameServer.Network.PoolOrder
import GameServer.Network.PoolOwnership
import GameServer.Network.PoolValues
import GameServer.Network.PoolLeak
import GameServer.Network.Context
import GameServer.Network.ClientPool
import GameServer.Network.LibeventCtx
import GameServer.Network.Framing
import GameServer.Network.RoundTrip
import GameServer.Network.ReadLoop
import GameServer.Network.UnpackConservation
import GameServer.Network.LibeventServer
import GameServer.Network.PoolIndexes
import GameServer.Network.ServerRounds
import GameServer.Network.RecvPipeline
import GameServer.Network.SendPath
import GameServer.Network.Transports
import GameServer.Network.MessageLoop
import GameServer.Network.SocketTypes
import GameServer.Network.SocketServer
import GameServer.Network.SocketAccount
import GameServer.Network.SocketLogic
import GameServer.Network.SocketBlocks
import GameServer.Network.SocketThreads
import GameServer.Network.SocketClients
import GameServer.Network.ConnectorPool
import GameServer.Network.ConnectorThreads
import GameServer.Network.ConnectorLife
import GameServer.Network.ClosedConnectors
import GameServer.Socket.UdpAddress
import GameServer.Socket.Sock
import GameServer.Socket.Sending
import GameServer.Socket.Life
import GameServer.Socket.WriteOrder
import GameServer.Socket.WriteAccount
import GameServer.Socket.Watching
import GameServer.Socket.Assertions
import GameServer.Socket.Descriptor
import GameServer.Socket.ControlPipe
import GameServer.Socket.Reservation
import GameServer.Socket.Table
import GameServer.Socket.TableSlots
import GameServer.Socket.TableRuns
import GameServer.Network.SocketSteps
import GameServer.Timer.Wheel
import GameServer.Timer.WheelRun
import GameServer.Timer.WheelNodes
import GameServer.Timer.TimerClock
import GameServer.Timer.GameTimer
import GameServer.Timer.KeyedTimers
import GameServer.Timer.TimerLocks
import GameServer.Timer.Cancellation
import GameServer.Timer.HandleReuse
import GameServer.Timer.HandleSearch
import GameServer.Timer.TimerQueues
import GameServer.Service.Handle
import GameServer.Service.ReplyRouting
import GameServer.Service.GameSvrConf
import GameServer.Client.HelloClient
import GameServer.Client.HelloExchange
