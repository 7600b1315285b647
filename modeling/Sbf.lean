import Sbf.TailqCycle
import Sbf.PubRoundTrip
import Sbf.AssembleRecovery
import Sbf.SendInterleaving
import Sbf.FindStream
import Sbf.TcpMeshRead
import Sbf.TopicLifetime
import Sbf.HandlerReads
import Sbf.PubLoss
import Sbf.PacketLimits
import Sbf.BufferRoom
import Sbf.SendBuffers
import Sbf.QueueWakeup
import Sbf.QueueExit
import Sbf.ReceiveRuns
import Sbf.ReceiveOrder
import Sbf.UdpReceiver
import Sbf.StreamCounts
import Sbf.StreamCounting
import Sbf.StreamCountSteps
import Sbf.StreamCountEntries
import Sbf.StreamCountEvents
import Sbf.StreamCountRemovals
import Sbf.StreamCountRuns
import Sbf.StreamCompletion
import Sbf.CompletionFrames
import Sbf.CompletionSteps
import Sbf.CompletionEvents
import Sbf.CompletionCalls
import Sbf.CompletionWalk
import Sbf.CompletionRuns
import Sbf.TcpMeshCopies
import Sbf.MemoryPoolPlaces
import Sbf.RequestRuns
import Sbf.RequestCorrelation
import Sbf.TotalSteps
import Sbf.RequestDrops
import Sbf.CacheFileReopen
import Sbf.HiResTimerRuns
import Sbf.TimerDestroyRuns
import Sbf.SubWeightRuns
import Sbf.LogFileReads
import Sbf.TcpListenerCounts
import Sbf.TcpListenerRuns
import Sbf.TcpStream
import Sbf.TcpOutput
import Sbf.MeshConnections
import Sbf.MeshDelivery
import Sbf.EndpointEffects
import Sbf.TportTended
import Sbf.TportTendedSteps
import Sbf.TportDestroy
import Sbf.TportDestroySteps
import Sbf.TportDestroyRuns
import Sbf.StringParts
import Sbf.TopicNames
import Sbf.TopicRotation
import Sbf.McastRange
import Sbf.McastAddress
import Sbf.KeyValue
import Sbf.PropertiesFilter
import Sbf.FirstSeen
import Sbf.PropertiesGroup
import Sbf.HiResTimerLoop
import Sbf.LineReader
import Sbf.PropertiesLoad
import Sbf.PropertiesLines
import Sbf.PropertiesComplete
import Sbf.CsvParser
import Sbf.CsvWrite
import Sbf.CsvUnended
import Sbf.CsvCalls
import Sbf.PacketPaths
import Sbf.PacketPathsAgree
import Sbf.ThreadChoice
import Sbf.NumberText
import Sbf.NumberString
import Sbf.Interfaces
import Sbf.InterfaceFind
import Sbf.GuidText
import Sbf.ParseAddress
import Sbf.TcpMeshCreate
import Sbf.CacheFileRange
import Sbf.RequestHolders
import Sbf.QueueDrain
import Sbf.Terminated
import Sbf.Arguments
import Sbf.AssembleBounds
import Sbf.AssembleWords
import Sbf.RedBlackTree
import Sbf.TreeLinks
import Sbf.SysTree
import Sbf.SysTreeInsert
import Sbf.SysTreeRemoveColor
import Sbf.SysTreeRemove
import Sbf.SysTreeSearch
import Sbf.SysTreeTables
import Sbf.SysTreeRuns
import Sbf.SysTreeWalks
import Sbf.KeyValueItems
import Sbf.KeyValueRuns
import Sbf.LinkRing
import Sbf.SysQueue
import Sbf.Deque
import Sbf.PoolDestroy
