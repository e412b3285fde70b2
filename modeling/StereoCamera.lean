import StereoCamera.Lib.Transition
import StereoCamera.Common.Types
import StereoCamera.Data.SPSCQueueFifo
import StereoCamera.Data.PipelineConservation
import StereoCamera.Data.SDKSlotManager
import StereoCamera.Data.DealerThreads
import StereoCamera.Api.ClientHandler
import StereoCamera.Api.Subscriptions
import StereoCamera.Api.OrphanedCaptures
import StereoCamera.Api.RefusedCommands
import StereoCamera.Lib.BigEndian
import StereoCamera.Lib.PartialIO
import StereoCamera.Data.WSFrame
import StereoCamera.Data.WSFrameRoundTrip
import StereoCamera.Data.WSClientLoop
import StereoCamera.Data.WSFragments
import StereoCamera.Data.WSRecords
import StereoCamera.Data.SubscriptionMessages
import StereoCamera.Data.WSHandshake
import StereoCamera.Lib.Utf8
import StereoCamera.Common.Std
import StereoCamera.Common.HttpRequest
import StereoCamera.Api.CameraSDKClient
import StereoCamera.Api.HandlerQueries
import StereoCamera.Api.AdminServer
import StereoCamera.Api.RequestReading
import StereoCamera.Api.RequestChunks
import StereoCamera.Api.AdminServerSafety
import StereoCamera.Api.ForwardedParameter
import StereoCamera.Api.UnknownTypes
import StereoCamera.Lib.Locks
import StereoCamera.Lib.Multipart
import StereoCamera.Data.WSServerThreads
import StereoCamera.Data.WSServerDeadlock
import StereoCamera.Api.Workers
import StereoCamera.Data.SlotChannels
import StereoCamera.Data.CaptureSections
import StereoCamera.Data.DataBufferDepth
import StereoCamera.Data.ActiveChannels
import StereoCamera.Data.RequestedTypes
import StereoCamera.Api.CommandViews
import StereoCamera.Api.CommandSections
import StereoCamera.Api.Outcomes
import StereoCamera.Api.CommandPairs
import StereoCamera.Api.CommandConflicts
import StereoCamera.Api.Serializability
import StereoCamera.Lib.PowerOfTwo
import StereoCamera.Data.DataBufferHistory
import StereoCamera.Data.SPSCQueueCalls
import StereoCamera.Data.DealerLoop
import StereoCamera.Data.DealerMessage
import StereoCamera.Data.UnknownParts
import StereoCamera.Data.StoppedSlots
import StereoCamera.Data.DataPublisher
import StereoCamera.Data.Relay
import StereoCamera.Data.LoopbackSubscriber
import StereoCamera.Data.SPSCQueueOrder
import StereoCamera.Data.WSServerDelivery
import StereoCamera.Data.WSServerFeed
import StereoCamera.Data.WSServerEncode
import StereoCamera.Data.WSServerOrder
import StereoCamera.Data.WSServerEviction
import StereoCamera.Data.WSServerReconnect
import StereoCamera.Data.WSServerDuplicates
import StereoCamera.Api.AdminServerThreads
import StereoCamera.Api.AdminServerDrain
import StereoCamera.Data.WSServerWriters
import StereoCamera.Data.WSServerStream
import StereoCamera.Data.ConfigManager
import StereoCamera.Data.FailedLoad
import StereoCamera.Vision.DisparityMap
import StereoCamera.Vision.DisparitySafety
import StereoCamera.Vision.BlockMatching
import StereoCamera.Vision.SubpixelRefinement
import StereoCamera.Vision.PointCloud
import StereoCamera.Vision.Reprojection
import StereoCamera.Data.RingBufferCells
import StereoCamera.Data.DataStorage
import StereoCamera.Data.DamagedFiles
import StereoCamera.Calibration.Calibration2D
import StereoCamera.Calibration.Calibration3D
import StereoCamera.Lib.Throwing
import StereoCamera.Data.AppConfig
import StereoCamera.Data.AppConfigLayout
import StereoCamera.Data.AppConfigReading
import StereoCamera.Data.AppConfigFields
import StereoCamera.Data.WSServerWakeUps
import StereoCamera.Data.WSServerLifecycle
import StereoCamera.Api.AdminServerWakeUps
import StereoCamera.Data.WSBundles
import StereoCamera.Data.WSMessages
import StereoCamera.Vision.StereoDepth
import StereoCamera.Calibration.CalibrationFiles
import StereoCamera.Lib.Termination
import StereoCamera.Data.Shutdown
import StereoCamera.Data.ShutdownInvariant
import StereoCamera.Data.ShutdownTermination
import StereoCamera.Common.HttpReply
import StereoCamera.Api.RemoteCalls
import StereoCamera.Api.CameraAgreement
import StereoCamera.Data.WSServerOrigins
import StereoCamera.Data.DataPath
import StereoCamera.Data.DataPathDelivery
import StereoCamera.Data.PubSockets
import StereoCamera.Data.PubSocketsDelivery
import StereoCamera.Data.PubSocketsInvariant
