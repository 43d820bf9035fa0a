import SpeeduinoDash.CommandServer
import SpeeduinoDash.Freshness
import SpeeduinoDash.InertFrames
import SpeeduinoDash.RateLimit
import SpeeduinoDash.ReverseAgreement
import SpeeduinoDash.ReverseOverlay
import SpeeduinoDash.Lib.Monitor
import SpeeduinoDash.SystemHealth
import SpeeduinoDash.HealthSections
import SpeeduinoDash.HealthModes
import SpeeduinoDash.ModeNotices
import SpeeduinoDash.HealthListeners
import SpeeduinoDash.Degradation
import SpeeduinoDash.CommandLimits
import SpeeduinoDash.Clamping
import SpeeduinoDash.CommandPath
import SpeeduinoDash.PressureAlarms
import SpeeduinoDash.BmwFlags
import SpeeduinoDash.Display
import SpeeduinoDash.StateMirror
import SpeeduinoDash.Lib.LockedCalls
import SpeeduinoDash.Lib.SelfLocks
import SpeeduinoDash.Lib.CallsAlone
import SpeeduinoDash.CanErrorHandler
import SpeeduinoDash.BusState
import SpeeduinoDash.CallbackLocks
import SpeeduinoDash.ConfigWatcher
import SpeeduinoDash.Lib.Await
import SpeeduinoDash.ObdHandler
import SpeeduinoDash.ObdReplies
import SpeeduinoDash.VinReassembly
import SpeeduinoDash.OpenAutoState
import SpeeduinoDash.CrashLockout
import SpeeduinoDash.Lib.Snapshots
import SpeeduinoDash.WarningManager
import SpeeduinoDash.EmergencyAlerts
import SpeeduinoDash.ConfigLoader
import SpeeduinoDash.ConfigFiles
import SpeeduinoDash.ConfigStores
import SpeeduinoDash.ConfigReload
import SpeeduinoDash.SignalFields
import SpeeduinoDash.TruncatedFrames
import SpeeduinoDash.HaltechTables
import SpeeduinoDash.SignalOverrides
import SpeeduinoDash.ReverseStream
import SpeeduinoDash.WarningStream
import SpeeduinoDash.ReverseSources
import SpeeduinoDash.ReversePresets
import SpeeduinoDash.PayloadReads
import SpeeduinoDash.Overheat
import SpeeduinoDash.ParserReload
import SpeeduinoDash.FrameRoundTrip
import SpeeduinoDash.SocketOwnership
import SpeeduinoDash.DtcReader
import SpeeduinoDash.DtcReports
import SpeeduinoDash.SupportedPids
import SpeeduinoDash.PidBitmaps
import SpeeduinoDash.ObdRequests
import SpeeduinoDash.EcuName
import SpeeduinoDash.ErrorFrames
import SpeeduinoDash.ErrorTimes
import SpeeduinoDash.BusMonitor
import SpeeduinoDash.InterfaceNames
import SpeeduinoDash.HexNumbers
import SpeeduinoDash.MaskNarrowing
import SpeeduinoDash.Lib.IndexMap
import SpeeduinoDash.WatchTable
import SpeeduinoDash.CallbackRate
import SpeeduinoDash.StopRespected
import SpeeduinoDash.AutoReload
import SpeeduinoDash.StabilityTimers
import SpeeduinoDash.Lib.Divider
import SpeeduinoDash.BmwClusterSim
import SpeeduinoDash.ClusterEncoding
import SpeeduinoDash.ClusterRates
import SpeeduinoDash.WidebandForwarder
import SpeeduinoDash.WidebandEncoding
import SpeeduinoDash.WarningThresholds
import SpeeduinoDash.Lib.History
import SpeeduinoDash.WarningRecords
import SpeeduinoDash.Acknowledgements
import SpeeduinoDash.OpenAutoEmbedded
import SpeeduinoDash.VideoVisibility
import SpeeduinoDash.VideoContainers
import SpeeduinoDash.IoWorker
import SpeeduinoDash.LapTimer
import SpeeduinoDash.BestLap
import SpeeduinoDash.SectorTimes
import SpeeduinoDash.PerformanceMeter
import SpeeduinoDash.RunDistance
import SpeeduinoDash.RunIsolation
import SpeeduinoDash.Lib.AgingMap
import SpeeduinoDash.VEMapDisplay
import SpeeduinoDash.CellHistory
import SpeeduinoDash.PeakRecall
import SpeeduinoDash.RaiiSocket
import SpeeduinoDash.BusLoad
import SpeeduinoDash.Publications
import SpeeduinoDash.ScopeGuard
import SpeeduinoDash.WatchdogTiming
import SpeeduinoDash.WatchLoop
import SpeeduinoDash.Dashboard
import SpeeduinoDash.ReverseResponse
import SpeeduinoDash.TransmitLoops
import SpeeduinoDash.ReverseWindow
import SpeeduinoDash.WindowResponse
