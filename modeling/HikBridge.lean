import HikBridge.SessionRegistry.Accounting
import HikBridge.SessionRegistry.Generation
import HikBridge.Handlers.Cleanup
import HikBridge.Handlers.Isolation
import HikBridge.ByteQueue.ByteBoundedQueue
import HikBridge.HcSession.EndRace
import HikBridge.HcSession.EndReason
import HikBridge.HcSession.HcNetStreamSession
import HikBridge.HcSession.Delivery
import HikBridge.Lib.Chunked
import HikBridge.Lib.Program
import HikBridge.Video.Basic
import HikBridge.Video.Pipeline
import HikBridge.Video.Setup
import HikBridge.Video.Socket
import HikBridge.Video.HandleVideo
import HikBridge.Video.Objects
import HikBridge.Video.Stages
import HikBridge.Video.Transmission
import HikBridge.Video.Publication
import HikBridge.Video.Body
import HikBridge.Video.Ending
import HikBridge.Video.Runs
import HikBridge.SessionStatus.Retention
import HikBridge.Video.Response
import HikBridge.Http.Answers
import HikBridge.Http.HandleConnection
import HikBridge.Http.OneResponse
import HikBridge.Lib.Segments
import HikBridge.Video.Detection
import HikBridge.Video.InitialMp4
import HikBridge.Http.ConnectionWorkers
import HikBridge.Http.SocketLifetime
import HikBridge.Upgrade.Machine
import HikBridge.Upgrade.Services
import HikBridge.Video.Sdk
import HikBridge.Upgrade.Restore
import HikBridge.Upgrade.Execute
import HikBridge.Upgrade.Layout
import HikBridge.Upgrade.Stopping
import HikBridge.Upgrade.Attempt
import HikBridge.Upgrade.Preparation
import HikBridge.Upgrade.Transaction
import HikBridge.Lib.Delimited
import HikBridge.Lib.Expiring
import HikBridge.Numbers
import HikBridge.VideoCodecCache.Basic
import HikBridge.VideoCodecCache.Persistence
import HikBridge.VideoCodecCache.Restarts
import HikBridge.HttpBridgeServer.StreamTask
import HikBridge.HttpBridgeServer.Basic
import HikBridge.HttpBridgeServer.SdkUse
import HikBridge.HttpBridgeServer.SdkRelease
import HikBridge.Video.SdkBalance
import HikBridge.Http.RunServer
import HikBridge.WindowsService.Basic
import HikBridge.WindowsService.StatusProtocol
import HikBridge.Sessions.SessionRegistry
import HikBridge.Sessions.Reserve
import HikBridge.HcSession.InputTimeout
import HikBridge.Video.ReadUntilReady
import HikBridge.Handlers.CleanSessions
import HikBridge.Lib.Signed
import HikBridge.NvrChannelTopology.Basic
import HikBridge.NvrChannelTopology.CSharp
import HikBridge.NvrChannelTopology.Ports
import HikBridge.VideoCodecCache.Faults
import HikBridge.Http.ReadHttpRequest
import HikBridge.Http.CleanupRequest
import HikBridge.Install.Machine
import HikBridge.Install.Script
import HikBridge.Install.CommandLines
import HikBridge.Install.Commands
import HikBridge.Install.Snapshot
import HikBridge.Install.Rollback
import HikBridge.Install.Transaction
import HikBridge.NvrChannelTopology.Channels
import HikBridge.Http.QueryEncoding
import HikBridge.SessionRegistry.Statements
import HikBridge.Video.OutputPipe
import HikBridge.Http.Segmentation
import HikBridge.Lib.Json
import HikBridge.Http.JsonAnswers
import HikBridge.Config.Basic
import HikBridge.Lib.JsonDocument
import HikBridge.Config.Lookup
import HikBridge.Config.Agreement
import HikBridge.Config.Keys
import HikBridge.Upgrade.Port
import HikBridge.Upgrade.Quote
import HikBridge.Doubles
import HikBridge.Http.StreamGrammar
import HikBridge.Http.AcceptedRequests
import HikBridge.Lib.Calendar
import HikBridge.LocalTime
import HikBridge.HcSession.PlaybackWindow
import HikBridge.Video.Arguments
import HikBridge.Upgrade.ManagedPe
import HikBridge.Upgrade.Paths
import HikBridge.Upgrade.Isolation
import HikBridge.DailyLogWriter
import HikBridge.DailyLogRuns
import HikBridge.FfmpegProcess.Basic
import HikBridge.FfmpegProcess.Descriptors
import HikBridge.FfmpegProcess.Diagnostics
import HikBridge.FfmpegProcess.Inheritance
import HikBridge.FfmpegProcess.Stopping
import HikBridge.Hardware.Detect
import HikBridge.Hardware.RunWindowsProcess
import HikBridge.HcSession.KeepAlive
import HikBridge.Sockets
import HikBridge.VideoCodecCache.SharedCache
import HikBridge.HttpBridgeServer.Children
import HikBridge.HttpBridgeServer.Served
