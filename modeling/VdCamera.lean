import VdCamera.Misc.Run
import VdCamera.Misc.Scan
import VdCamera.Misc.Loop
import VdCamera.Misc.RoundRobin
import VdCamera.Misc.Table
import VdCamera.Misc.Attachment
import VdCamera.Misc.Registry
import VdCamera.Misc.CString
import VdCamera.Misc.Bytes
import VdCamera.Misc.HandOff
import VdCamera.Misc.Decimal
import VdCamera.Misc.Text
import VdCamera.Misc.Json
import VdCamera.Misc.JsonReader
import VdCamera.Misc.Bitmap
import VdCamera.Sys.TimeUtil
import VdCamera.Sys.Pool
import VdCamera.Roadgate.Ports
import VdCamera.Roadgate.Handlers
import VdCamera.Roadgate.StateMachines
import VdCamera.Roadgate.Daemon
import VdCamera.Roadgate.CenterLink
import VdCamera.Roadgate.Proofs.Effects
import VdCamera.Roadgate.Proofs.FrontStep
import VdCamera.Roadgate.Proofs.FrontEntrance
import VdCamera.Roadgate.Proofs.Machines
import VdCamera.Roadgate.Proofs.Interlock
import VdCamera.Roadgate.Proofs.Dispatch
import VdCamera.Roadgate.Proofs.CenterLink
import VdCamera.H264.Buffer
import VdCamera.H264.PsStream
import VdCamera.H264.Proofs.RecordLookup
import VdCamera.Storage.Disk
import VdCamera.Storage.Switch
import VdCamera.Storage.TrafficReupload
import VdCamera.Storage.HistoryExport
import VdCamera.Storage.RecordSave
import VdCamera.Storage.RecordClear
import VdCamera.Storage.FileServer
import VdCamera.Storage.Proofs.Threads
import VdCamera.Storage.Proofs.Clear
import VdCamera.Storage.Proofs.Switch
import VdCamera.Storage.Proofs.TrafficReupload
import VdCamera.Storage.Proofs.RecordSave
import VdCamera.Storage.Proofs.FileServer
import VdCamera.Storage.Proofs.HistoryExport
import VdCamera.Platform.DownTunnel
import VdCamera.Platform.RecordPool
import VdCamera.Platform.HttpResend
import VdCamera.Platform.ResendStore
import VdCamera.Platform.FtpResend
import VdCamera.Platform.Proofs.DownTunnel
import VdCamera.Platform.Proofs.RecordPool
import VdCamera.Platform.Proofs.HttpResend
import VdCamera.Platform.Proofs.ResendStore
import VdCamera.Platform.Proofs.FtpResend
import VdCamera.Platform.Proofs.ResendPaired
import VdCamera.Config.Proofs.JsonFormat
import VdCamera.Config.Proofs.FormatTokens
import VdCamera.Config.Proofs.JsonCfg
import VdCamera.Config.Proofs.Sections
import VdCamera.Config.Proofs.SpreadJson
import VdCamera.Config.Proofs.Strings
import VdCamera.Config.JsonCfg
import VdCamera.Config.Sections
import VdCamera.Config.VeCfg
import VdCamera.Config.Proofs.VeCfg
import VdCamera.Config.Proofs.Dump
import VdCamera.Dev.Light
import VdCamera.Dev.Proofs.Light
import VdCamera.Dev.Led
import VdCamera.Dev.Proofs.Led
import VdCamera.Misc.Places
import VdCamera.Platform.MqSend
import VdCamera.Platform.Proofs.MqSend
import VdCamera.Park.Records
import VdCamera.Park.ZehinRecords
import VdCamera.Park.BitcomRecords
import VdCamera.Park.Proofs.ZehinRecords
import VdCamera.Park.Proofs.Notify
import VdCamera.Park.Retransmission
import VdCamera.Park.PictureReget
import VdCamera.Park.Proofs.PictureReget
import VdCamera.Misc.Peek
import VdCamera.Toggle.Eplate
import VdCamera.Toggle.Proofs.Eplate
import VdCamera.Park.FileHandler
import VdCamera.Park.Proofs.FileHandler
import VdCamera.Dev.LightCtl
import VdCamera.Dev.Proofs.LightCtl
import VdCamera.Misc.RecentRing
import VdCamera.Park.ParkStatus
import VdCamera.Park.Proofs.ParkStatus
import VdCamera.Misc.Xml
import VdCamera.Xml.Structs
import VdCamera.Xml.Proofs.Structs
import VdCamera.Misc.Levels
import VdCamera.Park.PicturePath
import VdCamera.Park.Proofs.PicturePath
import VdCamera.JsonCpp.FastWriter
import VdCamera.JsonCpp.Value
import VdCamera.JsonCpp.Reader
import VdCamera.JsonCpp.Proofs.Reader
import VdCamera.JsonCpp.Proofs.Converted
import VdCamera.Park.MessageStore
import VdCamera.Park.Proofs.MessageStore
import VdCamera.Misc.Encoding
import VdCamera.Park.PlatformThread
import VdCamera.Park.Proofs.PlatformThread
import VdCamera.Park.ParkLockCram
import VdCamera.Park.Proofs.ParkLockCram
import VdCamera.Platform.Proofs.DownTunnelMemory
import VdCamera.Misc.Memory
import VdCamera.Platform.Proto
import VdCamera.Platform.Proofs.Proto
import VdCamera.Dev.Degao
import VdCamera.Dev.Proofs.Degao
import VdCamera.Dev.LedAsk
import VdCamera.Dev.Proofs.LedAsk
import VdCamera.Platform.LedControl
import VdCamera.Platform.Proofs.LedControl
import VdCamera.Platform.Proofs.MqResend
import VdCamera.Dev.Audio
import VdCamera.Dev.Proofs.Audio
import VdCamera.Common.CommonFuncs
import VdCamera.Storage.PartitionTable
import VdCamera.Storage.Proofs.PartitionTable
import VdCamera.Ftp.Path
import VdCamera.Ftp.Proofs.Path
import VdCamera.Ftp.Transfer
import VdCamera.Storage.SuperBlock
import VdCamera.Storage.Proofs.SuperBlock
import VdCamera.Ftp.Proofs.Transfer
import VdCamera.Ftp.Proofs.Replies
import VdCamera.Ftp.Shared
import VdCamera.Ftp.Proofs.Shared
import VdCamera.Ftp.Replies
import VdCamera.Misc.Intervals
import VdCamera.Toggle.ViolationVideo
import VdCamera.Toggle.Proofs.ViolationVideo
import VdCamera.Misc.ByteField
import VdCamera.H264.Proofs.StampCodec
import VdCamera.H264.Proofs.PsOrder
import VdCamera.H264.Proofs.PsRun
import VdCamera.H264.Proofs.PsForward
import VdCamera.H264.Proofs.PsVisit
import VdCamera.H264.Proofs.PsFrame
import VdCamera.H264.Proofs.StampInverse
import VdCamera.H264.Proofs.PsTouched
import VdCamera.H264.Proofs.SecondSearch
import VdCamera.Storage.Proofs.ClearAll
import VdCamera.Storage.DbWrite
import VdCamera.Storage.PathPermission
import VdCamera.Misc.FileSystem
import VdCamera.Storage.MkPath
import VdCamera.Misc.SqlText
import VdCamera.Storage.RecordSql
import VdCamera.Storage.RecordKinds
import VdCamera.Storage.Proofs.RecordSql
import VdCamera.Storage.TrafficFlow
import VdCamera.H264.Proofs.PsHeaders
import VdCamera.H264.Proofs.StampChain
import VdCamera.H264.Proofs.StampClock
import VdCamera.H264.Proofs.StampContinuous
import VdCamera.Sys.Proofs.TimeUtil
import VdCamera.Dev.LedFrame
import VdCamera.Dev.Proofs.LedFrame
import VdCamera.Dev.Proofs.LedGeometry
import VdCamera.Sys.Event
import VdCamera.Sys.Proofs.Event
import VdCamera.Sys.Proofs.Base64
import VdCamera.Sys.Proofs.LinkPool
import VdCamera.Sys.Proofs.ListHead
import VdCamera.Misc.RefCount
import VdCamera.Misc.Crc
import VdCamera.Misc.LinkRing
import VdCamera.Misc.StoreForward
import VdCamera.Misc.Stuffing
import VdCamera.Park.RefHandle
import VdCamera.Park.Proofs.RefHandle
import VdCamera.Park.Proofs.BitcomRecords
import VdCamera.Park.Proofs.Retransmission
import VdCamera.Dev.Proofs.LightLinks
import VdCamera.Dev.Proofs.WhiteLight
import VdCamera.Dev.WhiteLight
import VdCamera.Dev.LightLinks
import VdCamera.Sys.Base64
import VdCamera.Sys.ListHead
import VdCamera.Platform.MqResend
import VdCamera.Storage.Proofs.Crc16
import VdCamera.Storage.Proofs.DbWrite
import VdCamera.Storage.Proofs.DiskId
import VdCamera.Storage.Proofs.MkPath
import VdCamera.Storage.Proofs.PathPermission
import VdCamera.Storage.Proofs.TrafficFlow
import VdCamera.Storage.Proofs.RecordClear
import VdCamera.Common.Proofs.KeyValue
import VdCamera.Common.Proofs.Transport
