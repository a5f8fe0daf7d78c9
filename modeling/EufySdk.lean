import EufySdk.Lib.Bytes
import EufySdk.Core.Thrown
import EufySdk.Lib.Framing
import EufySdk.Transport.P2p.Codec
import EufySdk.Transport.P2p.Reassembly
import EufySdk.Transport.P2p.CommandFrame
import EufySdk.Transport.P2p.Segmentation
import EufySdk.Transport.P2p.Splice
import EufySdk.Core.Json
import EufySdk.Transport.P2p.Dispatch
import EufySdk.Transport.P2p.DatagramSafety
import EufySdk.Lib.Machine
import EufySdk.Lib.Resync
import EufySdk.Transport.P2p.Consumer
import EufySdk.Transport.P2p.FanoutDelivery
import EufySdk.Lib.Window
import EufySdk.Transport.P2p.Prebuffer
import EufySdk.Transport.P2p.CommandRouter
import EufySdk.Transport.P2p.RefCount
import EufySdk.Transport.P2p.Handover
import EufySdk.Core.Util
import EufySdk.Lib.SortedMap
import EufySdk.Client.StateSync
import EufySdk.Client.ReportPrecedence
import EufySdk.Client.Announcements
import EufySdk.Client.Realtime
import EufySdk.Client.RealtimeEpochs
import EufySdk.Transport.P2p.Pull
import EufySdk.Lib.History
import EufySdk.Transport.P2p.StartFailure
import EufySdk.Transport.P2p.Silence
import EufySdk.Transport.P2p.SessionReplacement
import EufySdk.Transport.P2p.SessionBookkeeping
import EufySdk.Transport.P2p.SessionFrame
import EufySdk.Transport.P2p.SharedConnect
import EufySdk.Transport.P2p.DelayedDrop
import EufySdk.Transport.P2p.ServedCamera
import EufySdk.Lib.OrderedMap
import EufySdk.Transport.P2p.Talkback
import EufySdk.Transport.P2p.TalkbackExclusion
import EufySdk.Transport.P2p.LiveStart
import EufySdk.Transport.P2p.Queries
import EufySdk.Transport.P2p.Level2
import EufySdk.Transport.P2p.Level2Negotiation
import EufySdk.Transport.P2p.Level2Waits
import EufySdk.Transport.StoredImageCache
import EufySdk.Transport.StoredImageGuarantees
import EufySdk.Transport.Http.MegaClient
import EufySdk.Transport.Http.MegaClientCalls
import EufySdk.Transport.Http.MegaClientRecovery
import EufySdk.Transport.Http.DecodeImageV2
import EufySdk.Lib.Varint
import EufySdk.Transport.Push.Parser
import EufySdk.Transport.Push.ParserChunks
import EufySdk.Core.RawDpWriter
import EufySdk.Model.ProtoRead
import EufySdk.Model.VacuumClean
import EufySdk.Model.RawDpMessages
import EufySdk.Lib.IsoBox
import EufySdk.Lib.MovieFragment
import EufySdk.Transport.P2p.Adts
import EufySdk.Transport.P2p.Annexb
import EufySdk.Transport.P2p.Announcements
import EufySdk.Transport.P2p.CodedGeometry
import EufySdk.Transport.P2p.Fmp4
import EufySdk.Transport.P2p.Fmp4Calls
import EufySdk.Transport.P2p.Fmp4Recording
import EufySdk.Client.Availability
import EufySdk.Client.DeviceRegistry
import EufySdk.Client.LateEcho
import EufySdk.Client.ListRefreshes
import EufySdk.Client.ObservedWrite
import EufySdk.Client.PollLoop
import EufySdk.Client.RosterPolls
import EufySdk.Client.StateTransitions
import EufySdk.Model.VacuumMapStore
import EufySdk.Transport.P2p.Fmp4Timeline
import EufySdk.Lib.Hex
import EufySdk.Lib.Tlv
import EufySdk.Transport.Ff09
import EufySdk.Transport.Ff09AutolockSet
import EufySdk.Transport.Ff09Autolock
import EufySdk.Lib.BitStrings
import EufySdk.Lib.Grid
import EufySdk.Lib.Reading
import EufySdk.Model.Capabilities.Arming
import EufySdk.Model.Capabilities.BoundedMembers
import EufySdk.Model.Capabilities.Camera
import EufySdk.Model.Capabilities.Confirmation
import EufySdk.Model.Capabilities.WriteDomain
import EufySdk.Model.CleanRecordDetail
import EufySdk.Model.MapPixels
import EufySdk.Model.Reresolve
import EufySdk.Transport.P2p.AccessUnits
import EufySdk.Transport.P2p.EmulationPrevention
import EufySdk.Transport.P2p.RbspCodes
import EufySdk.Transport.P2p.SpsSyntax
import EufySdk.Core.Lz4Memory
import EufySdk.Lib.Chunks
import EufySdk.Lib.Ledger
import EufySdk.Lib.LiveMap
import EufySdk.Transport.P2p.AdtsFrames
import EufySdk.Transport.P2p.AttachFailure
import EufySdk.Transport.P2p.FragmentDelivery
import EufySdk.Transport.P2p.HevcSpsSyntax
import EufySdk.Transport.P2p.OutboundAudio
import EufySdk.Transport.P2p.OutstandingStarts
import EufySdk.Transport.P2p.PullBudget
import EufySdk.Core.StructuralEqual
import EufySdk.Transport.DpCodec
import EufySdk.Transport.P2p.BurstCapture
import EufySdk.Transport.P2p.JpegGeometry
import EufySdk.Transport.P2p.LiveStream
import EufySdk.Transport.P2p.TalkbackCompletion
import EufySdk.Lib.Groups
import EufySdk.Transport.P2p.VideoFrames
import EufySdk.Transport.P2p.AccessUnitAssembler
import EufySdk.Transport.P2p.MediaPath
import EufySdk.Transport.Push.PushClient
import EufySdk.Model.DeviceMessage
import EufySdk.Model.VacuumSchedules
import EufySdk.Model.VacuumScenes
import EufySdk.Model.VacuumMapParts
import EufySdk.Model.HeldMap
import EufySdk.Transport.Mqtt.BizStream
import EufySdk.Client.MapStream
import EufySdk.Transport.Tuya.CommandRouter
import EufySdk.Transport.Ff09Commands
import EufySdk.Transport.Mqtt.CommandRouter
import EufySdk.Transport.Mqtt.OneShotGuarantees
