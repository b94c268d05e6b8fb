import DOpenWrt.Lib.SystematicCode
import DOpenWrt.Rtp2httpd.RsFecDecode
import DOpenWrt.Rtp2httpd.HttpChunkedGrammar
import DOpenWrt.Rtp2httpd.RtpReorderRefs
import DOpenWrt.Rtp2httpd.RtpReorderOrder
import DOpenWrt.Rtp2httpd.RtpReorderWithheld
import DOpenWrt.Rtp2httpd.RtpReorderRepair
import DOpenWrt.Rtp2httpd.RtpFecBounds
import DOpenWrt.Rtp2httpd.RtpFecRecovery
import DOpenWrt.Rtp2httpd.RtpReorderReplay
import DOpenWrt.Rtp2httpd.BufferPoolInv
import DOpenWrt.Rtp2httpd.ZerocopyRelease
import DOpenWrt.Rtp2httpd.HttpTokenHidden
import DOpenWrt.Rtp2httpd.FccFallback
import DOpenWrt.Rtp2httpd.QueueBackpressure
import DOpenWrt.Rtp2httpd.M3uNames
import DOpenWrt.Rtp2httpd.RelayWake
import DOpenWrt.Rtp2httpd.HttpParseRequest
import DOpenWrt.Lanspeedd.AggregateDump
import DOpenWrt.Lanspeedd.SnapshotStore
import DOpenWrt.Lanspeedd.FastCounterSeqlock
import DOpenWrt.Lanspeedd.RateBookInv
import DOpenWrt.Lanspeedd.RateRollback
import DOpenWrt.Lanspeedd.ConnectionRatesDeferred
import DOpenWrt.Lanspeedd.Procfs
import DOpenWrt.Lanspeedd.FastRateTelescope
import DOpenWrt.Oaf.AfRuleSets
import DOpenWrt.Oaf.GatewayMark
import DOpenWrt.Oaf.DpiBounds
import DOpenWrt.Oaf.RegexpMatch
import DOpenWrt.Lanspeedd.ClassificationWindow
import DOpenWrt.Lanspeedd.RateMuxOwner
import DOpenWrt.Lanspeedd.StationGeneration
import DOpenWrt.Lanspeedd.EdgeRun
import DOpenWrt.Lanspeedd.PacketPrefix
import DOpenWrt.Rtp2httpd.RtpReorderWellFormed
import DOpenWrt.Rtp2httpd.RtpReorderRelease
import DOpenWrt.Rtp2httpd.RtpFecComplete
import DOpenWrt.Rtp2httpd.HttpQuery
import DOpenWrt.Rtp2httpd.HttpSendHeaders
import DOpenWrt.Rtp2httpd.TimezoneIso
import DOpenWrt.Rtp2httpd.UrlTemplateAgreement
import DOpenWrt.Rtp2httpd.RewriteM3uFrame
import DOpenWrt.Rtp2httpd.RtspStall
import DOpenWrt.Rtp2httpd.Stun
import DOpenWrt.Rtp2httpd.FccTermination
import DOpenWrt.Rtp2httpd.MergeQuery
import DOpenWrt.Rtp2httpd.ExtractQuery
import DOpenWrt.Rtp2httpd.SeekParams
import DOpenWrt.Rtp2httpd.Snapshot
import DOpenWrt.Rtp2httpd.SnapshotCapture
import DOpenWrt.Rtp2httpd.SnapshotFrame
import DOpenWrt.Rtp2httpd.SnapshotPacket
import DOpenWrt.Rtp2httpd.QueueWatermarks
import DOpenWrt.Rtp2httpd.QueueOutput
import DOpenWrt.Rtp2httpd.M3uGroupTitle
import DOpenWrt.Rtp2httpd.TimezoneConvert
import DOpenWrt.Rtp2httpd.TimezoneReadBack
import DOpenWrt.Rtp2httpd.TimezoneScan
import DOpenWrt.Rtp2httpd.SeekSeparator
import DOpenWrt.Rtp2httpd.Gmtime
import DOpenWrt.Lanspeedd.AggregateOrder
import DOpenWrt.Oaf.ExpiryWrap
import DOpenWrt.Lanspeedd.LowRateRepeat
import DOpenWrt.Lanspeedd.RateWindowAligned
import DOpenWrt.Oaf.PortList
import DOpenWrt.Oaf.ControlBounds
import DOpenWrt.Oaf.ServerName
import DOpenWrt.Oaf.RegexpSafe
import DOpenWrt.Oaf.HttpFields
import DOpenWrt.Oaf.FeatureLine
import DOpenWrt.Rtp2httpd.RtpPayload
import DOpenWrt.Rtp2httpd.HostPort
import DOpenWrt.Rtp2httpd.Gf256Modulus
import DOpenWrt.Lib.LineStream
import DOpenWrt.Lanspeedd.ProcfsReader
import DOpenWrt.Lanspeedd.EcmNodeSums
import DOpenWrt.Oaf.DynamicTime
import DOpenWrt.Oaf.NoonReset
import DOpenWrt.Oaf.LoaderBounds
import DOpenWrt.Lanspeedd.WindowBookRun
import DOpenWrt.Oaf.VisitReports
import DOpenWrt.Oaf.VisitRecords
import DOpenWrt.Oaf.TimeRewrite
import DOpenWrt.Rtp2httpd.HttpProxyResponse
import DOpenWrt.Rtp2httpd.HttpProxyReply
