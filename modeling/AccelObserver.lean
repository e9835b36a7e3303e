import AccelObserver.Library.Machine
import AccelObserver.Library.Channel
import AccelObserver.Library.Backlog
import AccelObserver.Library.BoundedQueue
import AccelObserver.Library.Throttle
import AccelObserver.Library.Bytes
import AccelObserver.Library.CheckedLoops
import AccelObserver.Library.Frame
import AccelObserver.Library.FrameDecoder
import AccelObserver.Library.Text
import AccelObserver.Library.Decimal
import AccelObserver.Library.Double
import AccelObserver.Library.CNumber
import AccelObserver.Library.Rounding
import AccelObserver.Library.Binary64
import AccelObserver.Library.Ledger
import AccelObserver.Library.OutStream
import AccelObserver.Library.JsonNumber
import AccelObserver.Library.JsonText
import AccelObserver.Library.JsonFields
import AccelObserver.Library.FixedFormat
import AccelObserver.Library.CInteger
import AccelObserver.Library.IntegerTexts
import AccelObserver.Library.CString
import AccelObserver.Library.Single
import AccelObserver.Library.FlatObject
import AccelObserver.Library.FlatFields
import AccelObserver.Library.Numerals
import AccelObserver.Library.HalfAway
import AccelObserver.Library.Jumps
import AccelObserver.Library.Extremes
import AccelObserver.Library.Lines
import AccelObserver.Library.HttpMessage
import AccelObserver.Library.Split
import AccelObserver.Library.TextLines
import AccelObserver.Library.Search
import AccelObserver.Library.FirstMatch
import AccelObserver.Library.Families
import AccelObserver.Library.XorShift
import AccelObserver.Library.Base64Text
import AccelObserver.Library.SecureHash
import AccelObserver.Crypto.Sha1
import AccelObserver.Crypto.Sha1Checked
import AccelObserver.Crypto.Sha1Conformance
import AccelObserver.Crypto.Base64
import AccelObserver.Crypto.Base64RoundTrip
import AccelObserver.Shared.ConfParser
import AccelObserver.Shared.ConfDocument
import AccelObserver.Shared.ConfReaders
import AccelObserver.Shared.ConfLookup
import AccelObserver.Shared.ConfPieces
import AccelObserver.Shared.ConfComments
import AccelObserver.Shared.ConfValues
import AccelObserver.Shared.ConfLines
import AccelObserver.Shared.ConfDump
import AccelObserver.Client.WsTransport
import AccelObserver.Client.WsHandshake
import AccelObserver.Client.SensorData
import AccelObserver.Client.Generator
import AccelObserver.Client.SensorSim
import AccelObserver.Client.WsSession
import AccelObserver.Client.MqttConnect
import AccelObserver.Client.ConfArgparse
import AccelObserver.Client.ConfValidator
import AccelObserver.Client.SendLoop
import AccelObserver.Client.SensorRange
import AccelObserver.Client.Process
import AccelObserver.Server.ServerTypes
import AccelObserver.Server.ConfLoader
import AccelObserver.Server.ConfFrame
import AccelObserver.Server.CliArgs
import AccelObserver.Server.CliGroups
import AccelObserver.Server.CliConfigPath
import AccelObserver.Server.ConfRange
import AccelObserver.Server.NumberReaders
import AccelObserver.Server.WsSubscriber
import AccelObserver.Server.WsFrameLoop
import AccelObserver.Server.WsHandshake
import AccelObserver.Server.WsServer
import AccelObserver.Server.PacketValidator
import AccelObserver.Server.RangeGate
import AccelObserver.Server.FieldLookup
import AccelObserver.Server.FieldOrder
import AccelObserver.Server.WrittenIntegers
import AccelObserver.Server.SensorDevice
import AccelObserver.Server.StatsAnalyzer
import AccelObserver.Server.LossCounting
import AccelObserver.Server.StatsReference
import AccelObserver.Server.RateWindow
import AccelObserver.Server.AndroidSequence
import AccelObserver.Server.RingBuffer
import AccelObserver.Server.RingRefinement
import AccelObserver.Server.StorageManager
import AccelObserver.Server.StorageLedger
import AccelObserver.Server.CsvFormatter
import AccelObserver.Server.CsvRestarts
import AccelObserver.Server.CsvRows
import AccelObserver.Server.StorageRuns
import AccelObserver.Server.SubscriberStop
import AccelObserver.Server.WebStream
import AccelObserver.Server.BroadcastDecoding
import AccelObserver.Server.WebPongs
import AccelObserver.Server.WebUpgrade
import AccelObserver.Server.UpgradeRequests
import AccelObserver.Server.UpgradeAnswers
import AccelObserver.Server.UpgradeVariants
import AccelObserver.Server.UpgradePairs
import AccelObserver.Server.UpgradeSteady
import AccelObserver.Server.DeviceFrame
import AccelObserver.Server.BufferSizes
import AccelObserver.Server.BufferReaders
import AccelObserver.Server.HttpAnswers
import AccelObserver.Server.WebClients
import AccelObserver.Server.WebClientList
import AccelObserver.Server.WebBroadcast
import AccelObserver.Server.PacketCallback
import AccelObserver.Server.MqttSubscriber
import AccelObserver.Server.WebFrames
import AccelObserver.Server.FrameRuns
import AccelObserver.Server.ServerProgram
import AccelObserver.Server.ProgramRuns
import AccelObserver.Server.SteadyStream
import AccelObserver.Server.Startup
import AccelObserver.EndToEnd.Handshake
import AccelObserver.EndToEnd.HandshakeReplies
import AccelObserver.EndToEnd.WsStream
import AccelObserver.EndToEnd.JsonRecords
import AccelObserver.EndToEnd.JsonClassification
import AccelObserver.EndToEnd.Records
import AccelObserver.EndToEnd.Session
import AccelObserver.EndToEnd.ClientRun
import AccelObserver.EndToEnd.SensorAccepted
import AccelObserver.EndToEnd.BrokerRun
