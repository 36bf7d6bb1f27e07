import RenesasDemo.Framework.Runs
import RenesasDemo.Framework.Table
import RenesasDemo.Framework.CString
import RenesasDemo.Framework.Compaction
import RenesasDemo.Framework.StableCompaction
import RenesasDemo.Framework.SlotCompaction
import RenesasDemo.Mqtt.CallbackCompaction
import RenesasDemo.Ota.ClientIdentifier
import RenesasDemo.Tls.CertInfo
import RenesasDemo.Framework.LittleEndian
import RenesasDemo.Framework.Der
import RenesasDemo.Framework.Heap
import RenesasDemo.Framework.Segments
import RenesasDemo.Framework.Base64
import RenesasDemo.Framework.Words
import RenesasDemo.Framework.Numerals
import RenesasDemo.Framework.Printf
import RenesasDemo.Mqtt.SubscriptionTable
import RenesasDemo.Mqtt.SubscribeSync
import RenesasDemo.Mqtt.SubscribeSpec
import RenesasDemo.Mqtt.UnSubscribeSpec
import RenesasDemo.Mqtt.Delivery
import RenesasDemo.Mqtt.BrokerAgreement
import RenesasDemo.Mqtt.CommandQueue
import RenesasDemo.Mqtt.AgentTask
import RenesasDemo.Mqtt.SubscriptionCompaction
import RenesasDemo.Mqtt.DisconnectAck
import RenesasDemo.Mqtt.SubscribeOutcome
import RenesasDemo.Mqtt.SubscribeTarget
import RenesasDemo.Mqtt.FailedCalls
import RenesasDemo.Mqtt.CommandPool
import RenesasDemo.KVStore.Cache
import RenesasDemo.KVStore.CacheSpec
import RenesasDemo.KVStore.Littlefs
import RenesasDemo.KVStore.CacheInit
import RenesasDemo.KVStore.Ownership
import RenesasDemo.KVStore.Files
import RenesasDemo.KVStore.Api
import RenesasDemo.KVStore.Defaults
import RenesasDemo.KVStore.HeapGetters
import RenesasDemo.KVStore.MapLaw
import RenesasDemo.KVStore.StartUp
import RenesasDemo.KVStore.Commit
import RenesasDemo.KVStore.DurableWrite
import RenesasDemo.KVStore.Persistence
import RenesasDemo.KVStore.CommitHistory
import RenesasDemo.Ota.FragmentList
import RenesasDemo.Ota.FragmentPointers
import RenesasDemo.Ota.ImageState
import RenesasDemo.Ota.PageAssembly
import RenesasDemo.Ota.FragmentNodes
import RenesasDemo.Ota.PageSearch
import RenesasDemo.Ota.PagePairs
import RenesasDemo.Ota.PageProperty
import RenesasDemo.Ota.NodeAccess
import RenesasDemo.Ota.WriteBlock
import RenesasDemo.Ota.WriteOutcomes
import RenesasDemo.Ota.KeptBytes
import RenesasDemo.Ota.ImageIntegrity
import RenesasDemo.Ota.EventBuffers
import RenesasDemo.Ota.FileLifecycle
import RenesasDemo.Ota.FinishedWrites
import RenesasDemo.Ota.FlashOutcomes
import RenesasDemo.Ota.FlashingTask
import RenesasDemo.Ota.FirmwareHeader
import RenesasDemo.Ota.HeaderSignature
import RenesasDemo.Pki.Pkcs11
import RenesasDemo.Pki.SoundSuccess
import RenesasDemo.Pki.PsaStorage
import RenesasDemo.Pki.PsaPublicKey
import RenesasDemo.Pki.PublicKeyRoundTrip
import RenesasDemo.Pki.Pkcs11Module
import RenesasDemo.Pki.CertificateObjects
import RenesasDemo.Pki.CertificateStore
import RenesasDemo.Pki.Asn1Write
import RenesasDemo.Pki.PsaUtil
import RenesasDemo.Pki.EcdsaSignature
import RenesasDemo.Shadow.ShadowDevice
import RenesasDemo.Framework.Newest
import RenesasDemo.Framework.LinkedList
import RenesasDemo.Shadow.DeltaVersions
import RenesasDemo.Shadow.ReportDocument
import RenesasDemo.Tls.NotifyThread
import RenesasDemo.Tls.SocketSend
import RenesasDemo.Tls.Transport
import RenesasDemo.Tls.TransportInvariant
import RenesasDemo.Tls.TransportStateMachine
import RenesasDemo.Tls.CaChain
import RenesasDemo.Cli.Console
import RenesasDemo.Cli.PemExport
import RenesasDemo.Cli.PemImport
import RenesasDemo.Cli.PemReading
import RenesasDemo.Cli.PemSafety
import RenesasDemo.Cli.PemRoundTrip
import RenesasDemo.Cli.Readline
import RenesasDemo.Cli.Tokenizer
import RenesasDemo.Cli.Help
import RenesasDemo.Cli.Kill
import RenesasDemo.Logging.LogLine
import RenesasDemo.Framework.ErrorChain
import RenesasDemo.Defender.MetricsCollector
import RenesasDemo.Defender.ReportShape
import RenesasDemo.Defender.ReportOutcome
import RenesasDemo.Cli.Configure
import RenesasDemo.Cli.ConfigureSafety
import RenesasDemo.Cli.ConfigureDisplay
import RenesasDemo.Cli.ConfigureValues
import RenesasDemo.Sys.PortHeap
import RenesasDemo.Sys.NewlibcStubs
import RenesasDemo.Entropy.HardwarePoll
import RenesasDemo.Framework.Crc
import RenesasDemo.Fs.LfsCrc
import RenesasDemo.Framework.Mailbox
import RenesasDemo.Sensors.MotionSensors
import RenesasDemo.Defender.ReportTask
import RenesasDemo.Ota.MqttPublish
import RenesasDemo.KVStore.Interleaving
import RenesasDemo.Tls.NotifyHandover
import RenesasDemo.Framework.NorFlash
import RenesasDemo.Fs.LfsPort
import RenesasDemo.Framework.Custody
import RenesasDemo.Mqtt.AgentLifecycle
