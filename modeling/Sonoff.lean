import Sonoff.Base.Machine
import Sonoff.Base.Threads
import Sonoff.Base.NorFlash
import Sonoff.Base.Lines
import Sonoff.Base.Calendar
import Sonoff.Utils.SoftSdk
import Sonoff.Ota.ParseInvariant
import Sonoff.Ota.ParseAdvance
import Sonoff.Ota.ParseStream
import Sonoff.Ota.Handlers
import Sonoff.Ota.FlashWrite
import Sonoff.Ota.PackageReceive
import Sonoff.Ota.DataHandling
import Sonoff.Ota.PackageFormat
import Sonoff.Ota.PackageTable
import Sonoff.Ota.PackageParse
import Sonoff.Ota.PackageAccept
import Sonoff.Ota.SessionFlash
import Sonoff.Ota.System
import Sonoff.Ota.SystemMoves
import Sonoff.Ota.SystemSession
import Sonoff.Ota.SessionRecord
import Sonoff.Ota.StartIsolation
import Sonoff.Ota.QueueAccounting
import Sonoff.Ota.CommitSafety
import Sonoff.Ota.Admission
import Sonoff.Ota.Notifications
import Sonoff.Ota.AbortFinality
import Sonoff.Ota.HttpRequest
import Sonoff.Ota.Channels
import Sonoff.Ota.ChannelMoves
import Sonoff.Ota.CoreCallers
import Sonoff.Ota.CoreFacts
import Sonoff.Ota.EventFlow
import Sonoff.Ota.ChannelCore
import Sonoff.Ota.ChannelCallback
import Sonoff.Ota.ChannelCalls
import Sonoff.Ota.VerifiedSession
import Sonoff.Ota.MatterAbort
import Sonoff.Ota.ChannelIsolation
import Sonoff.Base.Fallible
import Sonoff.Utils.Base64
import Sonoff.Utils.Sha256
import Sonoff.Nvdm.Text
import Sonoff.Nvdm.Store
import Sonoff.Nvdm.License
import Sonoff.Nvdm.LicenseConsistency
import Sonoff.Nvdm.SecureCert
import Sonoff.Nvdm.SecureCertStore
import Sonoff.Nvdm.SecureSession
import Sonoff.Nvdm.SoftMbedtls
import Sonoff.Nvdm.SingleUse
import Sonoff.Nvdm.SingleFault
import Sonoff.Nvdm.RoundTrip
import Sonoff.Net.Manager
import Sonoff.Net.FinalState
import Sonoff.Matter.ImageProcessor
import Sonoff.Matter.BlockReassembly
import Sonoff.BuildTool.PackOta
import Sonoff.BuildTool.PackLayout
import Sonoff.BuildTool.PackAccept
import Sonoff.Ota.ChunkFlow
import Sonoff.Ota.Mirrors
import Sonoff.Ota.LentChunks
import Sonoff.Ota.LentBuffers
import Sonoff.Ota.BuffersReturned
import Sonoff.Ota.ChunkOutcome
import Sonoff.Ota.MatterWrite
import Sonoff.Ota.UploadBytes
import Sonoff.Ota.ReceivedBytes
import Sonoff.Ota.UploadChunks
import Sonoff.Ota.UploadFidelity
import Sonoff.Ota.ParseSafety
import Sonoff.Ota.HttpScan
import Sonoff.Nvdm.PeerKey
import Sonoff.Nvdm.LicenseBinding
import Sonoff.Nvdm.Numerals
import Sonoff.Ota.ContentLength
import Sonoff.Nvdm.MatterItems
import Sonoff.Nvdm.DecimalItems
import Sonoff.Nvdm.CertDeclaration
import Sonoff.Nvdm.Port
import Sonoff.Nvdm.Defaults
import Sonoff.Nvdm.UserReset
import Sonoff.Cli.FactoryData
import Sonoff.Cli.FactoryDataReadBack
import Sonoff.Net.UdpTest
import Sonoff.Net.UdpReport
import Sonoff.Net.LossAccounting
import Sonoff.Net.PowerSave
import Sonoff.Http.Cgi
import Sonoff.Http.Clock
import Sonoff.Wifi.Adapter
import Sonoff.Wifi.AdapterModes
import Sonoff.Wifi.Manager
import Sonoff.Wifi.LinkState
import Sonoff.Matter.FlashNamespaceCut
import Sonoff.Matter.FlashNamespaceLong
import Sonoff.Thread.RadioTransmit
