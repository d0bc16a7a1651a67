import SscOnWindows.Lib.KeyedList
import SscOnWindows.Lib.Loan
import SscOnWindows.Lib.Machine
import SscOnWindows.Lib.CircularQueue
import SscOnWindows.Lib.WrapRing
import SscOnWindows.Lib.Scan
import SscOnWindows.Lib.BoundedMap
import SscOnWindows.Codec.Policy
import SscOnWindows.Codec.Negotiation
import SscOnWindows.Transport.State
import SscOnWindows.Transport.Machine
import SscOnWindows.Transport.MediaQueue
import SscOnWindows.Transport.Connect
import SscOnWindows.Transport.Requests
import SscOnWindows.Transport.Freshness
import SscOnWindows.Transport.LinkKeyDb
import SscOnWindows.Transport.Pieces
import SscOnWindows.Transport.MediaPath
import SscOnWindows.Pipeline.PcmRing
import SscOnWindows.Pipeline.EncodeThread
import SscOnWindows.Pipeline.Chunking
import SscOnWindows.Encoder.Backend
import SscOnWindows.Lib.ByteStream
import SscOnWindows.Encoder.SscEncoder
import SscOnWindows.Encoder.Watchdog
import SscOnWindows.Encoder.Daemon
import SscOnWindows.Encoder.Correspondence
import SscOnWindows.Lib.ByteNetwork
import SscOnWindows.Lib.Blocks
import SscOnWindows.Encoder.Wire
import SscOnWindows.Encoder.Interchange
import SscOnWindows.Lib.Packing
import SscOnWindows.Pipeline.Packetize
import SscOnWindows.Pipeline.Timestamps
import SscOnWindows.Encoder.SbcEncoder
import SscOnWindows.Pipeline.SbcFrames
import SscOnWindows.Pipeline.UpsampledClock
import SscOnWindows.Pipeline.Downmix
import SscOnWindows.Service.Worker
import SscOnWindows.Service.Lifecycle
import SscOnWindows.Pipeline.Reconnect
import SscOnWindows.Pipeline.FlushInvariant
import SscOnWindows.Pipeline.ReconnectFlush
import SscOnWindows.Service.Cancel
import SscOnWindows.Service.Teardown
import SscOnWindows.Service.Calls
import SscOnWindows.Service.HonestState
import SscOnWindows.Service.DefaultDevice
import SscOnWindows.Cli.RunStreaming
import SscOnWindows.Service.DeviceCaps
import SscOnWindows.Service.ProfileStore
import SscOnWindows.Service.DeviceAddress
import SscOnWindows.Service.KeyFreshness
import SscOnWindows.Service.SavedDevices
import SscOnWindows.Encoder.Override
import SscOnWindows.Lib.Stores
import SscOnWindows.Pipeline.Resampler
import SscOnWindows.Pipeline.UpsampleBuffers
import SscOnWindows.Encoder.Capacity
import SscOnWindows.Lib.HexFields
import SscOnWindows.Service.AddressGrammar
import SscOnWindows.Service.KeyCodec
import SscOnWindows.Service.ProfileKeys
import SscOnWindows.Encoder.LseAtomics
import SscOnWindows.Lib.Binary32
import SscOnWindows.Pipeline.PcmScale
import SscOnWindows.Lib.Latest
import SscOnWindows.Transport.SscCapability
import SscOnWindows.Service.ScanMerge
import SscOnWindows.Lib.RefCount
import SscOnWindows.Encoder.WinsockBalance
import SscOnWindows.Pipeline.StreamStats
import SscOnWindows.Lib.FlagLoan
import SscOnWindows.Service.OutputMute
import SscOnWindows.Service.ProfileDialog
import SscOnWindows.Lib.Json
import SscOnWindows.Service.ConfigFiles
import SscOnWindows.Lib.JsonText
import SscOnWindows.Service.ConfigLoad
import SscOnWindows.Transport.LinkKeySave
import SscOnWindows.Lib.Arena
import SscOnWindows.Tools.LibcShim
import SscOnWindows.Lib.Struct
import SscOnWindows.Tools.Golden
import SscOnWindows.Pipeline.Capture
import SscOnWindows.Pipeline.CapturedAudio
import SscOnWindows.Driver.Inf
import SscOnWindows.Driver.Mode
import SscOnWindows.Driver.Packages
import SscOnWindows.Firmware.Adapters
import SscOnWindows.Firmware.Files
