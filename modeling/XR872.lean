import XR872.Library.BitView
import XR872.Library.WriteOnce
import XR872.Library.Buffer
import XR872.Library.Run
import XR872.Library.Fallible
import XR872.Library.Bitmap
import XR872.Library.Trace
import XR872.Chip.Efuse
import XR872.Chip.EfuseRead
import XR872.Chip.EfuseWrite
import XR872.Efpg.Region
import XR872.Efpg.RegionSpec
import XR872.Efpg.RegionAgreement
import XR872.Efpg.Boot
import XR872.Efpg.BootHash
import XR872.Efpg.BootAgreement
import XR872.Efpg.Field
import XR872.Efpg.Digest
import XR872.Efpg.Frame
import XR872.Efpg.Task
import XR872.Efpg.TaskSpec
import XR872.Efpg.Receive
import XR872.Efpg.Order
import XR872.Efpg.Authorization
import XR872.SmartConfig.Decode
import XR872.SmartConfig.DecodeSpec
import XR872.SmartConfig.Count
import XR872.SmartConfig.Fields
import XR872.SmartConfig.Bounds
import XR872.SmartConfig.Safety
import XR872.SmartConfig.Decoding
import XR872.SmartConfig.RoundTrip
import XR872.AtCmd.Queue
import XR872.Library.Lines
import XR872.AtCmd.Command
import XR872.AtCmd.Parse
import XR872.AtCmd.Framing
import XR872.AtCmd.QueueUse
import XR872.Library.Circle
import XR872.SysCtrl.Container
import XR872.SysCtrl.Calls
import XR872.SysCtrl.Conservation
import XR872.SysCtrl.EventQueue
import XR872.SysCtrl.WakeUps
import XR872.Library.Collect
import XR872.VoicePrint.Assembly
import XR872.VoicePrint.Completion
import XR872.Library.Chain
import XR872.SysCtrl.Publisher
import XR872.SysCtrl.Membership
import XR872.SysCtrl.Serving
import XR872.SysCtrl.Delivery
import XR872.SysCtrl.Payload
import XR872.SysCtrl.Ownership
import XR872.Library.Memory
import XR872.AtCmd.Parameter
import XR872.AtCmd.Config
import XR872.AtCmd.ParameterSpec
import XR872.AtCmd.ConfigSpec
import XR872.AtCmd.ConfigFrame
import XR872.AtCmd.ValueText
import XR872.AtCmd.ConfigText
import XR872.Library.MachineInt
import XR872.Mbuf.Mbuf
import XR872.Mbuf.Memory
import XR872.Mbuf.Geometry
import XR872.Library.Slots
import XR872.Mbuf.Accounting
import XR872.Library.Blocks
import XR872.Library.Packing
import XR872.Crypto.Hash
import XR872.Crypto.HashSplit
import XR872.Crypto.Cipher
import XR872.Crypto.CipherPath
import XR872.Library.RecursiveMutex
import XR872.Crypto.Running
import XR872.Crypto.Suspend
import XR872.Image.Image
import XR872.Bootloader.Load
import XR872.Bootloader.Window
import XR872.Bootloader.Select
import XR872.Ota.Download
import XR872.Ota.Landing
import XR872.Ota.Service
import XR872.Ota.Commit
import XR872.Ota.PowerLoss
import XR872.Audio.Pcm
import XR872.Audio.Cache
import XR872.Library.RunLength
import XR872.Infrared.Nec
import XR872.Infrared.Recut
import XR872.Infrared.RoundTrip
import XR872.Console.Console
import XR872.Console.Turns
import XR872.Console.Moves
import XR872.Console.Ownership
import XR872.Console.Service
import XR872.Console.Framing
import XR872.Heap.Trace
import XR872.Heap.Table
import XR872.Heap.Live
import XR872.Heap.Invariant
import XR872.Spi.Divider
import XR872.Spi.Port
import XR872.Spi.Session
import XR872.Spi.Promise
import XR872.I2s.Playback
import XR872.I2s.Handing
import XR872.I2s.Stream
import XR872.I2s.Recording
import XR872.I2s.Buffering
import XR872.Chip.EfusePrograms
import XR872.Chip.EfuseRange
import XR872.AtCmd.CacheBounds
import XR872.SmartConfig.Padding
import XR872.VoicePrint.Copies
import XR872.AtCmd.Grammar
import XR872.AtCmd.GrammarScan
import XR872.AtCmd.GrammarIp
import XR872.AtCmd.GrammarHex
import XR872.AtCmd.GrammarList
import XR872.Mbuf.Content
import XR872.Library.Walk
import XR872.Ota.SectionWalk
import XR872.Ota.DigestRange
import XR872.SmartLink.Session
import XR872.SmartLink.Freeing
import XR872.Player.Player
import XR872.Player.Isolation
import XR872.Player.Tone
import XR872.Crypto.HashPadding
import XR872.Infrared.WholeCodes
import XR872.Library.Pages
import XR872.Psram.Transfer
import XR872.Flash.Device
import XR872.Flash.Program
import XR872.Flash.Modes
import XR872.Spi.ModuleClock
import XR872.Pwm.Period
import XR872.AtCmd.DataMode
import XR872.AtCmd.SocketWrite
import XR872.AtCmd.SocketLine
import XR872.Audio.Card
import XR872.Audio.Undo
import XR872.Console.Respond
import XR872.Library.Calendar
import XR872.Clock.Sntp
import XR872.Clock.WallTime
import XR872.SmartLink.ConnectAp
import XR872.SmartLink.ConnectWait
import XR872.Storage.Mount
import XR872.Button.Calibration
import XR872.Jpeg.Partition
import XR872.Jpeg.Copying
import XR872.Library.Text
import XR872.Cloud.Credentials
import XR872.Cloud.Response
import XR872.Library.Resources
import XR872.SysCtrl.Construction
import XR872.Network.Ping
import XR872.Network.Replies
import XR872.SysCtrl.Lifetimes
import XR872.Wlan.Command
import XR872.Wlan.Values
import XR872.Wlan.Arguments
import XR872.Button.Buttons
import XR872.Button.Pattern
import XR872.Button.Invariant
import XR872.Button.Protocol
import XR872.Psram.HeapRuns
import XR872.Network.DhcpRuns
import XR872.Mqtt.Connect
import XR872.Mqtt.Subscribe
import XR872.Mqtt.Session
import XR872.Xz.Lzma2
