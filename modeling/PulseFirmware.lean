import PulseFirmware.Lib.Flash
import PulseFirmware.Lib.CString
import PulseFirmware.Lib.Run
import PulseFirmware.Lib.Stream
import PulseFirmware.Lib.Printf
import PulseFirmware.Lib.Streak
import PulseFirmware.Globals
import PulseFirmware.Cmd
import PulseFirmware.LineFraming
import PulseFirmware.Writes
import PulseFirmware.Overflow
import PulseFirmware.Recognition
import PulseFirmware.AddressText
import PulseFirmware.Settings
import PulseFirmware.AddressGrammar
import PulseFirmware.Storage
import PulseFirmware.Footprint
import PulseFirmware.SaveFlash
import PulseFirmware.Commands
import PulseFirmware.LineRuns
import PulseFirmware.CopyBounds
import PulseFirmware.StoredArguments
import PulseFirmware.IpconfigRefused
import PulseFirmware.TestEthernet
import PulseFirmware.CommandEffects
import PulseFirmware.Progress
import PulseFirmware.Phase
import PulseFirmware.Network
import PulseFirmware.WifiConnect
import PulseFirmware.Device
import PulseFirmware.Boots
import PulseFirmware.Updates
import PulseFirmware.AddressSave
import PulseFirmware.Reports
import PulseFirmware.Resting
import PulseFirmware.Durability
import PulseFirmware.StaticAddress
import PulseFirmware.RequestDelivery
import PulseFirmware.Routing
import PulseFirmware.BleSerial
import PulseFirmware.BleOrder
import PulseFirmware.BleConservation
import PulseFirmware.TlsInput
import PulseFirmware.TlsOutput
import PulseFirmware.Lib.Chain
import PulseFirmware.Pbuf
import PulseFirmware.Reception
import PulseFirmware.Reassembly
import PulseFirmware.PbufOwnership
import PulseFirmware.FrameDelivery
import PulseFirmware.Lib.Ring
import PulseFirmware.Enc28j60
import PulseFirmware.Enc28j60Transfer
import PulseFirmware.Enc28j60Ring
import PulseFirmware.Enc28j60Receive
import PulseFirmware.Enc28j60Setup
import PulseFirmware.Enc28j60Send
import PulseFirmware.Enc28j60Link
import PulseFirmware.Sensors
import PulseFirmware.SensorReports
import PulseFirmware.SensorFrames
import PulseFirmware.HttpRequest
import PulseFirmware.RequestText
import PulseFirmware.SocketTask
import PulseFirmware.StaleReport
import PulseFirmware.InternetReports
import PulseFirmware.RestartSystem
import PulseFirmware.Lib.Bits
import PulseFirmware.Lib.Lfsr
import PulseFirmware.LineTemperature
import PulseFirmware.BurstErrors
import PulseFirmware.CachedBytes
import PulseFirmware.AirSensors
import PulseFirmware.DeadSensors
import PulseFirmware.Onewire
import PulseFirmware.OnewireTransfer
import PulseFirmware.ConnectAddress
