import Mochad.BitErrors
import Mochad.Bridge
import Mochad.ClientLines
import Mochad.Delivery
import Mochad.Descriptors
import Mochad.DeviceAddress
import Mochad.DeviceHistory
import Mochad.DimLevel
import Mochad.Duplicates
import Mochad.EarlyExit
import Mochad.Eviction
import Mochad.Footprint
import Mochad.FullQueue
import Mochad.Getsensors
import Mochad.Hexdump
import Mochad.Lifecycle
import Mochad.LineBuffer
import Mochad.Listener
import Mochad.OutputQueue
import Mochad.PassThrough
import Mochad.PlcHouses
import Mochad.PollTimeout
import Mochad.Rejected
import Mochad.RfCommands
import Mochad.RoundTrip
import Mochad.SecurityAddress
import Mochad.Selection
import Mochad.SelfAddressed
import Mochad.SensorKinds
import Mochad.SensorNames
import Mochad.SensorTable
import Mochad.Sensors
import Mochad.Transport
import Mochad.UnknownWords
import Mochad.UseAfterClose
import Mochad.Watchers
