import GreenHouse.Lib.CInt
import GreenHouse.Lib.CText
import GreenHouse.Lib.Mealy
import GreenHouse.Lib.Window
import GreenHouse.Lib.Hysteresis
import GreenHouse.World
import GreenHouse.Control
import GreenHouse.Topics
import GreenHouse.Update
import GreenHouse.Init
import GreenHouse.Clock
import GreenHouse.Fan
import GreenHouse.Settings.Boot
import GreenHouse.Drip.Calls
import GreenHouse.Drip.Loop
import GreenHouse.Drip.Solo
import GreenHouse.Drip.Window
import GreenHouse.Drip.Edit
import GreenHouse.Drip.View
import GreenHouse.Drip.Report
import GreenHouse.Drip.Coils
import GreenHouse.Mqtt.Handler
import GreenHouse.Mqtt.Effects
import GreenHouse.Mqtt.Reading
import GreenHouse.Mqtt.Routing
import GreenHouse.Mqtt.Payload
import GreenHouse.Mqtt.Memory
import GreenHouse.Settings.ClockText
import GreenHouse.Settings.Registers
import GreenHouse.Settings.Reject
import GreenHouse.Settings.FanPoint
import GreenHouse.FanState
import GreenHouse.Lib.Loop
import GreenHouse.Sync
import GreenHouse.Drip.Latch
import GreenHouse.Resync
import GreenHouse.Drip.Correction
import GreenHouse.Nvs
import GreenHouse.Sensor
import GreenHouse.History
import GreenHouse.Telemetry
import GreenHouse.Buffers
import GreenHouse.Lib.Varint
import GreenHouse.Dht11.Wire
import GreenHouse.Dht11.Calls
import GreenHouse.System.Board
import GreenHouse.System.Effects
import GreenHouse.System.Invariants
import GreenHouse.System.Runs
import GreenHouse.Mqtt.Packet
import GreenHouse.Mqtt.Receive
import GreenHouse.Mqtt.Deliver
import GreenHouse.Mqtt.Bounds
import GreenHouse.Mqtt.Transmit
import GreenHouse.Mqtt.Session
import GreenHouse.Mqtt.Stream
