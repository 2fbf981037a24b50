import Thermostat.Lib.Trace
import Thermostat.Lib.Fifo
import Thermostat.Lib.Rounds
import Thermostat.Lib.Server
import Thermostat.Lib.Bytes
import Thermostat.Lib.Word
import Thermostat.Lib.Clock
import Thermostat.Config
import Thermostat.Utils.PID
import Thermostat.Utils.Button
import Thermostat.Drivers.TimDriver
import Thermostat.Drivers.HT1621
import Thermostat.Drivers.TwiDriver
import Thermostat.Drivers.DS18B20
import Thermostat.Drivers.UsartDriver
import Thermostat.Services.BeepManager
import Thermostat.App.Event
import Thermostat.Services.ButtonsManager
import Thermostat.Services.Controller
import Thermostat.App.AppContext
import Thermostat.App.AppLoop
import Thermostat.Services.Correctness.Heating
import Thermostat.Services.Correctness.Runs
import Thermostat.Services.Correctness.HeaterSafety
import Thermostat.Services.Correctness.ModeInvariant
import Thermostat.Services.Correctness.InertEvents
import Thermostat.Drivers.Correctness.TwiCompletion
import Thermostat.Drivers.Correctness.TwiBus
import Thermostat.Drivers.Correctness.TwiDirection
import Thermostat.Drivers.Correctness.Cycle
import Thermostat.Drivers.Correctness.Freshness
import Thermostat.App.Correctness.Delivery
import Thermostat.Utils.Correctness.Debounce
import Thermostat.Utils.Correctness.ExactPID
import Thermostat.Services.Correctness.Gestures
import Thermostat.Services.Correctness.Colder
import Thermostat.Services.Correctness.Restart
import Thermostat.Services.Correctness.Drawing
import Thermostat.Services.Correctness.SetpointScreen
import Thermostat.Drivers.Correctness.Glyphs
import Thermostat.Services.Correctness.DisplayTruth
import Thermostat.App.Correctness.Beep
import Thermostat.Drivers.Correctness.UsartTransmission
import Thermostat.Drivers.Correctness.UsartReception
import Thermostat.App.Correctness.UartKeys
import Thermostat.App.Correctness.Samples
import Thermostat.Drivers.Correctness.Numerals
import Thermostat.Drivers.Correctness.Icons
import Thermostat.Drivers.Correctness.Pulses
import Thermostat.Lib.Crc
import Thermostat.Drivers.Correctness.Frames
import Thermostat.Drivers.Correctness.Temperature
import Thermostat.Utils.Correctness.Holding
import Thermostat.Services.Correctness.Combination
import Thermostat.Services.Correctness.ExactRegulator
import Thermostat.Drivers.Correctness.FlushStream
import Thermostat.Drivers.Correctness.PwmArithmetic
import Thermostat.Drivers.Correctness.Redraw
import Thermostat.Drivers.Correctness.SerialNumber
import Thermostat.Lib.Cut
import Thermostat.Drivers.Correctness.ReadStr
import Thermostat.App.Correctness.Latency
import Thermostat.App.Correctness.ControllerRuns
import Thermostat.App.Correctness.HeatSource
import Thermostat.Drivers.Correctness.Panel
import Thermostat.Drivers.Correctness.Dates
import Thermostat.App.Correctness.ReadOut
import Thermostat.App.Correctness.Measurements
import Thermostat.Services.Correctness.BootOutput
import Thermostat.App.Correctness.TickCount
import Thermostat.Drivers.Correctness.PinMap
import Thermostat.Drivers.BusTimer
import Thermostat.Drivers.Correctness.BusPulses
import Thermostat.Drivers.Correctness.SensorBus
import Thermostat.App.Correctness.Instrument
