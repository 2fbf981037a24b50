/-!
# `Config` — the firmware's configuration constants

The constants of `config.h` that the modelled code reads, under the same names.
-/

namespace Thermostat
namespace Config

/-- Length of a key press simulated from the serial port, in ms. -/
def uartButtonPressDurationMs : UInt32 := 50
def eventQueueMaxSize : Nat := 16
/-- Number of timer interrupts per `Tick100ms` event. -/
def appLoopTicksPer100ms : UInt8 := 100

def piezoPrescaler : Nat := 47
def piezoArr : Nat := 499
def heaterPrescaler : Nat := 47
def heaterArr : Nat := 999

def beepPowerPercent : Int := 500
def beepFrequencyHz : Nat := 3000
def beepDurationMs : UInt32 := 50

/-! Temperatures are in tenths of a degree. -/

def controllerSetpointDefault : Int := 400
def controllerSetpointMin : Int := -95
def controllerSetpointMax : Int := 995
def controllerSetpointDisplayDurationMs : UInt32 := 3000
def controllerErrorDelta : Int := 30
def controllerPidSamplePeriodMs : Nat := 1000
def controllerPidOutMin : Int := 0
def controllerPidOutMax : Int := 1000
def controllerPidIntegrMin : Int := -2000
def controllerPidIntegrMax : Int := 2000
def controllerPidKp : Int := 40000
def controllerPidKi : Int := 500
def controllerPidKd : Int := 300

def buttonsDoubleClickGapMs : UInt32 := 250
def buttonsComboLongThresholdMs : UInt32 := 400

end Config
end Thermostat
