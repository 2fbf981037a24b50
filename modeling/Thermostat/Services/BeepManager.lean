import Thermostat.Drivers.TimDriver

/-!
# `Services.BeepManager` — the timed beep

`BeepManager` of `BeepManager.hpp`. It owns the piezo's PWM output in the model; the dispatcher, which
drives the same output, goes through the `driver` field.
-/

namespace Thermostat

structure BeepManager where
  driver : PwmDriver
  endTime : UInt32
  active : Bool
  freq : Nat
deriving DecidableEq, Repr

namespace BeepManager

def new (driver : PwmDriver) : BeepManager := ⟨driver, 0, false, 0⟩

/-- Start a beep with the default frequency and duration. -/
def requestBeep (b : BeepManager) (now : UInt32) : BeepManager where
  driver := (b.driver.setPower Config.beepPowerPercent).setFrequency Config.beepFrequencyHz
  endTime := now + Config.beepDurationMs
  active := true
  freq := Config.beepFrequencyHz

def poll (b : BeepManager) (now : UInt32) : BeepManager :=
  if !b.active then b
  else if now < b.endTime then b
  else { b with driver := b.driver.setPower 0, active := false }

end BeepManager
end Thermostat
