import Thermostat.Config

/-!
# `Drivers.TimDriver` — the interrupt-counting timer and the PWM output

`TimDriver` and `PwmDriver` of `TimDriver.hpp`. The registers keep the 16 bits the hardware holds, as
naturals; `setFrequency` cuts `psc` and `arr` to `uint16_t` where the source does.
-/

namespace Thermostat

/-- A basic timer: the main loop consumes the interrupts it counts. -/
structure TimDriver where
  irqCount : UInt16
deriving DecidableEq, Repr

namespace TimDriver

/-- The update interrupt: `uif` is the update flag found in the status register. -/
def handleIRQ (t : TimDriver) (uif : Bool) : TimDriver :=
  if uif then { t with irqCount := t.irqCount + 1 } else t

def getIrqCount (t : TimDriver) : UInt16 := t.irqCount

def decIrqCount (t : TimDriver) : TimDriver :=
  if t.irqCount > 0 then { t with irqCount := t.irqCount - 1 } else t

end TimDriver

/-- A PWM output on one timer channel. -/
structure PwmDriver where
  channel : Nat
  psc : Nat
  arr : Nat
  ccr1 : Nat
deriving DecidableEq, Repr

namespace PwmDriver

/-- `Init` on a fresh timer. -/
def init (channel prescaler autoReload : Nat) : PwmDriver where
  channel := channel
  psc := prescaler
  arr := autoReload
  ccr1 := 0

/-- Set the duty cycle, in thousandths of the period. -/
def setPower (d : PwmDriver) (value : Int) : PwmDriver :=
  let value := if value < 0 then 0 else value
  let value := if value > 1000 then 1000 else value
  let ccr := d.arr * value.toNat / 1000
  if d.channel = 1 then { d with ccr1 := ccr } else d

/-- Set the period for a tone of `frequency` Hz at half duty. -/
def setFrequency (d : PwmDriver) (frequency : Nat) : PwmDriver :=
  if frequency = 0 then { d with ccr1 := 0 }
  else
    let timClk := 48000000
    let period := timClk / frequency
    let psc := (period / 65535 + 1) % 65536
    let arr := (period / psc) % 65536
    { d with psc := (psc + 65535) % 65536, arr := (arr + 65535) % 65536, ccr1 := arr / 2 }

end PwmDriver
end Thermostat
