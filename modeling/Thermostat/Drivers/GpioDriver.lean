import Thermostat.Lib.Fields

/-!
# `Drivers.GpioDriver` — pins and ports

`GpioDriver` of `GpioDriver.hpp`, with the registers of the ports and the clock bits that it uses. A port whose
clock is off ignores what is written to it. `BSRR` and `BRR` are write-only: what is modelled is their effect on
`ODR`.
-/

namespace Thermostat

/-- `GPIOA` to `GPIOF`; the device has no `GPIOE`. -/
inductive Port where
  | A
  | B
  | C
  | D
  | F
deriving DecidableEq, Repr

structure GpioRegs where
  moder : BitVec 32
  otyper : BitVec 32
  ospeedr : BitVec 32
  pupdr : BitVec 32
  odr : BitVec 32
  afr0 : BitVec 32
  afr1 : BitVec 32
deriving DecidableEq, Repr

/-- All ports, and the bits of `RCC->AHBENR` that switch their clocks on. -/
structure Gpio where
  regs : Port → GpioRegs
  ahbenr : Port → Bool

namespace Gpio

def enableClock (g : Gpio) (p : Port) : Gpio :=
  { g with ahbenr := fun q => if q = p then true else g.ahbenr q }

/-- Write registers of one port. -/
def write (g : Gpio) (p : Port) (f : GpioRegs → GpioRegs) : Gpio :=
  if g.ahbenr p then { g with regs := fun q => if q = p then f (g.regs p) else g.regs q } else g

end Gpio

structure GpioDriver where
  port : Port
  pin : Fin 16
deriving DecidableEq, Repr

namespace GpioDriver

inductive Mode where
  | input
  | output
  | alternate
  | analog
deriving DecidableEq, Repr

inductive OutType where
  | pushPull
  | openDrain
deriving DecidableEq, Repr

inductive Pull where
  | none
  | up
  | down
deriving DecidableEq, Repr

inductive Speed where
  | low
  | medium
  | high
deriving DecidableEq, Repr

def Mode.bits : Mode → BitVec 2
  | .input     => 0b00
  | .output    => 0b01
  | .alternate => 0b10
  | .analog    => 0b11

def OutType.bits : OutType → BitVec 1
  | .pushPull  => 0
  | .openDrain => 1

def Pull.bits : Pull → BitVec 2
  | .none => 0b00
  | .up   => 0b01
  | .down => 0b10

def Speed.bits : Speed → BitVec 2
  | .low    => 0b00
  | .medium => 0b01
  | .high   => 0b10

def pinMask (d : GpioDriver) : BitVec 32 := 1#32 <<< d.pin.val

def pinPos (d : GpioDriver) : Nat := d.pin.val * 2

/-- A two-bit field of this pin, masked out and set. -/
def field2 (d : GpioDriver) (r : BitVec 32) (bits : BitVec 2) : BitVec 32 :=
  (r &&& ~~~(0b11#32 <<< d.pinPos)) ||| (bits.setWidth 32 <<< d.pinPos)

def init (d : GpioDriver) (mode : Mode) (type : OutType) (pull : Pull) (speed : Speed) (g : Gpio) : Gpio :=
  (g.enableClock d.port).write d.port fun r =>
    { r with
      moder := d.field2 r.moder mode.bits
      otyper := (r.otyper &&& ~~~d.pinMask) ||| (type.bits.setWidth 32 <<< d.pin.val)
      pupdr := d.field2 r.pupdr pull.bits
      ospeedr := d.field2 r.ospeedr speed.bits }

def set (d : GpioDriver) (g : Gpio) : Gpio := g.write d.port fun r => { r with odr := r.odr ||| d.pinMask }

def reset (d : GpioDriver) (g : Gpio) : Gpio := g.write d.port fun r => { r with odr := r.odr &&& ~~~d.pinMask }

def toggle (d : GpioDriver) (g : Gpio) : Gpio := g.write d.port fun r => { r with odr := r.odr ^^^ d.pinMask }

/-- The level of the pin, `idr` being the input register of its port. -/
def read (d : GpioDriver) (idr : BitVec 32) : Bool := idr &&& d.pinMask != 0

def setAlternateFunction (d : GpioDriver) (af : BitVec 8) (g : Gpio) : Gpio :=
  (g.enableClock d.port).write d.port fun r =>
    let r := { r with moder := d.field2 r.moder 0b10 }
    if d.pin.val ≤ 7 then
      { r with afr0 := (r.afr0 &&& ~~~(0xF#32 <<< (d.pin.val * 4)))
        ||| ((af &&& 0xF).setWidth 32 <<< (d.pin.val * 4)) }
    else
      let offset := d.pin.val - 8
      { r with afr1 := (r.afr1 &&& ~~~(0xF#32 <<< (offset * 4))) ||| ((af &&& 0xF).setWidth 32 <<< (offset * 4)) }

/-! ## Calls as data -/

/-- The calls that write registers. -/
inductive Call where
  | init (mode : Mode) (type : OutType) (pull : Pull) (speed : Speed)
  | setAlternateFunction (af : BitVec 8)
  | set
  | reset
  | toggle
deriving DecidableEq, Repr

def call (d : GpioDriver) : Call → Gpio → Gpio
  | .init mode type pull speed => d.init mode type pull speed
  | .setAlternateFunction af   => d.setAlternateFunction af
  | .set                       => d.set
  | .reset                     => d.reset
  | .toggle                    => d.toggle

end GpioDriver

/-- A list of calls, one after the other. -/
def Gpio.run (g : Gpio) (calls : List (GpioDriver × GpioDriver.Call)) : Gpio :=
  calls.foldl (fun g c => c.1.call c.2 g) g

end Thermostat
