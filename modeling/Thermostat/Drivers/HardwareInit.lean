import Thermostat.Drivers.GpioDriver
import Thermostat.Drivers.HT1621

/-!
# `Drivers.HardwareInit` — the pins of the board

What `hardware_init` (`hardware_init.cpp`) and the constructors and `Init` functions that it calls do to the pins,
in the order in which they do it. Where the source leaves out arguments of `GpioDriver::Init`, its defaults are
written.
-/

namespace Thermostat

open GpioDriver

/-- `UsartDriver::Init`. -/
def UsartDriver.pins : List (GpioDriver × Call) :=
  [ (⟨.A, 10⟩, .init .alternate .openDrain .none .low),
    (⟨.A, 10⟩, .setAlternateFunction 1),
    (⟨.A, 9⟩, .init .alternate .openDrain .none .low),
    (⟨.A, 9⟩, .setAlternateFunction 1) ]

/-- `TwiDriver::init`. -/
def TwiDriver.pins : List (GpioDriver × Call) :=
  [ (⟨.B, 6⟩, .init .alternate .openDrain .none .low),
    (⟨.B, 6⟩, .setAlternateFunction 1),
    (⟨.B, 7⟩, .init .alternate .openDrain .none .low),
    (⟨.B, 7⟩, .setAlternateFunction 1) ]

/-- The pins that `hardware_init` sets up itself: the LEDs, the light, the charger and the buzzer. -/
def ledPins : List (GpioDriver × Call) :=
  [ (⟨.A, 5⟩, .init .output .pushPull .none .medium),
    (⟨.A, 5⟩, .reset),
    (⟨.A, 6⟩, .init .alternate .pushPull .none .high),
    (⟨.A, 6⟩, .setAlternateFunction 1),
    (⟨.A, 11⟩, .init .output .pushPull .none .medium),
    (⟨.A, 11⟩, .reset),
    (⟨.B, 0⟩, .init .output .pushPull .none .medium),
    (⟨.B, 0⟩, .reset),
    (⟨.A, 15⟩, .init .input .openDrain .none .low),
    (⟨.B, 1⟩, .init .alternate .pushPull .none .high),
    (⟨.B, 1⟩, .setAlternateFunction 0) ]

namespace HT1621B

/-- The pin that carries a line. -/
def gpio : Pin → GpioDriver
  | .cs    => ⟨.B, 5⟩
  | .write => ⟨.B, 4⟩
  | .data  => ⟨.B, 3⟩

/-- The constructor makes the three pins outputs. -/
def pins : List (GpioDriver × Call) :=
  [ (gpio .cs, .init .output .pushPull .none .high),
    (gpio .write, .init .output .pushPull .none .high),
    (gpio .data, .init .output .pushPull .none .high) ]

/-- A level written to a line. -/
def level (l : Pin × Bool) : GpioDriver × Call := (gpio l.1, if l.2 then .set else .reset)

end HT1621B

/-- The pin of `DS18B20::init`, which writes the registers itself. -/
def DS18B20.initPin (g : Gpio) : Gpio :=
  (g.enableClock .A).write .A fun r =>
    { r with
      moder := (r.moder &&& ~~~(3#32 <<< (8 * 2))) ||| (2#32 <<< (8 * 2))
      otyper := r.otyper &&& ~~~(1#32 <<< 8)
      ospeedr := r.ospeedr ||| (3#32 <<< (8 * 2))
      pupdr := r.pupdr &&& ~~~(3#32 <<< (8 * 2))
      afr1 := (r.afr1 &&& ~~~(0xF#32 <<< ((8 - 8) * 4))) ||| (0x2#32 <<< ((8 - 8) * 4)) }

/-- The constructor of `ButtonsManager`, with those of its four buttons. -/
def ButtonsManager.pins : List (GpioDriver × Call) :=
  [ (⟨.A, 1⟩, .init .input .openDrain .up .low),
    (⟨.A, 2⟩, .init .input .openDrain .up .low),
    (⟨.A, 3⟩, .init .input .openDrain .up .low),
    (⟨.A, 4⟩, .init .input .openDrain .up .low) ]

/-- What `hardware_init` does to the pins. The display's constructor and the call of `Init` behind it also write
    their commands and the image to the lines. -/
def hardwareInit (g : Gpio) : Gpio :=
  let g := g.run UsartDriver.pins
  let g := g.run TwiDriver.pins
  let g := g.run ledPins
  let g := g.run (HT1621B.pins ++ HT1621B.new.init.line.map HT1621B.level)
  let g := DS18B20.initPin g
  g.run ButtonsManager.pins

end Thermostat
