import Thermostat.Drivers.DS18B20
import Thermostat.Drivers.UsartDriver
import Thermostat.Services.ButtonsManager
import Thermostat.Services.Controller
import Thermostat.Lib.Trace

/-!
# `App.AppContext` — the application and its callbacks

`App` of `AppContext.hpp` with the objects that the main loop uses. The controller owns the display, the
heater, and the beeper, which in turn owns the piezo: `app.beep` and `app.piezo` are reached through it.
The static variables of `app_loop` are fields here.

Besides the state, the model records what happens to the event queue: every push with its producer and
its result, and every event that is dispatched.
-/

namespace Thermostat

open Config

/-- The parts of the program that push events. -/
inductive Producer where
  | sensor
  | buttons
  | uart
  | timer
deriving DecidableEq, Repr

inductive App.Effect where
  | push (producer : Producer) (e : Event) (ok : Bool)
  | dispatch (e : Event)
  | iwdgReload
deriving DecidableEq, Repr

structure App where
  uart : UsartDriver 64 32
  tim17 : TimDriver
  sensor : DS18B20
  buttons : ButtonsManager
  queue : EventQueue
  ctrl : Controller
  pendingUartRelease : Option Event
  pendingUartReleaseDeadline : UInt32
  tick100 : UInt8

namespace App

/-- The application as `hardware_init` and `services_init` leave it, with the greeting still in the
    transmit buffer. -/
def boot : App where
  uart := (UsartDriver.init.writeStr "System ready.\r\n".toList).1
  tim17 := ⟨0⟩
  sensor := DS18B20.init
  buttons := ButtonsManager.new
  queue := Fifo.empty
  ctrl := Controller.new (some ⟨Bytes.zeros 32, []⟩)
    (some (BeepManager.new (PwmDriver.init 1 piezoPrescaler piezoArr)))
    (some (PwmDriver.init 1 heaterPrescaler heaterArr))
  pendingUartRelease := none
  pendingUartReleaseDeadline := 0
  tick100 := 0

/-! ## Interrupts and hardware -/

/-- What happens beside the main loop: the sensor's timer and DMA, the serial port, the timer. -/
inductive Interrupt where
  | capture (v : UInt16)
  | expire
  | arrive (byte : UInt8)
  | transmitted
  | usart1
  | tim17 (uif : Bool)
deriving DecidableEq, Repr

def interrupt (a : App) : Interrupt → App
  | .capture v   => { a with sensor := a.sensor.capture v }
  | .expire      => { a with sensor := a.sensor.expire }
  | .arrive byte => { a with uart := { a.uart with usart1 := a.uart.usart1.arrive byte } }
  | .transmitted => { a with uart := { a.uart with usart1 := a.uart.usart1.transmitted } }
  | .usart1      => { a with uart := a.uart.handleIRQ }
  | .tim17 uif   => { a with tim17 := a.tim17.handleIRQ uif }

def interrupts (a : App) (is : List Interrupt) : App := is.foldl interrupt a

theorem interrupt_queue (a : App) (i : Interrupt) : (a.interrupt i).queue = a.queue := by
  cases i <;> rfl

@[simp] theorem interrupts_queue (a : App) (is : List Interrupt) :
    (a.interrupts is).queue = a.queue := by
  induction is generalizing a with
  | nil => rfl
  | cons i is ih =>
      show ((a.interrupt i).interrupts is).queue = a.queue
      rw [ih, interrupt_queue]

/-! ## Events -/

/-- `app.queue->push`; every caller ignores the result. -/
def push (producer : Producer) (e : Event) (a : App) : App × List Effect :=
  let (queue, ok) := EventQueue.push a.queue e
  ({ a with queue := queue }, [.push producer e ok])

/-- The sensor's callback: an error code becomes a message, a temperature an event. -/
def ds18b20TempReady (temp : Int) (a : App) : App × List Effect :=
  if temp = DS18B20.tempErrorNoSensor then
    ({ a with uart := (a.uart.writeStr "DS18B20 error: no sensor detected.\r\n".toList).1 }, [])
  else if temp = DS18B20.tempErrorCrcFail then
    ({ a with uart := (a.uart.writeStr "DS18B20 error: CRC check failed.\r\n".toList).1 }, [])
  else if temp = DS18B20.tempErrorGeneric then
    ({ a with uart := (a.uart.writeStr "DS18B20 error: generic failure.\r\n".toList).1 }, [])
  else a.push .sensor ⟨.temperatureReady, temp⟩

def setPiezoPower (a : App) (power : Int) : App :=
  { a with ctrl := { a.ctrl with
      beep := a.ctrl.beep.map (fun b => { b with driver := b.driver.setPower power }) } }

def isButton (type : EventType) : Bool :=
  type = .buttonS1 ∨ type = .buttonS2 ∨ type = .buttonS3 ∨ type = .buttonS4

/-- Sound the piezo while a button is pressed, and hand the event to the controller. -/
def dispatchEvent (e : Event) (now : UInt32) (a : App) : App × List Effect :=
  let a :=
    if isButton e.type then
      if e.value = 0 then a.setPiezoPower 500
      else if e.value = 2 then a.setPiezoPower 0 else a
    else a
  ({ a with ctrl := a.ctrl.processEvent e now }, [.dispatch e])

theorem dispatchEvent_queue (e : Event) (now : UInt32) (a : App) :
    (dispatchEvent e now a).1.queue = a.queue := by
  unfold dispatchEvent
  split_ifs <;> rfl

end App
end Thermostat
