import Thermostat.App.AppContext

/-!
# `App.AppLoop` — one iteration of the main loop

`app_loop` of `app_loop.cpp`, as a sequence of stages. An `Iteration` is everything the outside decides
during one call: the interrupts, the levels of the keys, and the tick counts that are read.

Interrupts are taken at three places: at the head, before each look at the receive buffer, and before
the timer is looked at. No other place needs any: what an interrupt changes, the calls in between do not
read.
-/

namespace Thermostat

open Config

/-- One look at the receive buffer: the interrupts before it, and the tick count for the key's release. -/
structure Arrival where
  irqs : List App.Interrupt
  now : UInt32
deriving DecidableEq, Repr

structure Iteration where
  head : List App.Interrupt
  keys : KeyReadings
  ctrlNow : UInt32
  beepNow : UInt32
  releaseNow : UInt32
  arrivals : List Arrival
  lateNow : UInt32
  timer : List App.Interrupt
  dispatchNow : UInt32
deriving DecidableEq, Repr

namespace App

/-! ## Low-level polling -/

/-- The part of a sensor effect that the application sees. -/
def sensorEffect : DS18B20.Effect → App → App × List Effect
  | .tempReady temp, a => a.ds18b20TempReady temp
  | _,               a => (a, [])

/-- The callbacks come in the middle of `poll`, which does not read what they change. -/
def pollSensor (a : App) : App × List Effect :=
  let (sensor, es) := a.sensor.poll
  Trace.seq (es.map sensorEffect) { a with sensor := sensor }

def pollButtons (keys : KeyReadings) (a : App) : App × List Effect :=
  let (buttons, es) := a.buttons.poll keys
  Trace.seq (es.map (push .buttons)) { a with buttons := buttons }

def pollCtrl (now : UInt32) (a : App) : App × List Effect := ({ a with ctrl := a.ctrl.poll now }, [])

def pollBeep (now : UInt32) (a : App) : App × List Effect :=
  ({ a with ctrl := { a.ctrl with beep := a.ctrl.beep.map (·.poll now) } }, [])

/-! ## The keys `1` to `4` of the serial port -/

/-- Push the pending release if its time has come. -/
def releaseKey (now : UInt32) (a : App) : App × List Effect :=
  match a.pendingUartRelease with
  | some e =>
      if now ≥ a.pendingUartReleaseDeadline then
        let (a, es) := a.push .uart e
        ({ a with pendingUartRelease := none }, es)
      else (a, [])
  | none => (a, [])

/-- The button that a byte stands for. -/
def keyOf (byte : Int) : Option EventType :=
  if byte = 0x31 then some .buttonS1
  else if byte = 0x32 then some .buttonS2
  else if byte = 0x33 then some .buttonS3
  else if byte = 0x34 then some .buttonS4
  else none

/-- Push the press at once and plan the release; one that is pending already is replaced. -/
def pressKey (byte : Int) (now : UInt32) (a : App) : App × List Effect :=
  match keyOf byte with
  | none => (a, [])
  | some type =>
      let (a, es) := a.push .uart ⟨type, 0⟩
      ({ a with
        pendingUartRelease := some ⟨type, 2⟩
        pendingUartReleaseDeadline := now + uartButtonPressDurationMs }, es)

/-- The loop over the receive buffer. -/
def readKeys : List Arrival → App → App × List Effect
  | [],      a => (a, [])
  | x :: xs, a =>
      let a := a.interrupts x.irqs
      if a.uart.hasData then
        let (uart, byte) := a.uart.readByte
        let a := { a with uart := uart }
        if byte < 0 then (a, [])
        else Trace.seq [pressKey byte x.now, readKeys xs] a
      else (a, [])

/-- Looks at the buffer without interrupts, enough to empty it. -/
def quiet (now : UInt32) : List Arrival := List.replicate 32 ⟨[], now⟩

/-! ## Timer, event processing, watchdog -/

/-- Consume one timer interrupt; every hundredth one is an event. -/
def timerTick (a : App) : App × List Effect :=
  if a.tim17.getIrqCount ≠ 0 then
    let a := { a with tim17 := a.tim17.decIrqCount, tick100 := a.tick100 + 1 }
    if a.tick100 ≥ appLoopTicksPer100ms then { a with tick100 := 0 }.push .timer ⟨.tick100ms, 0⟩
    else (a, [])
  else (a, [])

def processQueue (now : UInt32) (a : App) : App × List Effect :=
  match EventQueue.pop a.queue with
  | (queue, some e) => { a with queue := queue }.dispatchEvent e now
  | (_, none)       => (a, [])

def iwdgReload (a : App) : App × List Effect := (a, [.iwdgReload])

/-- Interrupts are a stage without effects. -/
def take (is : List Interrupt) (a : App) : App × List Effect := (a.interrupts is, [])

end App

open App in
/-- One call of `app_loop`. -/
def appLoop (a : App) (i : Iteration) : App × List App.Effect :=
  Trace.seq
    [ take i.head,
      pollSensor,
      pollButtons i.keys,
      pollCtrl i.ctrlNow,
      pollBeep i.beepNow,
      releaseKey i.releaseNow,
      readKeys (i.arrivals ++ quiet i.lateNow),
      take i.timer,
      timerTick,
      processQueue i.dispatchNow,
      iwdgReload ] a

namespace App

/-! ## The receive loop is never cut short -/

@[simp] theorem pressKey_uart (byte : Int) (now : UInt32) (a : App) :
    (pressKey byte now a).1.uart = a.uart := by
  unfold pressKey
  cases keyOf byte <;> rfl

/-- A look that finds a byte handles it and looks again. -/
theorem readKeys_cons {x : Arrival} {a : App} {byte : UInt8} {bytes : List UInt8}
    (h : (a.interrupts x.irqs).uart.rxBuf.items = byte :: bytes) (xs : List Arrival) :
    ∃ a', a'.uart.rxBuf.items = bytes ∧ a'.queue = a.queue ∧
      readKeys (x :: xs) a = Trace.seq [pressKey byte.toNat x.now, readKeys xs] a' := by
  refine ⟨{ a.interrupts x.irqs with
    uart := { (a.interrupts x.irqs).uart with rxBuf := (a.interrupts x.irqs).uart.rxBuf.pop } },
    ?_, ?_, ?_⟩
  · simp [h]
  · exact interrupts_queue a x.irqs
  · rw [readKeys]
    simp only [UsartDriver.hasData_cons h, if_true, UsartDriver.readByte_cons h]
    -- a byte is never negative: the guard against the `-1` of an empty buffer does not fire
    rw [if_neg (by omega)]

/-- A look that finds nothing ends the loop. -/
theorem readKeys_empty {x : Arrival} {a : App} (h : (a.interrupts x.irqs).uart.rxBuf.items = [])
    (xs : List Arrival) : readKeys (x :: xs) a = (a.interrupts x.irqs, []) := by
  rw [readKeys]
  simp [UsartDriver.hasData_nil h]

theorem readKeys_quiet (now : UInt32) (n : Nat) {a : App} (h : a.uart.rxBuf.items.length ≤ n) :
    (readKeys (List.replicate n ⟨[], now⟩) a).1.uart.rxBuf.items = [] := by
  induction n generalizing a with
  | zero => exact List.length_eq_zero_iff.mp (Nat.le_zero.mp h)
  | succ n ih =>
      rw [List.replicate_succ]
      cases hitems : a.uart.rxBuf.items with
      | nil =>
          rw [readKeys_empty (x := ⟨[], now⟩) hitems]
          exact hitems
      | cons byte bytes =>
          obtain ⟨a', hbytes, -, hloop⟩ := readKeys_cons (x := ⟨[], now⟩) hitems (List.replicate n ⟨[], now⟩)
          rw [hloop, Trace.seq_cons, Trace.seq_cons, Trace.seq_nil]
          apply ih
          rw [pressKey_uart, hbytes]
          rw [hitems, List.length_cons] at h
          exact Nat.le_of_succ_le_succ h

/-- **The loop over the receive buffer ends with the buffer empty**, whatever arrives meanwhile. -/
theorem readKeys_drains (xs : List Arrival) (now : UInt32) (a : App) :
    (readKeys (xs ++ quiet now) a).1.uart.rxBuf.items = [] := by
  induction xs generalizing a with
  | nil => exact readKeys_quiet now 32 a.uart.rxBuf.bound
  | cons x xs ih =>
      rw [List.cons_append]
      cases hitems : (a.interrupts x.irqs).uart.rxBuf.items with
      | nil =>
          rw [readKeys_empty hitems]
          exact hitems
      | cons byte bytes =>
          obtain ⟨a', -, -, hloop⟩ := readKeys_cons hitems (xs ++ quiet now)
          rw [hloop]
          apply ih

end App
end Thermostat
