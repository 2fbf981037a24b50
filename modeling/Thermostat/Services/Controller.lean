import Thermostat.App.Event
import Thermostat.Drivers.HT1621
import Thermostat.Services.BeepManager
import Thermostat.Utils.PID

/-!
# `Services.Controller` — the table-driven thermostat

`Controller` of `Controller.hpp`/`Controller.cpp`. The three device pointers are options (`none` is the
null pointer) and the controller owns what they point to. Every entry point takes the tick `now` that
`GetMsTicks` returns during the call.

`heaterLog` is a history variable: the powers passed to `m_heater->setPower`, newest first. No function
of the controller reads it.
-/

namespace Thermostat

open Config

namespace Controller

/-- The modes of the automaton. `any` is the table's wildcard, `computeState` the marker (`0xFF`) for a
    target that the action computes. -/
inductive State where
  | idle
  | heating
  | error
  | any
  | computeState
deriving DecidableEq, Repr

def setpointStep : Int := 5
def pidDeadband : Int := 1

/-- The regulator a controller is built with. -/
def initialPid : PIDInt :=
  PIDInt.new controllerPidKp controllerPidKi controllerPidKd controllerPidOutMin controllerPidOutMax
    controllerPidIntegrMin controllerPidIntegrMax controllerPidSamplePeriodMs pidDeadband

end Controller

structure Controller where
  setpoint : Int
  current : Int
  state : Controller.State
  showingSetpoint : Bool
  setpointDisplayDeadline : UInt32
  heaterPower : Int
  lastPidTimestamp : UInt32
  s1Held : Bool
  s2Held : Bool
  pid : PIDInt
  display : Option HT1621B
  beep : Option BeepManager
  heater : Option PwmDriver
  heaterLog : List Int
deriving DecidableEq, Repr

namespace Controller

/-- A freshly constructed controller. -/
def new (display : Option HT1621B) (beep : Option BeepManager) (heater : Option PwmDriver) :
    Controller where
  setpoint := controllerSetpointDefault
  current := 0
  state := .idle
  showingSetpoint := false
  setpointDisplayDeadline := 0
  heaterPower := 0
  lastPidTimestamp := 0
  s1Held := false
  s2Held := false
  pid := initialPid
  display := display
  beep := beep
  heater := heater
  heaterLog := []

/-! ## Display -/

/-- The text of `displayTemperature`: `t`, the label, a blank, and three characters for the value. -/
def temperatureText (label : Char) (value : Int) : List Char :=
  let clamped := if value < -99 then -99 else if value > 999 then 999 else value
  let negative := clamped < 0
  let magnitude := (if negative then -clamped else clamped).toNat
  let whole := magnitude / 10
  let frac := magnitude % 10
  let digit := fun n => Char.ofNat ('0'.toNat + n)
  if negative then
    let tens := if whole < 10 then digit whole else digit ((if whole > 99 then 99 else whole) / 10)
    ['t', label, ' ', '-', tens, digit frac]
  else
    let whole := if whole > 99 then 99 else whole
    ['t', label, ' ', digit (whole / 10), digit (whole % 10), digit frac]

def displayTemperature (s : Controller) (label : Char) (value : Int) : Controller :=
  match s.display with
  | none => s
  | some d =>
      let d := d.clearSegArea false
      let d := d.showString (temperatureText label value) false
      { s with display := some (d.showDot 1 true true) }

def displayCurrentTemperature (s : Controller) : Controller :=
  let s := { s with showingSetpoint := false }
  s.displayTemperature '1' s.current

def displaySetpointTemperature (s : Controller) : Controller :=
  s.displayTemperature '2' s.setpoint

/-! ## State management -/

/-- The mode that the temperatures call for. -/
def evaluateState (s : Controller) : State :=
  if s.current > s.setpoint + controllerErrorDelta then .error
  else if s.current < s.setpoint then .heating
  else .idle

/-- Re-apply the heater power: `0` in the error mode, the last computed power otherwise. -/
def updateOutputsFor (s : Controller) (state : State) : Controller :=
  let error := state = .error
  let power := if error then 0 else s.heaterPower
  let power := if power < 0 then 0 else power
  let power := if power > 1000 then 1000 else power
  match s.heater with
  | none => s
  | some h => { s with heater := some (h.setPower power), heaterLog := power :: s.heaterLog }

def applyState (s : Controller) (newState : State) (now : UInt32) : Controller :=
  let previous := s.state
  let s := { s with state := newState }
  let s :=
    if newState = .error then { s with heaterPower := 0, pid := s.pid.reset }
    -- on leaving the error mode only the time base is set; the regulator was emptied on entering it
    else if previous = .error then { s with lastPidTimestamp := now }
    else s
  s.updateOutputsFor newState

def computeHeatingPower (s : Controller) (dtMs : UInt32) : Controller × Int :=
  let (pid, power) := s.pid.update s.setpoint s.current dtMs.toNat
  ({ s with pid := pid }, power)

def timeReached (now deadline : UInt32) : Bool := Word.reached now deadline

/-- Leave the setpoint screen when its time is over. -/
def ensureDisplayTimeout (s : Controller) (now : UInt32) : Controller :=
  if !s.showingSetpoint then s
  else if timeReached now s.setpointDisplayDeadline then
    let s := s.displayCurrentTemperature
    s.applyState s.evaluateState now
  else s

/-! ## Guards and actions -/

def guardHeld (_ : Controller) (e : Event) : Bool := e.value = 1
def guardClickS1 (s : Controller) (e : Event) : Bool := e.value = 2 ∧ !s.s1Held
def guardClickS2 (s : Controller) (e : Event) : Bool := e.value = 2 ∧ !s.s2Held

/-- `actionTemperatureSample`, first half: store the sample, and draw it unless the setpoint shows. -/
def storeSample (s : Controller) (e : Event) : Controller :=
  let s := { s with current := e.value }
  if !s.showingSetpoint then s.displayCurrentTemperature else s

/-- `actionTemperatureSample`, second half outside the error mode: let the regulator compute the power
    over the time since its last step, starting afresh when the error mode is being left. -/
def regulate (s : Controller) (now : UInt32) : Controller :=
  let s :=
    if s.state = .error then
      { s with pid := s.pid.reset, heaterPower := 0, lastPidTimestamp := now }
    else s
  let dt := now - s.lastPidTimestamp
  let dt := if dt = 0 then 1 else dt
  let s := { s with lastPidTimestamp := now }
  let (s, power) := s.computeHeatingPower dt
  { s with heaterPower := power }

def actionTemperatureSample (s : Controller) (e : Event) (now : UInt32) : Controller × State :=
  let s := s.storeSample e
  let next := s.evaluateState
  if next ≠ .error then (s.regulate now, next) else ({ s with heaterPower := 0 }, next)

/-- What both setpoint actions do once the setpoint has its new value. -/
def afterSetpointChange (s : Controller) (now : UInt32) : Controller × State :=
  let s := { s with
    showingSetpoint := true
    setpointDisplayDeadline := now + controllerSetpointDisplayDurationMs }
  let s := s.displaySetpointTemperature
  let s := { s with pid := s.pid.reset, heaterPower := 0, lastPidTimestamp := now }
  (s, s.evaluateState)

def actionDecreaseSetpoint (s : Controller) (now : UInt32) : Controller × State :=
  let sp := s.setpoint - setpointStep
  let sp := if sp < controllerSetpointMin then controllerSetpointMin else sp
  afterSetpointChange { s with setpoint := sp } now

def actionIncreaseSetpoint (s : Controller) (now : UInt32) : Controller × State :=
  let sp := s.setpoint + setpointStep
  let sp := if sp > controllerSetpointMax then controllerSetpointMax else sp
  afterSetpointChange { s with setpoint := sp } now

def actionPIDTick (s : Controller) : Controller × State :=
  let s := s.updateOutputsFor s.state
  (s, s.state)

def actionBeep (s : Controller) (e : Event) (now : UInt32) : Controller × State :=
  match s.beep with
  | some b =>
      if e.value = 0 then ({ s with beep := some (b.requestBeep now) }, s.state) else (s, s.state)
  | none => (s, s.state)

/-! ## The transition table -/

inductive Guard where
  | held
  | clickS1
  | clickS2
deriving DecidableEq, Repr

inductive Action where
  | temperatureSample
  | decreaseSetpoint
  | increaseSetpoint
  | pidTick
  | beep
deriving DecidableEq, Repr

def Guard.holds : Guard → Controller → Event → Bool
  | .held,    s, e => s.guardHeld e
  | .clickS1, s, e => s.guardClickS1 e
  | .clickS2, s, e => s.guardClickS2 e

def Action.perform : Action → Controller → Event → UInt32 → Controller × State
  | .temperatureSample, s, e, now => s.actionTemperatureSample e now
  | .decreaseSetpoint,  s, _, now => s.actionDecreaseSetpoint now
  | .increaseSetpoint,  s, _, now => s.actionIncreaseSetpoint now
  | .pidTick,           s, _, _   => s.actionPIDTick
  | .beep,              s, e, now => s.actionBeep e now

/-- A row of the table; a missing guard always holds. -/
structure Transition where
  signal : EventType
  source : State
  guard : Option Guard
  action : Action
  target : State
deriving DecidableEq, Repr

def transitions : List Transition := [
  ⟨.tick100ms,        .idle,    none,          .pidTick,           .idle⟩,
  ⟨.tick100ms,        .heating, none,          .pidTick,           .heating⟩,
  ⟨.temperatureReady, .any,     none,          .temperatureSample, .computeState⟩,
  ⟨.buttonS1,         .any,     some .clickS1, .decreaseSetpoint,  .computeState⟩,
  ⟨.buttonS1,         .any,     some .held,    .decreaseSetpoint,  .computeState⟩,
  ⟨.buttonS2,         .any,     some .clickS2, .increaseSetpoint,  .computeState⟩,
  ⟨.buttonS2,         .any,     some .held,    .increaseSetpoint,  .computeState⟩,
  ⟨.buttonS1,         .any,     none,          .beep,              .any⟩,
  ⟨.buttonS2,         .any,     none,          .beep,              .any⟩,
  ⟨.buttonS3,         .any,     none,          .beep,              .any⟩,
  ⟨.buttonS4,         .any,     none,          .beep,              .any⟩ ]

/-- The row applies to the event in the current state. -/
def Transition.matches (t : Transition) (s : Controller) (e : Event) : Bool :=
  (t.signal = e.type ∨ t.signal = .any) ∧ (t.source = s.state ∨ t.source = .any) ∧
  t.guard.all (fun g => g.holds s e)

/-- Take a row: its action computes the target, or only runs for its side effects. -/
def Transition.fire (t : Transition) (s : Controller) (e : Event) (now : UInt32) : Controller :=
  if t.target = .computeState then
    let (s, next) := t.action.perform s e now
    s.applyState next now
  else
    -- the target of the row is applied as it stands, the wildcard included
    let (s, _) := t.action.perform s e now
    s.applyState t.target now

/-! ## Entry points -/

/-- The hold flags follow the press and hold codes of S1 and S2. -/
def updateHeld (s : Controller) (e : Event) : Controller :=
  let s :=
    if e.type = .buttonS1 then
      if e.value = 0 then { s with s1Held := false }
      else if e.value = 1 then { s with s1Held := true } else s
    else s
  if e.type = .buttonS2 then
    if e.value = 0 then { s with s2Held := false }
    else if e.value = 1 then { s with s2Held := true } else s
  else s

/-- The first row that matches fires; without one the event is dropped. -/
def processEvent (s : Controller) (e : Event) (now : UInt32) : Controller :=
  let s := s.updateHeld e
  match transitions.find? (fun t => t.matches s e) with
  | some t => t.fire s e now
  | none => s

def poll (s : Controller) (now : UInt32) : Controller := s.ensureDisplayTimeout now

def init (s : Controller) (now : UInt32) : Controller :=
  let s := { s with
    current := s.setpoint
    showingSetpoint := false
    setpointDisplayDeadline := 0
    pid := s.pid.reset
    heaterPower := 0
    lastPidTimestamp := now }
  let s := s.applyState s.evaluateState now
  s.displayCurrentTemperature

end Controller
end Thermostat
