import Thermostat.Services.Controller

/-!
# `Services.Correctness.Heating` — the heating core of the controller

The controller mixes three concerns: heating, the display and the beeper. This module separates the
first. `Heating` is the memory that can influence the heater, `Heating.event`/`poll`/`init` are its
transitions, stated without a table, a mode or a device; whether the controller is in its error mode is
the only thing it keeps of the automaton.

The faithful controller refines it: `heating` projects a controller to its core, and
`heating_processEvent`, `heating_poll`, `heating_init` say that the projection commutes with every entry
point. Everything proved about heating over whole runs goes through these three equations.
-/

namespace Thermostat

open Config

/-! ## The abstract core -/

/-- The memory that can influence the heater power. -/
structure Heating where
  setpoint : Int
  current : Int
  showing : Bool
  deadline : UInt32
  power : Int
  stamp : UInt32
  s1Held : Bool
  s2Held : Bool
  pid : PIDInt
  inError : Bool
deriving DecidableEq, Repr

namespace Heating

/-- The measured temperature is too far above the setpoint. -/
def tooHot (h : Heating) : Bool := decide (h.current > h.setpoint + controllerErrorDelta)

/-- The mode that the temperatures call for. -/
def mode (h : Heating) : Controller.State :=
  if h.tooHot then .error else if h.current < h.setpoint then .heating else .idle

/-- Enter the error mode (`err`) or a mode that is not the error mode. -/
def enter (h : Heating) (err : Bool) (now : UInt32) : Heating :=
  if err then { h with inError := true, power := 0, pid := h.pid.reset }
  else if h.inError then { h with inError := false, stamp := now }
  else h

def setCurrent (h : Heating) (v : Int) : Heating := { h with current := v }

/-- Switch the heating off and let the regulator forget. -/
def restart (h : Heating) (now : UInt32) : Heating :=
  { h with pid := h.pid.reset, power := 0, stamp := now }

/-- The regulator step of a sample that does not overheat. -/
def regulate (h : Heating) (now : UInt32) : Heating :=
  let h := if h.inError then h.restart now else h
  let dt := if now - h.stamp = 0 then 1 else now - h.stamp
  let step := h.pid.update h.setpoint h.current dt.toNat
  { h with stamp := now, pid := step.1, power := step.2 }

/-- The decision on a sample that has been stored. -/
def decideSample (h : Heating) (now : UInt32) : Heating :=
  if h.tooHot then { h with power := 0 }.enter true now
  else (h.regulate now).enter false now

def sample (h : Heating) (v : Int) (now : UInt32) : Heating := (h.setCurrent v).decideSample now

/-- Show a new setpoint for a while. -/
def showSetpoint (h : Heating) (sp : Int) (now : UInt32) : Heating :=
  { h with
    setpoint := sp
    showing := true
    deadline := now + controllerSetpointDisplayDurationMs }

def changeSetpoint (h : Heating) (sp : Int) (now : UInt32) : Heating :=
  let h := (h.showSetpoint sp now).restart now
  h.enter h.tooHot now

/-- The setpoint one step down, and one step up, inside its limits. -/
def lowered (sp : Int) : Int :=
  if sp - Controller.setpointStep < controllerSetpointMin then controllerSetpointMin
  else sp - Controller.setpointStep

def raised (sp : Int) : Int :=
  if sp + Controller.setpointStep > controllerSetpointMax then controllerSetpointMax
  else sp + Controller.setpointStep

/-- The hold flags follow the press and hold codes of S1 and S2. -/
def hold (h : Heating) (e : Event) : Heating :=
  match e.type with
  | .buttonS1 =>
      { h with s1Held := if e.value = 0 then false else if e.value = 1 then true else h.s1Held }
  | .buttonS2 =>
      { h with s2Held := if e.value = 0 then false else if e.value = 1 then true else h.s2Held }
  | _ => h

/-- What an event asks for, given the hold flags. -/
def action (h : Heating) (e : Event) : Option Controller.Action :=
  match e.type with
  | .temperatureReady => some .temperatureSample
  | .buttonS1 =>
      if e.value = 1 ∨ e.value = 2 ∧ h.s1Held = false then some .decreaseSetpoint else some .beep
  | .buttonS2 =>
      if e.value = 1 ∨ e.value = 2 ∧ h.s2Held = false then some .increaseSetpoint else some .beep
  | .buttonS3 | .buttonS4 => some .beep
  | _ => none

def event (h : Heating) (e : Event) (now : UInt32) : Heating :=
  match h.action e with
  | some .temperatureSample => (h.hold e).sample e.value now
  | some .decreaseSetpoint  => (h.hold e).changeSetpoint (lowered h.setpoint) now
  | some .increaseSetpoint  => (h.hold e).changeSetpoint (raised h.setpoint) now
  | some .beep              => (h.hold e).enter false now
  | some .pidTick           => h.hold e
  | none                    => h.hold e

def poll (h : Heating) (now : UInt32) : Heating :=
  if h.showing ∧ Word.reached now h.deadline = true then
    { h with showing := false }.enter h.tooHot now
  else h

def init (h : Heating) (now : UInt32) : Heating :=
  ({ h with current := h.setpoint, showing := false, deadline := 0 }.restart now).enter false now

theorem action_buttonS1 (h : Heating) (v : Int) :
    h.action ⟨.buttonS1, v⟩
      = if v = 1 ∨ v = 2 ∧ h.s1Held = false then some .decreaseSetpoint else some .beep := rfl

theorem action_buttonS2 (h : Heating) (v : Int) :
    h.action ⟨.buttonS2, v⟩
      = if v = 1 ∨ v = 2 ∧ h.s2Held = false then some .increaseSetpoint else some .beep := rfl

theorem mode_eq_error {h : Heating} : h.mode = .error ↔ h.tooHot = true := by
  unfold mode
  by_cases hhot : h.tooHot = true
  · simp [hhot]
  · by_cases hcold : h.current < h.setpoint <;> simp [hhot, hcold]

/-! ### What the operations leave alone -/

@[simp] theorem hold_setpoint (h : Heating) (e : Event) : (h.hold e).setpoint = h.setpoint := by
  unfold hold
  cases e.type <;> rfl

@[simp] theorem enter_setpoint (h : Heating) (err : Bool) (now : UInt32) :
    (h.enter err now).setpoint = h.setpoint := by
  unfold enter
  split_ifs <;> rfl

@[simp] theorem enter_current (h : Heating) (err : Bool) (now : UInt32) :
    (h.enter err now).current = h.current := by
  unfold enter
  split_ifs <;> rfl

@[simp] theorem regulate_setpoint (h : Heating) (now : UInt32) :
    (h.regulate now).setpoint = h.setpoint := by
  unfold regulate restart
  split_ifs <;> rfl

@[simp] theorem regulate_current (h : Heating) (now : UInt32) :
    (h.regulate now).current = h.current := by
  unfold regulate restart
  split_ifs <;> rfl

@[simp] theorem decideSample_setpoint (h : Heating) (now : UInt32) :
    (h.decideSample now).setpoint = h.setpoint := by
  unfold decideSample
  split_ifs <;> simp

@[simp] theorem decideSample_current (h : Heating) (now : UInt32) :
    (h.decideSample now).current = h.current := by
  unfold decideSample
  split_ifs <;> simp

/-- The mode depends on the two temperatures only. -/
theorem mode_congr {h k : Heating} (hsp : h.setpoint = k.setpoint) (hcur : h.current = k.current) :
    h.mode = k.mode := by
  unfold mode tooHot
  rw [hsp, hcur]

theorem sample_mode (h : Heating) (v : Int) (now : UInt32) :
    (h.sample v now).mode = (h.setCurrent v).mode :=
  mode_congr (decideSample_setpoint _ now) (decideSample_current _ now)

theorem changeSetpoint_mode (h : Heating) (sp : Int) (now : UInt32) :
    (h.changeSetpoint sp now).mode = (h.showSetpoint sp now).mode :=
  mode_congr (enter_setpoint _ _ now) (enter_current _ _ now)

end Heating

/-! ## The projection and the functions that leave it alone -/

namespace Controller

/-- The heating core of a controller. -/
def heating (s : Controller) : Heating where
  setpoint := s.setpoint
  current := s.current
  showing := s.showingSetpoint
  deadline := s.setpointDisplayDeadline
  power := s.heaterPower
  stamp := s.lastPidTimestamp
  s1Held := s.s1Held
  s2Held := s.s2Held
  pid := s.pid
  inError := s.state = .error

/-- Drawing changes the display and nothing else. -/
theorem displayTemperature_eq (s : Controller) (label : Char) (value : Int) :
    ∃ d, s.displayTemperature label value = { s with display := d } := by
  unfold displayTemperature
  cases hd : s.display with
  | none => exact ⟨none, by cases s; simp_all⟩
  | some d => exact ⟨_, rfl⟩

@[simp] theorem displayTemperature_heating (s : Controller) (label : Char) (value : Int) :
    (s.displayTemperature label value).heating = s.heating := by
  obtain ⟨d, hd⟩ := displayTemperature_eq s label value
  rw [hd]
  rfl

@[simp] theorem displayTemperature_state (s : Controller) (label : Char) (value : Int) :
    (s.displayTemperature label value).state = s.state := by
  obtain ⟨d, hd⟩ := displayTemperature_eq s label value
  rw [hd]

/-- Driving the outputs changes the heater and its history, nothing else. -/
theorem updateOutputsFor_eq (s : Controller) (st : State) :
    ∃ h l, s.updateOutputsFor st = { s with heater := h, heaterLog := l } := by
  unfold updateOutputsFor
  cases hh : s.heater with
  | none => exact ⟨none, s.heaterLog, by cases s; simp_all⟩
  | some h => exact ⟨_, _, rfl⟩

/-! ### What the functions change

Each equation names the fields that its function can change. That a field keeps its value is read off it. -/

theorem displayCurrentTemperature_eq (s : Controller) :
    ∃ d, s.displayCurrentTemperature = { s with showingSetpoint := false, display := d } := by
  obtain ⟨d, hd⟩ := displayTemperature_eq { s with showingSetpoint := false } '1' s.current
  exact ⟨d, hd⟩

theorem updateHeld_eq (s : Controller) (e : Event) :
    ∃ s1 s2, s.updateHeld e = { s with s1Held := s1, s2Held := s2 } := by
  unfold updateHeld
  split_ifs <;> exact ⟨_, _, rfl⟩

theorem storeSample_eq (s : Controller) (e : Event) :
    ∃ show' d, s.storeSample e = { s with current := e.value, showingSetpoint := show', display := d } := by
  obtain ⟨d, hd⟩ := displayCurrentTemperature_eq { s with current := e.value }
  unfold storeSample
  simp only
  split_ifs
  · exact ⟨_, _, hd⟩
  · exact ⟨_, _, rfl⟩

theorem regulate_eq (s : Controller) (now : UInt32) :
    ∃ pid power, s.regulate now = { s with pid := pid, heaterPower := power, lastPidTimestamp := now } := by
  unfold regulate computeHeatingPower
  simp only
  split_ifs <;> exact ⟨_, _, rfl⟩

theorem afterSetpointChange_eq (s : Controller) (now : UInt32) :
    ∃ d, (afterSetpointChange s now).1 = { s with
      showingSetpoint := true
      setpointDisplayDeadline := now + controllerSetpointDisplayDurationMs
      display := d
      pid := s.pid.reset
      heaterPower := 0
      lastPidTimestamp := now } := by
  obtain ⟨d, hd⟩ := displayTemperature_eq { s with
    showingSetpoint := true
    setpointDisplayDeadline := now + controllerSetpointDisplayDurationMs } '2' s.setpoint
  refine ⟨d, ?_⟩
  unfold afterSetpointChange displaySetpointTemperature
  simp only [hd]

theorem actionBeep_eq (s : Controller) (e : Event) (now : UInt32) :
    ∃ b, s.actionBeep e now = ({ s with beep := b }, s.state) := by
  unfold actionBeep
  cases hb : s.beep with
  | none => exact ⟨none, by cases s; simp_all⟩
  | some b =>
      simp only
      split_ifs
      · exact ⟨_, rfl⟩
      · exact ⟨some b, by cases s; simp_all⟩

theorem applyState_eq (s : Controller) (st : State) (now : UInt32) :
    ∃ power pid stamp h l, s.applyState st now = { s with
      state := st
      heaterPower := power
      pid := pid
      lastPidTimestamp := stamp
      heater := h
      heaterLog := l } := by
  unfold applyState
  simp only
  split_ifs
  · obtain ⟨h, l, hl⟩ := updateOutputsFor_eq { s with state := st, heaterPower := 0, pid := s.pid.reset } st
    exact ⟨_, _, _, h, l, hl⟩
  · obtain ⟨h, l, hl⟩ := updateOutputsFor_eq { s with state := st, lastPidTimestamp := now } st
    exact ⟨_, _, _, h, l, hl⟩
  · obtain ⟨h, l, hl⟩ := updateOutputsFor_eq { s with state := st } st
    exact ⟨_, _, _, h, l, hl⟩

@[simp] theorem updateOutputsFor_heating (s : Controller) (st : State) :
    (s.updateOutputsFor st).heating = s.heating := by
  obtain ⟨h, l, hl⟩ := updateOutputsFor_eq s st
  rw [hl]
  rfl

@[simp] theorem updateOutputsFor_state (s : Controller) (st : State) :
    (s.updateOutputsFor st).state = s.state := by
  obtain ⟨h, l, hl⟩ := updateOutputsFor_eq s st
  rw [hl]

/-! ## Spec lemmas of the functions that move the core -/

theorem tooHot_iff {s : Controller} :
    s.heating.tooHot = true ↔ s.current > s.setpoint + controllerErrorDelta := by
  unfold Heating.tooHot
  exact decide_eq_true_iff

theorem evaluateState_eq (s : Controller) : s.evaluateState = s.heating.mode := by
  unfold evaluateState Heating.mode
  by_cases hhot : s.heating.tooHot = true
  · rw [if_pos (tooHot_iff.mp hhot), if_pos hhot]
  · rw [if_neg (mt tooHot_iff.mpr hhot), if_neg hhot]
    rfl

@[simp] theorem applyState_state (s : Controller) (st : State) (now : UInt32) :
    (s.applyState st now).state = st := by
  unfold applyState
  simp only [updateOutputsFor_state]
  split_ifs <;> rfl

theorem applyState_heating (s : Controller) (st : State) (now : UInt32) :
    (s.applyState st now).heating = s.heating.enter (st = .error) now := by
  unfold applyState Heating.enter
  simp only [updateOutputsFor_heating, decide_eq_true_eq]
  by_cases herr : st = .error
  · simp [herr, heating]
  · by_cases hprev : s.state = .error <;> simp [herr, hprev, heating]

theorem updateHeld_heating (s : Controller) (e : Event) :
    (s.updateHeld e).heating = s.heating.hold e := by
  unfold updateHeld Heating.hold
  cases e.type <;> simp only [reduceCtorEq, if_true, if_false] <;> split_ifs <;> rfl

@[simp] theorem updateHeld_state (s : Controller) (e : Event) :
    (s.updateHeld e).state = s.state := by
  obtain ⟨_, _, h⟩ := updateHeld_eq s e
  rw [h]

theorem displayCurrentTemperature_heating (s : Controller) :
    s.displayCurrentTemperature.heating = { s.heating with showing := false } := by
  unfold displayCurrentTemperature
  rw [displayTemperature_heating]
  rfl

@[simp] theorem displayCurrentTemperature_state (s : Controller) :
    s.displayCurrentTemperature.state = s.state := by
  unfold displayCurrentTemperature
  rw [displayTemperature_state]

/-- Storing a sample changes the current temperature of the core; the drawing does not reach it. -/
theorem storeSample_heating (s : Controller) (e : Event) :
    (s.storeSample e).heating = s.heating.setCurrent e.value := by
  unfold storeSample
  cases hshow : s.showingSetpoint with
  | true => simp [Heating.setCurrent, heating, hshow]
  | false =>
      simp only [Bool.not_false, if_true, displayCurrentTemperature_heating]
      simp [Heating.setCurrent, heating, hshow]

theorem regulate_heating (s : Controller) (now : UInt32) :
    (s.regulate now).heating = s.heating.regulate now := by
  unfold regulate Heating.regulate computeHeatingPower
  by_cases herr : s.state = .error <;> simp [herr, heating, Heating.restart]

/-- The sample action, with its decision read off the core of the stored sample. -/
theorem actionTemperatureSample_eq (s : Controller) (e : Event) (now : UInt32) :
    s.actionTemperatureSample e now =
      if (s.storeSample e).heating.tooHot then ({ s.storeSample e with heaterPower := 0 }, .error)
      else ((s.storeSample e).regulate now, (s.storeSample e).heating.mode) := by
  unfold actionTemperatureSample
  simp only [evaluateState_eq, ne_eq, Heating.mode_eq_error]
  by_cases hhot : (s.storeSample e).heating.tooHot = true
  · simp [hhot, Heating.mode_eq_error.mpr hhot]
  · simp [hhot]

/-- The sample action followed by its mode is the core's `sample`. -/
theorem actionTemperatureSample_heating (s : Controller) (e : Event) (now : UInt32) :
    ((s.actionTemperatureSample e now).1.applyState (s.actionTemperatureSample e now).2 now).heating
      = s.heating.sample e.value now := by
  unfold Heating.sample Heating.decideSample
  rw [applyState_heating, actionTemperatureSample_eq, ← storeSample_heating]
  by_cases hhot : (s.storeSample e).heating.tooHot = true
  · simp only [hhot, if_true, decide_true]
    rfl
  · have hmode : ¬ (s.storeSample e).heating.mode = .error := fun h => hhot (Heating.mode_eq_error.mp h)
    simp only [if_neg hhot, hmode, decide_false, regulate_heating]

theorem actionTemperatureSample_mode (s : Controller) (e : Event) (now : UInt32) :
    (s.actionTemperatureSample e now).2 = (s.heating.setCurrent e.value).mode := by
  rw [actionTemperatureSample_eq, ← storeSample_heating]
  by_cases hhot : (s.storeSample e).heating.tooHot = true
  · rw [if_pos hhot, Heating.mode_eq_error.mpr hhot]
  · rw [if_neg hhot]

/-- A setpoint action ends in the mode that the new setpoint calls for, and with the mode applied it is
    the core's `changeSetpoint`. -/
theorem afterSetpointChange_spec (s : Controller) (now : UInt32) :
    (afterSetpointChange s now).1.heating = (s.heating.showSetpoint s.setpoint now).restart now ∧
    (afterSetpointChange s now).2 = (afterSetpointChange s now).1.heating.mode := by
  obtain ⟨d, hd⟩ := afterSetpointChange_eq s now
  refine ⟨?_, evaluateState_eq _⟩
  rw [hd]
  rfl

theorem afterSetpointChange_heating (s : Controller) (now : UInt32) :
    ((afterSetpointChange s now).1.applyState (afterSetpointChange s now).2 now).heating
      = s.heating.changeSetpoint s.setpoint now := by
  obtain ⟨hcore, hmode⟩ := afterSetpointChange_spec s now
  rw [applyState_heating, hmode, hcore]
  unfold Heating.changeSetpoint
  simp only [Heating.mode_eq_error, Bool.decide_eq_true]

theorem afterSetpointChange_mode (s : Controller) (now : UInt32) :
    (afterSetpointChange s now).2 = (s.heating.showSetpoint s.setpoint now).mode := by
  obtain ⟨hcore, hmode⟩ := afterSetpointChange_spec s now
  rw [hmode, hcore]
  rfl

theorem actionDecreaseSetpoint_mode (s : Controller) (now : UInt32) :
    (s.actionDecreaseSetpoint now).2
      = (s.heating.showSetpoint (Heating.lowered s.setpoint) now).mode :=
  afterSetpointChange_mode { s with setpoint := Heating.lowered s.setpoint } now

theorem actionIncreaseSetpoint_mode (s : Controller) (now : UInt32) :
    (s.actionIncreaseSetpoint now).2
      = (s.heating.showSetpoint (Heating.raised s.setpoint) now).mode :=
  afterSetpointChange_mode { s with setpoint := Heating.raised s.setpoint } now

theorem actionBeep_heating (s : Controller) (e : Event) (now : UInt32) :
    (s.actionBeep e now).1.heating = s.heating := by
  obtain ⟨_, h⟩ := actionBeep_eq s e now
  rw [h]
  rfl

/-! ## The transition table -/

/-- The row of the table that an event fires. -/
def firedRow (s : Controller) (e : Event) : Option Transition :=
  transitions.find? (fun t => t.matches (s.updateHeld e) e)

/-- The action of the row that an event fires. -/
def firedAction (s : Controller) (e : Event) : Option Action := (s.firedRow e).map (·.action)

theorem processEvent_eq (s : Controller) (e : Event) (now : UInt32) :
    s.processEvent e now =
      match s.firedRow e with
      | some t => t.fire (s.updateHeld e) e now
      | none => s.updateHeld e := rfl

/-- A click, seen after the hold flags have been updated, is the release of a button not held. -/
theorem clickS1_updateHeld (s : Controller) (v : Int) :
    (s.updateHeld ⟨.buttonS1, v⟩).guardClickS1 ⟨.buttonS1, v⟩ = decide (v = 2 ∧ s.s1Held = false) := by
  by_cases hv : v = 2
  · subst hv; simp [guardClickS1, updateHeld]
  · simp [guardClickS1, hv]

theorem clickS2_updateHeld (s : Controller) (v : Int) :
    (s.updateHeld ⟨.buttonS2, v⟩).guardClickS2 ⟨.buttonS2, v⟩ = decide (v = 2 ∧ s.s2Held = false) := by
  by_cases hv : v = 2
  · subst hv; simp [guardClickS2, updateHeld]
  · simp [guardClickS2, hv]

/-- **What the table does with an event**, outside the legacy tick: action and target are fixed by the
    event and the hold flags, whatever the mode. -/
theorem firedRow_eq (s : Controller) (e : Event) (htick : e.type ≠ .tick100ms) :
    (s.firedRow e).map (fun t => (t.action, t.target))
      = (s.heating.action e).map (fun a => (a, if a = .beep then .any else .computeState)) := by
  obtain ⟨type, v⟩ := e
  cases type with
  | tick100ms => exact absurd rfl htick
  | buttonS1 =>
      rw [Heating.action_buttonS1, show s.heating.s1Held = s.s1Held from rfl]
      by_cases hclick : v = 2 ∧ s.s1Held = false
      · simp [firedRow, transitions, Transition.matches, Guard.holds, clickS1_updateHeld, hclick]
      · by_cases hheld : v = 1
        · simp [firedRow, transitions, Transition.matches, Guard.holds, clickS1_updateHeld, guardHeld,
            hheld]
        · simp [firedRow, transitions, Transition.matches, Guard.holds, clickS1_updateHeld, guardHeld,
            hclick, hheld]
  | buttonS2 =>
      rw [Heating.action_buttonS2, show s.heating.s2Held = s.s2Held from rfl]
      by_cases hclick : v = 2 ∧ s.s2Held = false
      · simp [firedRow, transitions, Transition.matches, Guard.holds, clickS2_updateHeld, hclick]
      · by_cases hheld : v = 1
        · simp [firedRow, transitions, Transition.matches, Guard.holds, clickS2_updateHeld, guardHeld,
            hheld]
        · simp [firedRow, transitions, Transition.matches, Guard.holds, clickS2_updateHeld, guardHeld,
            hclick, hheld]
  | _ => simp [firedRow, transitions, Transition.matches, Heating.action]

/-- The tick rows leave the mode where it is, and there is none for the error mode. -/
theorem firedRow_tick (s : Controller) (e : Event) (htick : e.type = .tick100ms) :
    s.firedRow e =
      if s.state = .idle ∨ s.state = .heating then some ⟨.tick100ms, s.state, none, .pidTick, s.state⟩
      else none := by
  cases hst : s.state <;> simp [firedRow, transitions, Transition.matches, htick, hst]

/-- Run an action and apply the mode it asks for. -/
def follow (s : Controller) (a : Action) (e : Event) (now : UInt32) : Controller :=
  (a.perform s e now).1.applyState (a.perform s e now).2 now

/-- **What an event does**, outside the legacy tick. The beep is the only action whose row names its
    target, and the name is the wildcard. -/
theorem processEvent_action (s : Controller) (e : Event) (now : UInt32) (htick : e.type ≠ .tick100ms) :
    s.processEvent e now =
      match s.heating.action e with
      | some .beep => ((s.updateHeld e).actionBeep e now).1.applyState .any now
      | some a => (s.updateHeld e).follow a e now
      | none => s.updateHeld e := by
  have hrow := firedRow_eq s e htick
  rw [processEvent_eq]
  cases hfired : s.firedRow e with
  | none =>
      rw [hfired, Option.map_none] at hrow
      rw [Option.map_eq_none_iff.mp hrow.symm]
  | some t =>
      rw [hfired, Option.map_some] at hrow
      -- the table fixes action and target of the row that fires; which row it is does not matter
      obtain ⟨a, ha, heq⟩ := Option.map_eq_some_iff.mp hrow.symm
      obtain ⟨hact, htarget⟩ := Prod.mk.inj heq
      simp only [ha, Transition.fire, ← hact, ← htarget]
      cases a <;> rfl

/-- **What the legacy tick does**: drive the outputs again, twice. -/
theorem processEvent_tick (s : Controller) (e : Event) (now : UInt32) (htick : e.type = .tick100ms) :
    s.processEvent e now =
      if s.state = .idle ∨ s.state = .heating then (s.updateOutputsFor s.state).applyState s.state now
      else s := by
  have hheld : s.updateHeld e = s := by simp [updateHeld, htick]
  rw [processEvent_eq, firedRow_tick s e htick, hheld]
  by_cases hmode : s.state = .idle ∨ s.state = .heating
  · have hne : s.state ≠ .computeState := by rcases hmode with h | h <;> simp [h]
    simp only [if_pos hmode, Transition.fire, if_neg hne, Action.perform, actionPIDTick]
  · simp only [if_neg hmode]

@[simp] theorem follow_state (s : Controller) (a : Action) (e : Event) (now : UInt32) :
    (s.follow a e now).state = (a.perform s e now).2 := applyState_state _ _ now

/-! ## The refinement -/

theorem follow_sample_heating (s : Controller) (e : Event) (now : UInt32) :
    (s.follow .temperatureSample e now).heating = s.heating.sample e.value now :=
  actionTemperatureSample_heating s e now

theorem follow_decrease_heating (s : Controller) (e : Event) (now : UInt32) :
    (s.follow .decreaseSetpoint e now).heating
      = s.heating.changeSetpoint (Heating.lowered s.setpoint) now :=
  afterSetpointChange_heating { s with setpoint := Heating.lowered s.setpoint } now

theorem follow_increase_heating (s : Controller) (e : Event) (now : UInt32) :
    (s.follow .increaseSetpoint e now).heating
      = s.heating.changeSetpoint (Heating.raised s.setpoint) now :=
  afterSetpointChange_heating { s with setpoint := Heating.raised s.setpoint } now

theorem updateHeld_setpoint (s : Controller) (e : Event) : (s.updateHeld e).setpoint = s.setpoint := by
  obtain ⟨_, _, h⟩ := updateHeld_eq s e
  rw [h]

theorem action_ne_pidTick (h : Heating) (e : Event) : h.action e ≠ some .pidTick := by
  unfold Heating.action
  cases e.type <;> simp only [ne_eq, reduceCtorEq, not_false_eq_true, Option.some.injEq] <;>
    split_ifs <;> simp

/-- **`processEvent` refines the core.** -/
theorem heating_processEvent (s : Controller) (e : Event) (now : UInt32) :
    (s.processEvent e now).heating = s.heating.event e now := by
  by_cases htick : e.type = .tick100ms
  · -- the tick applies the mode it finds, which is not the error mode: nothing moves
    have hevent : s.heating.event e now = s.heating := by
      simp [Heating.event, Heating.action, Heating.hold, htick]
    rw [processEvent_tick s e now htick, hevent]
    split_ifs with hmode
    · have hok : s.state ≠ .error := by rcases hmode with h | h <;> simp [h]
      rw [applyState_heating, updateOutputsFor_heating]
      simp [Heating.enter, hok, heating]
    · rfl
  · rw [processEvent_action s e now htick]
    unfold Heating.event
    rw [← updateHeld_heating]
    cases hact : s.heating.action e with
    | none => rfl
    | some a =>
        cases a with
        | temperatureSample => exact follow_sample_heating _ e now
        | decreaseSetpoint =>
            show ((s.updateHeld e).follow .decreaseSetpoint e now).heating = _
            rw [follow_decrease_heating, updateHeld_setpoint]
            rfl
        | increaseSetpoint =>
            show ((s.updateHeld e).follow .increaseSetpoint e now).heating = _
            rw [follow_increase_heating, updateHeld_setpoint]
            rfl
        | pidTick => exact absurd hact (action_ne_pidTick _ e)
        | beep =>
            -- to the core, the wildcard is one of the modes that are not the error mode
            show (((s.updateHeld e).actionBeep e now).1.applyState .any now).heating = _
            rw [applyState_heating, actionBeep_heating]
            rfl

/-- **What a poll does**: nothing, but for the one that ends the setpoint screen. -/
theorem poll_eq (s : Controller) (now : UInt32) :
    s.poll now =
      if s.showingSetpoint = true ∧ timeReached now s.setpointDisplayDeadline = true then
        s.displayCurrentTemperature.applyState s.displayCurrentTemperature.evaluateState now
      else s := by
  unfold poll ensureDisplayTimeout
  cases s.showingSetpoint with
  | false => simp
  | true => cases timeReached now s.setpointDisplayDeadline <;> simp

/-- **`poll` refines the core.** -/
theorem heating_poll (s : Controller) (now : UInt32) : (s.poll now).heating = s.heating.poll now := by
  rw [poll_eq]
  unfold Heating.poll
  by_cases hend : s.showingSetpoint = true ∧ timeReached now s.setpointDisplayDeadline = true
  · have hend' : s.heating.showing = true ∧ Word.reached now s.heating.deadline = true := hend
    have hcore := displayCurrentTemperature_heating s
    rw [if_pos hend, if_pos hend', applyState_heating, evaluateState_eq, hcore]
    simp only [Heating.mode_eq_error, Bool.decide_eq_true]
    rfl
  · have hend' : ¬ (s.heating.showing = true ∧ Word.reached now s.heating.deadline = true) := hend
    rw [if_neg hend, if_neg hend']

/-- At its own setpoint a controller is idle. -/
theorem evaluateState_idle {s : Controller} (heq : s.current = s.setpoint) : s.evaluateState = .idle := by
  have hcool : ¬ s.current > s.setpoint + controllerErrorDelta := by
    rw [heq, show controllerErrorDelta = 30 from rfl]
    omega
  have hwarm : ¬ s.current < s.setpoint := by omega
  rw [evaluateState, if_neg hcool, if_neg hwarm]

theorem init_eq (s : Controller) (now : UInt32) :
    s.init now = displayCurrentTemperature (applyState { s with
      current := s.setpoint
      showingSetpoint := false
      setpointDisplayDeadline := 0
      pid := s.pid.reset
      heaterPower := 0
      lastPidTimestamp := now } .idle now) := by
  unfold init
  simp only [evaluateState_idle]

/-- **`init` refines the core.** -/
theorem heating_init (s : Controller) (now : UInt32) : (s.init now).heating = s.heating.init now := by
  rw [init_eq, displayCurrentTemperature_heating, applyState_heating]
  by_cases herr : s.state = .error <;> simp [heating, Heating.init, Heating.restart, Heating.enter, herr]

/-! ## The mode after each entry point -/

/-- The mode after an event: the one the temperatures call for after a sample or a setpoint action, the
    wildcard after a beep, the old one after an event that is dropped or a tick. -/
theorem state_processEvent (s : Controller) (e : Event) (now : UInt32) :
    (s.processEvent e now).state =
      match s.heating.action e with
      | some .beep => .any
      | some _ => (s.processEvent e now).evaluateState
      | none => s.state := by
  by_cases htick : e.type = .tick100ms
  · have hnone : s.heating.action e = none := by simp [Heating.action, htick]
    rw [hnone, processEvent_tick s e now htick]
    split_ifs with hmode
    · rw [applyState_state]
    · rfl
  · rw [evaluateState_eq, heating_processEvent, processEvent_action s e now htick]
    unfold Heating.event
    cases hact : s.heating.action e with
    | none => exact updateHeld_state s e
    | some a =>
        cases a with
        | temperatureSample =>
            show ((s.updateHeld e).follow .temperatureSample e now).state = _
            rw [follow_state, Heating.sample_mode, ← updateHeld_heating]
            exact actionTemperatureSample_mode _ e now
        | decreaseSetpoint =>
            show ((s.updateHeld e).follow .decreaseSetpoint e now).state = _
            rw [follow_state, Heating.changeSetpoint_mode, ← updateHeld_heating]
            exact (actionDecreaseSetpoint_mode _ now).trans (by rw [updateHeld_setpoint]; rfl)
        | increaseSetpoint =>
            show ((s.updateHeld e).follow .increaseSetpoint e now).state = _
            rw [follow_state, Heating.changeSetpoint_mode, ← updateHeld_heating]
            exact (actionIncreaseSetpoint_mode _ now).trans (by rw [updateHeld_setpoint]; rfl)
        | pidTick => exact absurd hact (action_ne_pidTick _ e)
        | beep => exact applyState_state _ _ now

/-- The mode after a poll: the one the temperatures call for if the setpoint screen has ended, or the old
    one. -/
theorem state_poll (s : Controller) (now : UInt32) :
    (s.poll now).state =
      if s.heating.showing = true ∧ Word.reached now s.heating.deadline = true then
        (s.poll now).evaluateState
      else s.state := by
  rw [evaluateState_eq, heating_poll, poll_eq]
  by_cases hend : s.showingSetpoint = true ∧ timeReached now s.setpointDisplayDeadline = true
  · have hend' : s.heating.showing = true ∧ Word.reached now s.heating.deadline = true := hend
    rw [if_pos hend, if_pos hend', applyState_state, evaluateState_eq, displayCurrentTemperature_heating]
    unfold Heating.poll
    rw [if_pos hend']
    exact Heating.mode_congr (Heating.enter_setpoint _ _ now).symm (Heating.enter_current _ _ now).symm
  · have hend' : ¬ (s.heating.showing = true ∧ Word.reached now s.heating.deadline = true) := hend
    rw [if_neg hend, if_neg hend']

end Controller
end Thermostat
