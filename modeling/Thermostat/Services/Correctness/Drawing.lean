import Thermostat.Services.Correctness.Runs

/-!
# `Services.Correctness.Drawing` — what the controller draws, and when

The display is written in few places. `draw` is the picture that `displayTemperature` leaves, and the three
spec lemmas `processEvent_display`, `poll_display` and `init_display` say which call draws what: a sample
draws the temperature unless the setpoint shows, a setpoint change draws the setpoint, the poll that ends the
setpoint screen draws the temperature, and nothing else draws.
-/

namespace Thermostat

open Config

namespace Controller

/-- The picture of a labelled temperature, drawn over another one. -/
def draw (label : Char) (value : Int) (d : HT1621B) : HT1621B :=
  ((d.clearSegArea false).showString (temperatureText label value) false).showDot 1 true true

theorem displayTemperature_draw (s : Controller) (label : Char) (value : Int) :
    s.displayTemperature label value = { s with display := s.display.map (draw label value) } := by
  unfold displayTemperature
  cases hd : s.display with
  | none => cases s; simp_all
  | some d => rfl

theorem displayCurrentTemperature_draw (s : Controller) :
    s.displayCurrentTemperature
      = { s with showingSetpoint := false, display := s.display.map (draw '1' s.current) } := by
  unfold displayCurrentTemperature
  exact displayTemperature_draw { s with showingSetpoint := false } '1' s.current

/-! ## The functions that do not draw -/

@[simp] theorem updateHeld_display (s : Controller) (e : Event) : (s.updateHeld e).display = s.display := by
  obtain ⟨_, _, h⟩ := updateHeld_eq s e
  rw [h]

@[simp] theorem updateOutputsFor_display (s : Controller) (st : State) :
    (s.updateOutputsFor st).display = s.display := by
  obtain ⟨_, _, h⟩ := updateOutputsFor_eq s st
  rw [h]

@[simp] theorem applyState_display (s : Controller) (st : State) (now : UInt32) :
    (s.applyState st now).display = s.display := by
  obtain ⟨_, _, _, _, _, h⟩ := applyState_eq s st now
  rw [h]

@[simp] theorem regulate_display (s : Controller) (now : UInt32) : (s.regulate now).display = s.display := by
  obtain ⟨_, _, h⟩ := regulate_eq s now
  rw [h]

@[simp] theorem actionBeep_display (s : Controller) (e : Event) (now : UInt32) :
    (s.actionBeep e now).1.display = s.display := by
  obtain ⟨_, h⟩ := actionBeep_eq s e now
  rw [h]

/-! ## The functions that do -/

theorem updateHeld_showing (s : Controller) (e : Event) :
    (s.updateHeld e).showingSetpoint = s.showingSetpoint := by
  obtain ⟨_, _, h⟩ := updateHeld_eq s e
  rw [h]

theorem storeSample_display (s : Controller) (e : Event) :
    (s.storeSample e).display
      = if s.showingSetpoint then s.display else s.display.map (draw '1' e.value) := by
  unfold storeSample
  cases hshow : s.showingSetpoint with
  | true => rfl
  | false => simp only [Bool.not_false, if_true, displayCurrentTemperature_draw]; rfl

theorem actionTemperatureSample_display (s : Controller) (e : Event) (now : UInt32) :
    (s.actionTemperatureSample e now).1.display = (s.storeSample e).display := by
  rw [actionTemperatureSample_eq]
  split_ifs
  · rfl
  · exact regulate_display _ now

theorem afterSetpointChange_display (s : Controller) (now : UInt32) :
    (afterSetpointChange s now).1.display = s.display.map (draw '2' s.setpoint) := by
  unfold afterSetpointChange displaySetpointTemperature
  simp only [displayTemperature_draw]

/-- What an action draws. -/
theorem perform_display (a : Action) (s : Controller) (e : Event) (now : UInt32) :
    (a.perform s e now).1.display =
      match a with
      | .temperatureSample => if s.showingSetpoint then s.display else s.display.map (draw '1' e.value)
      | .decreaseSetpoint => s.display.map (draw '2' (Heating.lowered s.setpoint))
      | .increaseSetpoint => s.display.map (draw '2' (Heating.raised s.setpoint))
      | _ => s.display := by
  cases a with
  | temperatureSample => exact (actionTemperatureSample_display s e now).trans (storeSample_display s e)
  | decreaseSetpoint => exact afterSetpointChange_display _ now
  | increaseSetpoint => exact afterSetpointChange_display _ now
  | pidTick => exact updateOutputsFor_display s s.state
  | beep => exact actionBeep_display s e now

/-- **What an event draws.** -/
theorem processEvent_display (s : Controller) (e : Event) (now : UInt32) :
    (s.processEvent e now).display =
      match s.heating.action e with
      | some .temperatureSample =>
          if s.showingSetpoint then s.display else s.display.map (draw '1' e.value)
      | some .decreaseSetpoint => s.display.map (draw '2' (Heating.lowered s.setpoint))
      | some .increaseSetpoint => s.display.map (draw '2' (Heating.raised s.setpoint))
      | _ => s.display := by
  by_cases htick : e.type = .tick100ms
  · have hnone : s.heating.action e = none := by simp [Heating.action, htick]
    rw [processEvent_tick s e now htick, hnone]
    split_ifs <;> simp
  · rw [processEvent_action s e now htick]
    cases s.heating.action e with
    | none => exact updateHeld_display s e
    | some a =>
        -- the held flags do not matter for what the action draws, nor does the mode behind it
        have hperform := perform_display a (s.updateHeld e) e now
        rw [updateHeld_showing, updateHeld_setpoint, updateHeld_display] at hperform
        cases a with
        | temperatureSample => exact (applyState_display _ _ now).trans hperform
        | decreaseSetpoint => exact (applyState_display _ _ now).trans hperform
        | increaseSetpoint => exact (applyState_display _ _ now).trans hperform
        | pidTick => exact (applyState_display _ _ now).trans hperform
        | beep => exact (applyState_display _ _ now).trans hperform

/-- **What a poll draws.** -/
theorem poll_display (s : Controller) (now : UInt32) :
    (s.poll now).display =
      if s.showingSetpoint = true ∧ timeReached now s.setpointDisplayDeadline = true then
        s.display.map (draw '1' s.current)
      else s.display := by
  rw [poll_eq]
  split_ifs
  · rw [applyState_display, displayCurrentTemperature_draw]
  · rfl

/-- **What an initialisation draws.** -/
theorem init_display (s : Controller) (now : UInt32) :
    (s.init now).display = s.display.map (draw '1' s.setpoint) := by
  rw [init_eq, displayCurrentTemperature_draw]
  have hcur : ∀ u : Controller, (u.applyState .idle now).current = u.current := fun u =>
    (congrArg Heating.current (applyState_heating u .idle now)).trans (Heating.enter_current _ _ now)
  show Option.map (draw '1' (applyState _ .idle now).current) (applyState _ .idle now).display = _
  rw [hcur, applyState_display]

end Controller
end Thermostat
