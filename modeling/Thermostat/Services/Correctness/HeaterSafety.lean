import Thermostat.Services.Correctness.Runs

/-!
# `Services.Correctness.HeaterSafety` — the heater is on only for a sample that asks for it

**`heaterSafe_run`.** After any sequence of calls the power commanded last is the power the controller
keeps, it lies in `0..1000`, and it is non-zero only while the latest origin is a sample that was not
above the setpoint by more than the error delta. The mode does not occur in the statement: the table's
wildcard rows may have put it anywhere.

The argument is one on the core. `Heating.Sourced` ties a non-zero power to the latest origin; each
operation either clears the power (and may then become the latest origin), or leaves power, current
temperature and origin alone, or is the regulator step of a sample.
-/

namespace Thermostat

open Config

/-! ## The core's half -/

namespace Heating

/-- A non-zero power comes from the latest origin, a sample that is still the current temperature and
    does not overheat. -/
def Sourced (h : Heating) (latest : Option Controller.Origin) : Prop :=
  h.power ≠ 0 → latest = some (.sample h.current) ∧ h.tooHot = false

/-- Overheating is a matter of setpoint and current temperature. -/
theorem tooHot_congr {h k : Heating} (hsp : h.setpoint = k.setpoint) (hcur : h.current = k.current) :
    h.tooHot = k.tooHot := by
  unfold tooHot
  rw [hsp, hcur]

/-- A power of zero needs no source. -/
theorem sourced_of_off {h : Heating} (hoff : h.power = 0) (latest : Option Controller.Origin) :
    h.Sourced latest := fun hon => absurd hoff hon

/-- Changing the mode does not switch the heater on. -/
theorem enter_off {h : Heating} (hoff : h.power = 0) (err : Bool) (now : UInt32) :
    (h.enter err now).power = 0 := by
  cases err with
  | true => rfl
  | false => rw [enter_false_power, hoff]

/-- Leaving the error mode keeps the power with its origin. -/
theorem enter_false_sourced {h : Heating} {latest : Option Controller.Origin} (hs : h.Sourced latest)
    (now : UInt32) : (h.enter false now).Sourced latest := by
  intro hon
  rw [enter_false_power] at hon
  rw [enter_current, tooHot_congr (enter_setpoint h false now) (enter_current h false now)]
  exact hs hon

/-- **A sample is its own source**: it switches off if it overheats, and else the regulator acts on it. -/
theorem sample_sourced (h : Heating) (v : Int) (now : UInt32) :
    (h.sample v now).Sourced (some (.sample v)) := by
  unfold sample decideSample
  by_cases hhot : (h.setCurrent v).tooHot = true
  · rw [if_pos hhot]
    exact sourced_of_off (enter_off rfl true now) _
  · rw [if_neg hhot]
    apply enter_false_sourced
    intro _
    have hcur : ((h.setCurrent v).regulate now).current = v := regulate_current _ now
    rw [hcur, tooHot_congr (regulate_setpoint _ now) (regulate_current _ now)]
    exact ⟨rfl, Bool.eq_false_iff.mpr hhot⟩

/-- A new setpoint switches off, until the next sample. -/
theorem changeSetpoint_off (h : Heating) (sp : Int) (now : UInt32) :
    (h.changeSetpoint sp now).power = 0 := enter_off rfl _ now

theorem hold_sourced {h : Heating} {latest : Option Controller.Origin} (hs : h.Sourced latest)
    (e : Event) : (h.hold e).Sourced latest := by
  unfold hold
  cases e.type <;> exact hs

/-- An event with an origin replaces the latest one; the others keep it. -/
theorem event_sourced {h : Heating} {latest : Option Controller.Origin} (hs : h.Sourced latest)
    (e : Event) (now : UInt32) :
    (h.event e now).Sourced (((h.action e).bind (·.origin e)).or latest) := by
  have hheld : (h.hold e).Sourced latest := hold_sourced hs e
  unfold event
  cases h.action e with
  | none => exact hheld
  | some a =>
      cases a with
      | temperatureSample => exact sample_sourced _ e.value now
      | decreaseSetpoint => exact sourced_of_off (changeSetpoint_off _ _ now) _
      | increaseSetpoint => exact sourced_of_off (changeSetpoint_off _ _ now) _
      | pidTick => exact hheld
      | beep => exact enter_false_sourced hheld now

/-- The display timeout either finds the core too hot and switches off, or keeps everything. -/
theorem poll_sourced {h : Heating} {latest : Option Controller.Origin} (hs : h.Sourced latest)
    (now : UInt32) : (h.poll now).Sourced latest := by
  unfold poll
  split_ifs with hend
  · cases hhot : h.tooHot with
    | true => exact sourced_of_off rfl _
    | false =>
        apply enter_false_sourced
        exact hs
  · exact hs

theorem init_off (h : Heating) (now : UInt32) : (h.init now).power = 0 := enter_off rfl false now

end Heating

/-! ## Whole runs -/

namespace Controller

/-- The heater is safe, by the origins so far, oldest first: the power commanded last is the one the controller keeps
    and lies in `0..1000`; if it is not zero, the latest origin is a sample that does not overheat; and while the
    current temperature overheats it is zero. -/
structure HeaterSafe (s : Controller) (origins : List Origin) : Prop where
  commanded : s.lastPower = s.heaterPower
  low : 0 ≤ s.lastPower
  high : s.lastPower ≤ 1000
  source : s.lastPower ≠ 0 →
    ∃ v, origins.getLast? = some (.sample v) ∧ v ≤ s.setpoint + controllerErrorDelta
  hot : s.current > s.setpoint + controllerErrorDelta → s.lastPower = 0

/-- The invariant behind it. -/
structure HeaterInv (s : Controller) (origins : List Origin) : Prop where
  driven : Driven s
  sound : s.heating.Sound
  sourced : s.heating.Sourced origins.getLast?

/-- The invariant says it all: the power commanded is that of the core. -/
theorem HeaterInv.safe {s : Controller} {origins : List Origin} (h : HeaterInv s origins) :
    HeaterSafe s origins := by
  have hcmd : s.lastPower = s.heaterPower := lastPower_eq h.driven h.sound
  have hlink : s.lastPower ≠ 0 →
      origins.getLast? = some (.sample s.current) ∧ s.heating.tooHot = false := by
    intro hon
    rw [hcmd] at hon
    exact h.sourced hon
  have hlow : 0 ≤ s.heaterPower := h.sound.low
  have hhigh : s.heaterPower ≤ 1000 := h.sound.high
  refine ⟨hcmd, by omega, by omega, ?_, ?_⟩
  · intro hon
    obtain ⟨hlatest, hcool⟩ := hlink hon
    refine ⟨s.current, hlatest, ?_⟩
    have hnot := mt tooHot_iff.mpr (Bool.eq_false_iff.mp hcool)
    omega
  · intro hhot
    by_contra hon
    have hcool := (hlink hon).2
    rw [tooHot_iff.mpr hhot] at hcool
    cases hcool

/-- Every call keeps the invariant. -/
theorem heaterInv_call {s : Controller} {origins : List Origin} (h : HeaterInv s origins) (c : Call) :
    HeaterInv (s.call c).1 (origins ++ (s.call c).2) := by
  refine ⟨call_driven c h.driven, call_sound c h.sound, ?_⟩
  -- the latest origin is that of this call, if it is one, and else the one before
  rw [List.getLast?_append]
  cases c with
  | input i =>
      cases i with
      | event e now =>
          show (s.processEvent e now).heating.Sourced _
          have hlast : (s.originOf e).toList.getLast? = (s.heating.action e).bind (·.origin e) := by
            rw [← originOf_eq]
            cases s.originOf e <;> rfl
          rw [heating_processEvent, show (s.call (.input (.event e now))).2 = (s.originOf e).toList from rfl,
            hlast]
          exact Heating.event_sourced h.sourced e now
      | poll now =>
          show (s.poll now).heating.Sourced _
          rw [heating_poll]
          exact Heating.poll_sourced h.sourced now
  | init now =>
      show (s.init now).heating.Sourced _
      rw [heating_init]
      exact Heating.sourced_of_off (Heating.init_off _ now) _

/-- A fresh controller is off. -/
theorem heaterInv_new (display : Option HT1621B) (beep : Option BeepManager) (heater : PwmDriver) :
    HeaterInv (Controller.new display beep (some heater)) [] :=
  ⟨driven_new display beep heater, sound_new display beep (some heater),
    Heating.sourced_of_off rfl _⟩

/-- **Heater safety.** After every sequence of calls on a fresh controller, at any ticks. -/
theorem heaterSafe_run (display : Option HT1621B) (beep : Option BeepManager) (heater : PwmDriver)
    (calls : List Call) :
    HeaterSafe (Trace.run call (Controller.new display beep (some heater)) calls).1
      (Trace.run call (Controller.new display beep (some heater)) calls).2 := by
  have hinv := Trace.run_invariant HeaterInv (fun s os c h => heaterInv_call h c)
    (heaterInv_new display beep heater) calls
  rw [List.nil_append] at hinv
  exact hinv.safe

end Controller
end Thermostat
