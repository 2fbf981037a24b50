import Thermostat.Services.Correctness.Gestures
import Thermostat.Services.Correctness.HeaterSafety
import Thermostat.Utils.Correctness.ExactPID

/-!
# `Services.Correctness.Colder` — colder never means less heat

**`colder_heats`** compares two samples processed at the same tick from the same state: the lower one is
never answered with less power, be it that one or both of them put the controller into its error mode.

The regulator is monotone where none of its intermediate results is cut (`PIDInt.update_antitone`). That
nothing is cut follows from the range of its memory (`Heating.Ranged`), an invariant of all runs whose
samples are values of `int16_t`, the type in which the sensor reports them; the integral's increment is the
one result that grows with the time since the last step, and its range is asked for.
-/

namespace Thermostat

open Config

/-! ## The range of the regulator's memory -/

namespace Heating

/-- The memory of the regulator is within reach of samples from the sensor. -/
structure Ranged (h : Heating) : Prop where
  grid : OnGrid h.setpoint
  integral : -2000 ≤ h.pid.integral ∧ h.pid.integral ≤ 2000
  previous : -33763 ≤ h.pid.prevError ∧ h.pid.prevError ≤ 33763

/-- The value is one that the sensor can report. -/
def FromSensor (v : Int) : Prop := -32768 ≤ v ∧ v < 32768

variable {h : Heating}

/-- The deadband does not widen the range of the error. -/
theorem deaden_range (p : PIDInt) {e : Int} (he : -33763 ≤ e ∧ e ≤ 33763) :
    -33763 ≤ p.deaden e ∧ p.deaden e ≤ 33763 := by
  unfold PIDInt.deaden
  split_ifs <;> omega

/-- The error of a sample. -/
theorem error_range {sp v : Int} (hgrid : OnGrid sp) (hv : FromSensor v) :
    -33763 ≤ sp - v ∧ sp - v ≤ 33763 := by
  have hlow : -95 ≤ sp := hgrid.low
  have hhigh : sp ≤ 995 := hgrid.high
  unfold FromSensor at hv
  omega

/-- A regulator that was reset is in range. -/
theorem ranged_of_empty (hgrid : OnGrid h.setpoint) (hintegral : h.pid.integral = 0)
    (hprev : h.pid.prevError = 0) : Ranged h := ⟨hgrid, by omega, by omega⟩

/-- Changing the mode keeps the range, or resets the regulator. -/
theorem enter_ranged (hr : Ranged h) (err : Bool) (now : UInt32) : Ranged (h.enter err now) := by
  obtain ⟨hgrid, hintegral, hprev⟩ := hr
  unfold enter
  split_ifs
  · exact ranged_of_empty hgrid rfl rfl
  · exact ⟨hgrid, hintegral, hprev⟩
  · exact ⟨hgrid, hintegral, hprev⟩

/-- An empty regulator is in range. -/
theorem restart_ranged (hgrid : OnGrid h.setpoint) (now : UInt32) : Ranged (h.restart now) :=
  ranged_of_empty hgrid rfl rfl

/-- **A regulator step** keeps the range: the integral is clamped, and the error is one of samples and setpoint. -/
theorem regulate_ranged (hr : Ranged h) (ht : PIDInt.SameTuning h.pid Controller.initialPid)
    (hv : FromSensor h.current) (now : UInt32) : Ranged (h.regulate now) := by
  -- the core that the regulator starts from: the error mode restarts it
  have hbase : Ranged (if h.inError then h.restart now else h) := by
    split_ifs
    · exact restart_ranged hr.grid now
    · exact hr
  have htuned := restart_tuned ht now
  have hcur : (if h.inError then h.restart now else h).current = h.current := by split_ifs <;> rfl
  unfold regulate
  generalize (if h.inError then h.restart now else h) = k at hbase htuned hcur
  have herror := error_range hbase.grid (hcur ▸ hv)
  have hmin : k.pid.integrMin = -2000 := htuned.2.2.2.2.2.1
  have hmax : k.pid.integrMax = 2000 := htuned.2.2.2.2.2.2.1
  refine ⟨hbase.grid, ?_, ?_⟩
  · have hmem := PIDInt.update_integral (p := k.pid) (by omega) k.setpoint k.current
      (if now - k.stamp = 0 then 1 else now - k.stamp).toNat
    rw [hmin, hmax] at hmem
    exact hmem
  · have hlow : -2147483648 < k.setpoint - k.current := by omega
    have hhigh : k.setpoint - k.current < 2147483648 := by omega
    have hprev := PIDInt.update_prevError (p := k.pid) hlow hhigh
      (if now - k.stamp = 0 then 1 else now - k.stamp).toNat
    show -33763 ≤ (k.pid.update _ _ _).1.prevError ∧ (k.pid.update _ _ _).1.prevError ≤ 33763
    rw [hprev]
    exact deaden_range k.pid herror

/-- A sample switches off, or is a regulator step. -/
theorem sample_ranged (hr : Ranged h) (hs : Sound h) {v : Int} (hv : FromSensor v) (now : UInt32) :
    Ranged (h.sample v now) := by
  have hset : Ranged (h.setCurrent v) := ⟨hr.grid, hr.integral, hr.previous⟩
  unfold sample decideSample
  split_ifs
  · apply enter_ranged
    exact ⟨hset.grid, hset.integral, hset.previous⟩
  · apply enter_ranged
    exact regulate_ranged hset hs.tuned hv now

/-- A new setpoint resets the regulator. -/
theorem changeSetpoint_ranged {sp : Int} (hgrid : OnGrid sp) (now : UInt32) :
    Ranged (h.changeSetpoint sp now) := by
  apply enter_ranged
  exact restart_ranged hgrid now

theorem hold_ranged (hr : Ranged h) (e : Event) : Ranged (h.hold e) := by
  obtain ⟨hgrid, hintegral, hprev⟩ := hr
  unfold hold
  cases e.type <;> exact ⟨hgrid, hintegral, hprev⟩

/-- Only a sample is processed as one. -/
theorem action_sample {e : Event} (hact : h.action e = some .temperatureSample) :
    e.type = .temperatureReady := by
  obtain ⟨type, v⟩ := e
  cases type with
  | temperatureReady => rfl
  | buttonS1 =>
      rw [action_buttonS1] at hact
      split_ifs at hact <;> cases hact
  | buttonS2 =>
      rw [action_buttonS2] at hact
      split_ifs at hact <;> cases hact
  | _ => cases hact

/-- Every event keeps the range, if samples are those of a sensor. -/
theorem event_ranged (hr : Ranged h) (hs : Sound h) {e : Event}
    (he : e.type = .temperatureReady → FromSensor e.value) (now : UInt32) : Ranged (h.event e now) := by
  have hheld : Ranged (h.hold e) := hold_ranged hr e
  unfold event
  cases hact : h.action e with
  | none => exact hheld
  | some a =>
      cases a with
      | temperatureSample =>
          exact sample_ranged hheld (hold_sound hs e) (he (action_sample hact)) now
      | decreaseSetpoint =>
          apply changeSetpoint_ranged
          rw [lowered_eq hr.grid]
          exact apply_onGrid hr.grid .down
      | increaseSetpoint =>
          apply changeSetpoint_ranged
          rw [raised_eq hr.grid]
          exact apply_onGrid hr.grid .up
      | pidTick => exact hheld
      | beep => exact enter_ranged hheld false now

theorem poll_ranged (hr : Ranged h) (now : UInt32) : Ranged (h.poll now) := by
  unfold poll
  split_ifs
  · apply enter_ranged
    exact ⟨hr.grid, hr.integral, hr.previous⟩
  · exact hr

theorem init_ranged (hr : Ranged h) (now : UInt32) : Ranged (h.init now) := by
  apply enter_ranged
  apply restart_ranged
  exact hr.grid

/-! ## Colder samples -/

/-- The time that the regulator integrates over, on a sample at `now`. -/
def span (h : Heating) (now : UInt32) : UInt32 :=
  if h.inError then 1 else if now - h.stamp = 0 then 1 else now - h.stamp

/-- The increment of the integral on the sample `v` stays in range. -/
def IncrementFits (h : Heating) (v : Int) (now : UInt32) : Prop :=
  (h.setpoint - v).natAbs * (h.span now).toNat / 1000 + 2000 < 2147483648

/-- The regulator that a sample outside the error mode finds. -/
def base (h : Heating) : PIDInt := if h.inError then h.pid.reset else h.pid

/-- The regulator that a step starts from, reset or not, is in range. -/
theorem base_ranged (hr : Ranged h) : (-2000 ≤ h.base.integral ∧ h.base.integral ≤ 2000) ∧
    -33763 ≤ h.base.prevError ∧ h.base.prevError ≤ 33763 := by
  have hempty : h.pid.reset.integral = 0 ∧ h.pid.reset.prevError = 0 := ⟨rfl, rfl⟩
  obtain ⟨-, hintegral, hprev⟩ := hr
  unfold base
  split_ifs
  · omega
  · exact ⟨hintegral, hprev⟩

/-- A reset keeps the tuning. -/
theorem base_tuned (hs : Sound h) : PIDInt.SameTuning h.base Controller.initialPid := by
  unfold base
  split_ifs
  · exact PIDInt.reset_sameTuning hs.tuned
  · exact hs.tuned

/-- A step of no time at all counts as one millisecond. -/
theorem span_ne_zero (now : UInt32) : (h.span now).toNat ≠ 0 := by
  intro hzero
  have hspan : h.span now = 0 := UInt32.toNat_inj.mp hzero
  unfold span at hspan
  split_ifs at hspan with _ hsame
  · cases hspan
  · cases hspan
  · exact hsame hspan

/-- The regulator and the power after a sample outside the error mode. -/
theorem regulate_step (v : Int) (now : UInt32) :
    (((h.setCurrent v).regulate now).pid, ((h.setCurrent v).regulate now).power)
      = h.base.update h.setpoint v (h.span now).toNat := by
  unfold regulate base span
  -- in the error mode the regulator starts afresh, with a span of 1
  by_cases herr : h.inError = true
  · have hrestart : (h.setCurrent v).inError = true := herr
    simp only [hrestart, herr, if_true, restart, UInt32.sub_self]
    rfl
  · have hkeep : ¬ (h.setCurrent v).inError = true := herr
    simp only [hkeep, herr]
    rfl

theorem regulate_power (v : Int) (now : UInt32) :
    ((h.setCurrent v).regulate now).power = (h.base.update h.setpoint v (h.span now).toNat).2 :=
  congrArg Prod.snd (regulate_step v now)

theorem baseDt_tuned {p : PIDInt} (ht : PIDInt.SameTuning p Controller.initialPid) : p.baseDt = 1000 := by
  have hsample : p.sampleTimeMs = 1000 := ht.2.2.2.2.2.2.2.1
  unfold PIDInt.baseDt
  rw [hsample]
  rfl

/-- The dead band only takes away. -/
theorem deaden_natAbs (p : PIDInt) (e : Int) : (p.deaden e).natAbs ≤ e.natAbs := by
  unfold PIDInt.deaden
  split_ifs <;> omega

/-- The increment of the integral is at most error times time. -/
theorem increment_natAbs {p : PIDInt} (ht : PIDInt.SameTuning p Controller.initialPid) (e : Int) (dt : Nat) :
    (p.increment (p.deaden e) dt).natAbs ≤ e.natAbs * dt / 1000 := by
  unfold PIDInt.increment
  rw [baseDt_tuned ht, Int.natAbs_tdiv, Int.natAbs_mul, Int.natAbs_natCast]
  exact Nat.div_le_div_right (Nat.mul_le_mul_right dt (deaden_natAbs p e))

/-- **Nothing is cut** on a sample from the sensor for which the integral and its increment fit: these are the
    only results that grow with the time. -/
theorem base_fits_of (hr : Ranged h) (hs : Sound h) {v : Int} (hv : FromSensor v) {now : UInt32}
    (hincrement : PIDInt.InInt32 (h.base.increment (h.base.deaden (h.setpoint - v)) (h.span now).toNat))
    (hintegral : PIDInt.InInt32
      (h.base.integral + h.base.increment (h.base.deaden (h.setpoint - v)) (h.span now).toNat)) :
    h.base.Fits (h.setpoint - v) (h.span now).toNat := by
  have herror := error_range hr.grid hv
  have hdead := deaden_range h.base herror
  obtain ⟨-, hprev⟩ := base_ranged hr
  have ht := base_tuned hs
  have hmin : h.base.outMin = 0 := ht.2.2.2.1
  have hmax : h.base.outMax = 1000 := ht.2.2.2.2.1
  refine ⟨by omega, hincrement, hintegral, ?_, ?_, ?_⟩
  · intro _
    exact ⟨by omega, by omega⟩
  · unfold PIDInt.slope
    split_ifs
    · have hle := Int.natAbs_tdiv_le_natAbs
        ((h.base.deaden (h.setpoint - v) - h.base.prevError) * h.base.baseDt) (h.span now).toNat
      rw [baseDt_tuned ht] at hle ⊢
      exact ⟨by omega, by omega⟩
    · exact ⟨by omega, by omega⟩
  · rw [hmin, hmax]
    exact ⟨⟨by omega, by omega⟩, ⟨by omega, by omega⟩, by omega⟩

/-- With an increment that fits, nothing in the step overflows. -/
theorem base_fits (hr : Ranged h) (hs : Sound h) {v : Int} (hv : FromSensor v) {now : UInt32}
    (hinc : h.IncrementFits v now) : h.base.Fits (h.setpoint - v) (h.span now).toNat := by
  obtain ⟨hintegral, -⟩ := base_ranged hr
  have hincrement := increment_natAbs (base_tuned hs) (h.setpoint - v) (h.span now).toNat
  unfold IncrementFits at hinc
  exact base_fits_of hr hs hv ⟨by omega, by omega⟩ ⟨by omega, by omega⟩

/-- Warmer than too hot is too hot. -/
theorem tooHot_mono {v w : Int} (hle : v ≤ w) (hhot : (h.setCurrent v).tooHot = true) :
    (h.setCurrent w).tooHot = true := by
  have hv : v > h.setpoint + controllerErrorDelta := of_decide_eq_true hhot
  exact decide_eq_true (show w > h.setpoint + controllerErrorDelta by omega)

/-- The core's half of the law. -/
theorem sample_antitone (hr : Ranged h) (hs : Sound h) {v w : Int} (hle : v ≤ w) (hv : FromSensor v)
    (hw : FromSensor w) {now : UInt32} (hincv : h.IncrementFits v now) (hincw : h.IncrementFits w now) :
    (h.sample w now).power ≤ (h.sample v now).power := by
  have hlow : 0 ≤ (h.sample v now).power := (sample_sound hs v now).low
  by_cases hhot : (h.setCurrent w).tooHot = true
  · -- the warmer sample switches off
    have hoff : (h.sample w now).power = 0 := by
      unfold sample decideSample
      rw [if_pos hhot]
      exact enter_off rfl true now
    omega
  · have hcool : ¬ (h.setCurrent v).tooHot = true := fun hv => hhot (tooHot_mono hle hv)
    unfold sample decideSample
    rw [if_neg hhot, if_neg hcool, enter_false_power, enter_false_power, regulate_power, regulate_power]
    -- neither sample overheats: both get what the same regulator answers
    have ht := base_tuned hs
    have hkp : h.base.kp = 40000 := ht.1
    have hki : h.base.ki = 500 := ht.2.1
    have hkd : h.base.kd = 300 := ht.2.2.1
    have hbase := baseDt_tuned ht
    exact PIDInt.update_antitone (by omega) (by omega) (by omega) (by omega) (span_ne_zero now) hle
      (base_fits hr hs hv hincv) (base_fits hr hs hw hincw)

end Heating

/-! ## Runs -/

namespace Controller

open Heating (FromSensor)

/-- A sample in the call is one that the sensor can report. -/
def Call.FromSensor : Call → Prop
  | .input (.event e _) => e.type = .temperatureReady → Heating.FromSensor e.value
  | .input (.poll _)    => True
  | .init _             => True

/-- Reachable by calls whose samples come from the sensor, which reports them as `int16_t`. -/
def SensorReachable (s : Controller) : Prop :=
  ∃ display beep heater calls, (∀ c ∈ calls, Call.FromSensor c) ∧
    s = (Trace.run call (Controller.new display beep (some heater)) calls).1

theorem SensorReachable.reachable {s : Controller} (h : SensorReachable s) : Reachable s := by
  obtain ⟨display, beep, heater, calls, -, rfl⟩ := h
  exact ⟨display, beep, heater, calls, rfl⟩

/-- Every call keeps the range. -/
theorem call_ranged {s : Controller} {c : Call} (hc : c.FromSensor) (hs : s.heating.Sound)
    (hr : s.heating.Ranged) : (s.call c).1.heating.Ranged := by
  cases c with
  | input i =>
      show (s.feed i).1.heating.Ranged
      rw [feed_heating]
      cases i with
      | event e now => exact Heating.event_ranged hr hs hc now
      | poll now => exact Heating.poll_ranged hr now
  | init now =>
      show (s.init now).heating.Ranged
      rw [heating_init]
      exact Heating.init_ranged hr now

/-- Every run keeps the range. -/
theorem run_ranged {calls : List Call} (hcalls : ∀ c ∈ calls, c.FromSensor) {s : Controller}
    (hs : s.heating.Sound) (hr : s.heating.Ranged) : (Trace.run call s calls).1.heating.Ranged := by
  induction calls generalizing s with
  | nil => exact hr
  | cons c calls ih =>
      have hc := hcalls c List.mem_cons_self
      exact ih (fun d hd => hcalls d (List.mem_cons_of_mem c hd)) (call_sound c hs) (call_ranged hc hs hr)

/-- **What is reachable with samples of a sensor is in range.** -/
theorem sensorReachable_ranged {s : Controller} (h : SensorReachable s) : s.heating.Ranged := by
  obtain ⟨display, beep, heater, calls, hcalls, rfl⟩ := h
  exact run_ranged hcalls (sound_new display beep (some heater))
    (Heating.ranged_of_empty Heating.default_onGrid rfl rfl)

/-- **Colder heats more**, in any state in range: both overheat, or one does, or the regulator decides. -/
theorem colder_of_ranged {s : Controller} (hd : Driven s) (hs : s.heating.Sound) (hr : s.heating.Ranged)
    {c₁ c₂ : Int} (hle : c₁ ≤ c₂) (h₁ : FromSensor c₁) (h₂ : FromSensor c₂) {now : UInt32}
    (hinc₁ : s.heating.IncrementFits c₁ now) (hinc₂ : s.heating.IncrementFits c₂ now) :
    (s.processEvent ⟨.temperatureReady, c₂⟩ now).lastPower
      ≤ (s.processEvent ⟨.temperatureReady, c₁⟩ now).lastPower := by
  rw [lastPower_sample hd hs, lastPower_sample hd hs]
  exact Heating.sample_antitone hr hs hle h₁ h₂ hinc₁ hinc₂

/-- **Colder never means less heat.** -/
theorem colder_heats {s : Controller} (hreach : SensorReachable s) {c₁ c₂ : Int} (hle : c₁ ≤ c₂)
    (h₁ : FromSensor c₁) (h₂ : FromSensor c₂) {now : UInt32}
    (hinc₁ : s.heating.IncrementFits c₁ now) (hinc₂ : s.heating.IncrementFits c₂ now) :
    (s.processEvent ⟨.temperatureReady, c₂⟩ now).lastPower
      ≤ (s.processEvent ⟨.temperatureReady, c₁⟩ now).lastPower := by
  obtain ⟨hd, hs⟩ := reachable_spec hreach.reachable
  exact colder_of_ranged hd hs (sensorReachable_ranged hreach) hle h₁ h₂ hinc₁ hinc₂

/-- A controller that has measured 39 °C, a degree below its setpoint, a second after it was started. -/
def warming : Controller :=
  (Trace.run call (Controller.new none none (some (PwmDriver.init 1 heaterPrescaler heaterArr)))
    [.init 0, .input (.event ⟨.temperatureReady, 390⟩ 1000)]).1

/-- A controller that is warming up, at 43.5 and at 39.5 degrees. -/
theorem colder_heats_warming :
    (warming.processEvent ⟨.temperatureReady, 435⟩ 1750).lastPower
      ≤ (warming.processEvent ⟨.temperatureReady, 395⟩ 1750).lastPower := by
  have hreach : SensorReachable warming := by
    refine ⟨none, none, _, _, ?_, rfl⟩
    intro c hc
    rcases List.mem_cons.mp hc with rfl | hc
    · exact trivial
    · rw [List.mem_singleton.mp hc]
      exact fun _ => ⟨by decide, by decide⟩
  exact colder_heats hreach (by decide) ⟨by decide, by decide⟩ ⟨by decide, by decide⟩
    (show (_ : Nat) < 2147483648 by decide) (show (_ : Nat) < 2147483648 by decide)

end Controller
end Thermostat
