import Thermostat.Services.Correctness.Colder

/-!
# `Services.Correctness.ExactRegulator` — where the regulator is exact

On a sample that does not overheat, the controller takes one step of its regulator. `ExactSample` says that
this step remembers and answers what the same formulas give on integers, and that no cut to 32 bits changes
a value on the way.

**`exactSample_iff`**: with samples of the sensor this is so exactly as long as the error times the time
since the last step is small enough for the integral's increment to fit. The increment is cut before the
integral is limited, so a longer pause can turn it to the other side (`exactSample_wrong`).
-/

namespace Thermostat

open Config Word

namespace Heating

variable {h : Heating}

/-- The regulator after a sample that does not overheat. -/
theorem sample_pid {v : Int} (hcool : ¬ (h.setCurrent v).tooHot = true) (now : UInt32) :
    (h.sample v now).pid = (h.base.update h.setpoint v (h.span now).toNat).1 := by
  unfold sample decideSample
  rw [if_neg hcool]
  rw [enter_false_pid]
  exact congrArg Prod.fst (regulate_step v now)

theorem sample_power {v : Int} (hcool : ¬ (h.setCurrent v).tooHot = true) (now : UInt32) :
    (h.sample v now).power = (h.base.update h.setpoint v (h.span now).toNat).2 := by
  unfold sample decideSample
  rw [if_neg hcool, enter_false_power, regulate_power]

/-- The error times the time since the last step leaves room for the increment of the integral. -/
def RoomFor (h : Heating) (v : Int) (now : UInt32) : Prop :=
  (h.setpoint - v) * (h.span now).toNat < 1000 * (2147483648 - max h.base.integral 0)

/-- A product that is not far below zero, divided by 1000 and added to the integral, fits iff there is room
    above. -/
theorem fits_iff {x i : Int} (hlow : -200000000000 ≤ x) (hi : -2000 ≤ i ∧ i ≤ 2000) :
    PIDInt.InInt32 (x.tdiv 1000) ∧ PIDInt.InInt32 (i + x.tdiv 1000) ↔
      x < 1000 * (2147483648 - max i 0) := by
  unfold PIDInt.InInt32
  by_cases hneg : x < 0
  · have htdiv : x.tdiv 1000 = -((-x) / 1000) := by
      rw [← Int.tdiv_eq_ediv_of_nonneg (by omega), Int.neg_tdiv, Int.neg_neg]
    omega
  · have htdiv : x.tdiv 1000 = x / 1000 := Int.tdiv_eq_ediv_of_nonneg (by omega)
    omega

/-- An error in the dead band leaves room, and any other is kept by it. -/
theorem deaden_cases (hs : Sound h) (e : Int) :
    h.base.deaden e = e ∨ h.base.deaden e = 0 ∧ -1 ≤ e ∧ e ≤ 1 := by
  have hband : h.base.deadband = 1 := (base_tuned hs).2.2.2.2.2.2.2.2
  unfold PIDInt.deaden
  rw [hband]
  split_ifs <;> omega

/-- The increment and the integral fit iff there is room: a sample that does not overheat cannot take much
    from the integral, however long the pause. -/
theorem increment_fits_iff (hr : Ranged h) (hs : Sound h) {v : Int}
    (hcool : v ≤ h.setpoint + controllerErrorDelta) (now : UInt32) :
    PIDInt.InInt32 (h.base.increment (h.base.deaden (h.setpoint - v)) (h.span now).toNat) ∧
      PIDInt.InInt32
        (h.base.integral + h.base.increment (h.base.deaden (h.setpoint - v)) (h.span now).toNat) ↔
    h.RoomFor v now := by
  obtain ⟨hintegral, -⟩ := base_ranged hr
  have hspan := (h.span now).toNat_lt
  unfold RoomFor PIDInt.increment
  rw [baseDt_tuned (base_tuned hs)]
  generalize (h.span now).toNat = dt at hspan
  have herror : -30 ≤ h.setpoint - v := by
    have hdelta : controllerErrorDelta = 30 := rfl
    omega
  rcases deaden_cases hs (h.setpoint - v) with hkeep | ⟨hzero, hbelow, habove⟩
  · have hlow : -30 * (dt : Int) ≤ (h.setpoint - v) * dt :=
      Int.mul_le_mul_of_nonneg_right herror (Int.natCast_nonneg dt)
    rw [hkeep]
    exact fits_iff (by omega) hintegral
  · -- nothing is added, and the error is too small to matter
    have hsmall : (h.setpoint - v) * dt ≤ 1 * dt :=
      Int.mul_le_mul_of_nonneg_right habove (Int.natCast_nonneg dt)
    rw [hzero, Int.zero_mul]
    have hroom : (h.setpoint - v) * dt < 1000 * (2147483648 - max h.base.integral 0) := by omega
    exact iff_of_true ((fits_iff (by omega) hintegral).mpr (by omega)) hroom

end Heating

namespace Controller

open Heating (FromSensor)

/-- The step of the regulator on the sample `v` is exact: what it remembers, what it answers, and every
    value on the way. `base` is the regulator that the step starts from, emptied when the error mode is
    left, and `span` the time since its last step. -/
structure ExactSample (s : Controller) (v : Int) (now : UInt32) : Prop where
  sampleTime : s.heating.base.baseDt = s.heating.base.sampleTimeMs
  uncut : s.heating.base.Fits (s.setpoint - v) (s.heating.span now).toNat
  integral : (s.processEvent ⟨.temperatureReady, v⟩ now).pid.integral =
    clamp (s.heating.base.integral
      + s.heating.base.increment (s.heating.base.deaden (s.setpoint - v)) (s.heating.span now).toNat)
      controllerPidIntegrMin controllerPidIntegrMax
  previous : (s.processEvent ⟨.temperatureReady, v⟩ now).pid.prevError =
    s.heating.base.deaden (s.setpoint - v)
  output : (s.processEvent ⟨.temperatureReady, v⟩ now).heaterPower =
    s.heating.base.exactOut (s.heating.base.deaden (s.setpoint - v)) (s.heating.span now).toNat

theorem heating_sample (s : Controller) (v : Int) (now : UInt32) :
    (s.processEvent ⟨.temperatureReady, v⟩ now).heating = s.heating.sample v now := by
  rw [heating_processEvent]
  rfl

theorem exactSample_of_fits {s : Controller} (hs : s.heating.Sound) {v : Int} (now : UInt32)
    (hcool : v ≤ s.setpoint + controllerErrorDelta)
    (h : s.heating.base.Fits (s.setpoint - v) (s.heating.span now).toNat) : ExactSample s v now := by
  have htuned := Heating.base_tuned hs
  have hcool' : ¬ (s.heating.setCurrent v).tooHot = true := by
    intro hhot
    have hlt : v > s.setpoint + controllerErrorDelta := of_decide_eq_true hhot
    omega
  have hdt := s.heating.span_ne_zero now
  have hpid : (s.processEvent ⟨.temperatureReady, v⟩ now).pid = (s.heating.sample v now).pid :=
    congrArg Heating.pid (heating_sample s v now)
  have hpower : (s.processEvent ⟨.temperatureReady, v⟩ now).heaterPower = (s.heating.sample v now).power :=
    congrArg Heating.power (heating_sample s v now)
  rw [Heating.sample_pid hcool'] at hpid
  rw [Heating.sample_power hcool'] at hpower
  refine ⟨?_, h, ?_, ?_, ?_⟩
  · have hsample : s.heating.base.sampleTimeMs = 1000 := htuned.2.2.2.2.2.2.2.1
    rw [Heating.baseDt_tuned htuned, hsample]
    rfl
  · have hmin : s.heating.base.integrMin = controllerPidIntegrMin := htuned.2.2.2.2.2.1
    have hmax : s.heating.base.integrMax = controllerPidIntegrMax := htuned.2.2.2.2.2.2.1
    rw [hpid, ← hmin, ← hmax]
    exact PIDInt.update_integral_exact hdt h
  · rw [hpid]
    exact PIDInt.update_prevError h.error.1 h.error.2 _
  · rw [hpower]
    exact PIDInt.update_exact hdt h

/-- **The regulator is exact**, in every state and on every sample of the sensor that does not overheat, if
    and only if there is room for the increment of the integral. -/
theorem exactSample_iff {s : Controller} (hreach : SensorReachable s) {v : Int} (hv : FromSensor v)
    (hcool : v ≤ s.setpoint + controllerErrorDelta) (now : UInt32) :
    ExactSample s v now ↔
      (s.setpoint - v) * (s.heating.span now).toNat < 1000 * (2147483648 - max s.heating.base.integral 0) := by
  obtain ⟨-, hs⟩ := reachable_spec hreach.reachable
  have hr := sensorReachable_ranged hreach
  have hfits := Heating.increment_fits_iff hr hs hcool now
  constructor
  · intro hexact
    exact hfits.mp ⟨hexact.uncut.increment, hexact.uncut.integral⟩
  · intro hroom
    obtain ⟨hincrement, hintegral⟩ := hfits.mpr hroom
    exact exactSample_of_fits hs now hcool (Heating.base_fits_of hr hs hv hincrement hintegral)

/-- A controller that has just been started, at a setpoint of 40 °C. -/
def started : Controller :=
  (Trace.run call (Controller.new none none (some (PwmDriver.init 1 heaterPrescaler heaterArr))) [.init 0]).1

theorem started_reachable : SensorReachable started := by
  refine ⟨none, none, _, _, ?_, rfl⟩
  intro c hc
  rw [List.mem_singleton.mp hc]
  exact trivial

theorem exactSample_started : ExactSample started (-500) 1000 :=
  (exactSample_iff started_reachable ⟨by omega, by omega⟩ (by decide) 1000).mpr (by decide)

/-- After a pause of 27.6 days, 90 °C too little saturate the integral on the wrong side. -/
theorem exactSample_wrong :
    SensorReachable started ∧ FromSensor (-500) ∧ -500 ≤ started.setpoint + controllerErrorDelta ∧
      (started.processEvent ⟨.temperatureReady, -500⟩ 2386092943).pid.integral = controllerPidIntegrMin ∧
      ¬ ExactSample started (-500) 2386092943 := by
  refine ⟨started_reachable, ⟨by omega, by omega⟩, by decide, by decide +kernel, ?_⟩
  intro hexact
  have hintegral := hexact.integral
  revert hintegral
  decide +kernel

end Controller
end Thermostat
