import Thermostat.Lib.Word

/-!
# `Utils.PID` — the fixed-point PID regulator

`PIDInt` of `PID.hpp`. All quantities are `Int`; the products are 64-bit in the source and cannot leave
that range (a 32-bit error times a 32-bit time), so only the cuts back to `int32_t` are written.
-/

namespace Thermostat

open Word

/-- Coefficients are scaled by `SCALE`; the last three fields are the regulator's memory. -/
structure PIDInt where
  kp : Int
  ki : Int
  kd : Int
  outMin : Int
  outMax : Int
  integrMin : Int
  integrMax : Int
  sampleTimeMs : Nat
  deadband : Int
  integral : Int
  prevError : Int
  hasPrev : Bool
deriving DecidableEq, Repr

namespace PIDInt

def SCALE : Int := 1000

/-- The constructor. -/
def new (kp ki kd outMin outMax integrMin integrMax : Int) (sampleTimeMs : Nat) (deadband : Int) :
    PIDInt where
  kp := kp
  ki := ki
  kd := kd
  outMin := outMin
  outMax := outMax
  integrMin := integrMin
  integrMax := integrMax
  sampleTimeMs := if sampleTimeMs ≠ 0 then sampleTimeMs else 1
  deadband := if deadband ≥ 0 then deadband else 0
  integral := 0
  prevError := 0
  hasPrev := false

def reset (p : PIDInt) : PIDInt := { p with integral := 0, prevError := 0, hasPrev := false }

def abs32 (v : Int) : Int := if v < 0 then int32 (-v) else v

/-- One regulator step: the new memory and the output. -/
def update (p : PIDInt) (setpoint measured : Int) (dtMs : Nat) : PIDInt × Int :=
  let dtMs := if dtMs = 0 then p.sampleTimeMs else dtMs
  let dtMs := if dtMs = 0 then 1 else dtMs
  let error := int32 (setpoint - measured)
  let error := if p.deadband > 0 ∧ abs32 error ≤ p.deadband then 0 else error
  let baseDt := int32 (if p.sampleTimeMs ≠ 0 then p.sampleTimeMs else 1 : Nat)
  -- integral part, with anti-windup
  let integralIncrement := (error * dtMs).tdiv baseDt
  let integral := clamp (int32 (p.integral + int32 integralIncrement)) p.integrMin p.integrMax
  -- derivative part, from the second step on
  let derivative :=
    if p.hasPrev then int32 ((int32 (error - p.prevError) * baseDt).tdiv dtMs) else 0
  let sum := p.kp * error + p.ki * integral + p.kd * derivative
  let out := clamp (sum.tdiv SCALE) p.outMin p.outMax
  ({ p with integral := integral, prevError := error, hasPrev := true }, int32 out)

/-! ## What a step keeps -/

/-- The two regulators have the same coefficients and limits. -/
def SameTuning (p q : PIDInt) : Prop :=
  p.kp = q.kp ∧ p.ki = q.ki ∧ p.kd = q.kd ∧ p.outMin = q.outMin ∧ p.outMax = q.outMax ∧
  p.integrMin = q.integrMin ∧ p.integrMax = q.integrMax ∧ p.sampleTimeMs = q.sampleTimeMs ∧
  p.deadband = q.deadband

theorem SameTuning.refl (p : PIDInt) : SameTuning p p :=
  ⟨rfl, rfl, rfl, rfl, rfl, rfl, rfl, rfl, rfl⟩

theorem reset_sameTuning {p q : PIDInt} (h : SameTuning p q) : SameTuning p.reset q := h

theorem update_sameTuning {p q : PIDInt} (h : SameTuning p q) (sp m : Int) (dt : Nat) :
    SameTuning (p.update sp m dt).1 q := h

/-- Only the three memory fields are left open by the tuning: a reset regulator is determined. -/
theorem reset_eq_of_sameTuning {p q : PIDInt} (h : SameTuning p q) : p.reset = q.reset := by
  obtain ⟨h1, h2, h3, h4, h5, h6, h7, h8, h9⟩ := h
  simp only [reset, h1, h2, h3, h4, h5, h6, h7, h8, h9]

/-- The output stays inside the output limits. -/
theorem update_mem {p : PIDInt} (h0 : -2147483648 ≤ p.outMin) (hle : p.outMin ≤ p.outMax)
    (h1 : p.outMax < 2147483648) (sp m : Int) (dt : Nat) :
    p.outMin ≤ (p.update sp m dt).2 ∧ (p.update sp m dt).2 ≤ p.outMax := by
  simp only [update]
  generalize Int.tdiv _ SCALE = raw
  obtain ⟨hlo, hhi⟩ := clamp_mem hle raw
  rw [int32_eq_self (by omega) (by omega)]
  exact ⟨hlo, hhi⟩

end PIDInt
end Thermostat
