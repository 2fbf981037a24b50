import Thermostat.Utils.PID

/-!
# `Utils.Correctness.ExactPID` — the regulator in exact arithmetic

`PIDInt.update` cuts its intermediate results to `int32_t`. `exactOut` is the same formula on integers.

- **`update_exact`**: where no intermediate result leaves its register (`Fits`), the code computes
  `exactOut`.
- **`exactOut_mono`**: dead band, truncating divisions, saturation of the integral and of the output, and
  the derivative are each monotone in the error, and so is their composition.

Together: a regulator never asks for less when it measures less (`update_antitone`).
-/

namespace Thermostat
namespace PIDInt

open Word

variable (p : PIDInt)

/-- The nominal sample time, as the divisor and factor that the formula uses. -/
def baseDt : Int := int32 (if p.sampleTimeMs ≠ 0 then p.sampleTimeMs else 1 : Nat)

/-- The error with the dead band taken out. -/
def deaden (e : Int) : Int := if p.deadband > 0 ∧ (if e < 0 then -e else e) ≤ p.deadband then 0 else e

/-- The exact increment of the integral for an error that lasts `dt` ms. -/
def increment (e : Int) (dt : Nat) : Int := (e * dt).tdiv p.baseDt

/-- The exact derivative, from the second step on. -/
def slope (e : Int) (dt : Nat) : Int :=
  if p.hasPrev then ((e - p.prevError) * p.baseDt).tdiv dt else 0

/-- The output for the error `e`, in exact arithmetic. -/
def exactOut (e : Int) (dt : Nat) : Int :=
  clamp ((p.kp * e + p.ki * clamp (p.integral + p.increment e dt) p.integrMin p.integrMax
    + p.kd * p.slope e dt).tdiv SCALE) p.outMin p.outMax

/-- The value is one of `int32_t`. -/
def InInt32 (x : Int) : Prop := -2147483648 ≤ x ∧ x < 2147483648

/-- No intermediate result of a step with this error leaves its register. -/
structure Fits (e : Int) (dt : Nat) : Prop where
  error : -2147483648 < e ∧ e < 2147483648
  increment : InInt32 (p.increment (p.deaden e) dt)
  integral : InInt32 (p.integral + p.increment (p.deaden e) dt)
  delta : p.hasPrev = true → InInt32 (p.deaden e - p.prevError)
  slope : InInt32 (p.slope (p.deaden e) dt)
  out : InInt32 p.outMin ∧ InInt32 p.outMax ∧ p.outMin ≤ p.outMax

variable {p}

theorem int32_exact {x : Int} (h : InInt32 x) : int32 x = x := int32_eq_self h.1 h.2

theorem deaden_eq {e : Int} (hlo : -2147483648 < e) (hhi : e < 2147483648) :
    (if p.deadband > 0 ∧ abs32 e ≤ p.deadband then 0 else e) = p.deaden e := by
  unfold deaden abs32
  rw [int32_eq_self (x := -e) (by omega) (by omega)]

theorem Fits.cut_error {e : Int} {dt : Nat} (h : p.Fits e dt) : int32 e = e :=
  int32_eq_self (Int.le_of_lt h.error.1) h.error.2

theorem Fits.cut_integral {e : Int} {dt : Nat} (h : p.Fits e dt) :
    int32 (p.integral + int32 (p.increment (p.deaden e) dt)) = p.integral + p.increment (p.deaden e) dt := by
  rw [int32_exact h.increment, int32_exact h.integral]

/-- **Where nothing is cut, the code computes the exact output.** -/
theorem update_exact {sp m : Int} {dt : Nat} (hdt : dt ≠ 0) (h : p.Fits (sp - m) dt) :
    (p.update sp m dt).2 = p.exactOut (p.deaden (sp - m)) dt := by
  have hslope : (if p.hasPrev then
      int32 ((int32 (p.deaden (sp - m) - p.prevError) * p.baseDt).tdiv dt) else 0)
      = p.slope (p.deaden (sp - m)) dt := by
    have hfits := h.slope
    unfold slope at hfits ⊢
    cases hprev : p.hasPrev with
    | false => rfl
    | true =>
        rw [hprev, if_pos rfl] at hfits
        rw [if_pos rfl, if_pos rfl, int32_exact (h.delta hprev), int32_exact hfits]
  unfold update
  simp only [if_neg hdt, h.cut_error, deaden_eq h.error.1 h.error.2]
  change int32 (clamp ((p.kp * p.deaden (sp - m) + p.ki * clamp
      (int32 (p.integral + int32 (p.increment (p.deaden (sp - m)) dt))) p.integrMin p.integrMax
    + p.kd * (if p.hasPrev then
      int32 ((int32 (p.deaden (sp - m) - p.prevError) * p.baseDt).tdiv dt) else 0)).tdiv SCALE)
    p.outMin p.outMax) = _
  rw [hslope, h.cut_integral]
  obtain ⟨hmin, hmax, hle⟩ := h.out
  have hmem := clamp_mem hle ((p.kp * p.deaden (sp - m) + p.ki * clamp
      (p.integral + p.increment (p.deaden (sp - m)) dt) p.integrMin p.integrMax
    + p.kd * p.slope (p.deaden (sp - m)) dt).tdiv SCALE)
  exact int32_exact ⟨Int.le_trans hmin.1 hmem.1, Int.lt_of_le_of_lt hmem.2 hmax.2⟩

/-- The error that a step remembers. -/
theorem update_prevError {sp m : Int} (hlo : -2147483648 < sp - m) (hhi : sp - m < 2147483648) (dt : Nat) :
    (p.update sp m dt).1.prevError = p.deaden (sp - m) := by
  rw [← deaden_eq hlo hhi]
  have herror : int32 (sp - m) = sp - m := int32_eq_self (Int.le_of_lt hlo) hhi
  show (if p.deadband > 0 ∧ abs32 (int32 (sp - m)) ≤ p.deadband then 0 else int32 (sp - m)) = _
  rw [herror]

/-- The integral that a step remembers. -/
theorem update_integral_exact {sp m : Int} {dt : Nat} (hdt : dt ≠ 0) (h : p.Fits (sp - m) dt) :
    (p.update sp m dt).1.integral =
      clamp (p.integral + p.increment (p.deaden (sp - m)) dt) p.integrMin p.integrMax := by
  unfold update
  simp only [if_neg hdt, h.cut_error, deaden_eq h.error.1 h.error.2]
  exact congrArg (fun i => clamp i p.integrMin p.integrMax) h.cut_integral

/-- The integral stays inside its limits. -/
theorem update_integral (hle : p.integrMin ≤ p.integrMax) (sp m : Int) (dt : Nat) :
    p.integrMin ≤ (p.update sp m dt).1.integral ∧ (p.update sp m dt).1.integral ≤ p.integrMax :=
  clamp_mem hle _

/-! ## Every piece is monotone -/

theorem deaden_mono {e f : Int} (h : e ≤ f) : p.deaden e ≤ p.deaden f := by
  unfold deaden
  split_ifs <;> omega

theorem increment_mono {e f : Int} (h : e ≤ f) (hbase : 0 < p.baseDt) (dt : Nat) :
    p.increment e dt ≤ p.increment f dt :=
  Int.tdiv_le_tdiv hbase (Int.mul_le_mul_of_nonneg_right h (Int.natCast_nonneg dt))

theorem slope_mono {e f : Int} (h : e ≤ f) (hbase : 0 < p.baseDt) {dt : Nat} (hdt : dt ≠ 0) :
    p.slope e dt ≤ p.slope f dt := by
  unfold slope
  cases p.hasPrev with
  | false => exact Int.le_refl 0
  | true =>
      have hdelta : (e - p.prevError) * p.baseDt ≤ (f - p.prevError) * p.baseDt :=
        Int.mul_le_mul_of_nonneg_right (Int.sub_le_sub_right h p.prevError) (Int.le_of_lt hbase)
      have hpos : 0 < (dt : Int) := Int.natCast_pos.mpr (Nat.pos_of_ne_zero hdt)
      exact Int.tdiv_le_tdiv hpos hdelta

/-- **The exact output grows with the error**, for coefficients that are not negative. -/
theorem exactOut_mono (hkp : 0 ≤ p.kp) (hki : 0 ≤ p.ki) (hkd : 0 ≤ p.kd) (hbase : 0 < p.baseDt)
    {dt : Nat} (hdt : dt ≠ 0) {e f : Int} (h : e ≤ f) : p.exactOut e dt ≤ p.exactOut f dt := by
  apply clamp_mono
  apply Int.tdiv_le_tdiv (by decide)
  have hproportional : p.kp * e ≤ p.kp * f := Int.mul_le_mul_of_nonneg_left h hkp
  have hintegral := Int.mul_le_mul_of_nonneg_left
    (clamp_mono (Int.add_le_add_left (increment_mono h hbase dt) p.integral) p.integrMin p.integrMax) hki
  have hderivative := Int.mul_le_mul_of_nonneg_left (slope_mono h hbase hdt) hkd
  omega

/-- **Measuring less never asks for less**, where nothing is cut. -/
theorem update_antitone (hkp : 0 ≤ p.kp) (hki : 0 ≤ p.ki) (hkd : 0 ≤ p.kd) (hbase : 0 < p.baseDt)
    {dt : Nat} (hdt : dt ≠ 0) {sp m n : Int} (hle : m ≤ n) (hm : p.Fits (sp - m) dt)
    (hn : p.Fits (sp - n) dt) : (p.update sp n dt).2 ≤ (p.update sp m dt).2 := by
  rw [update_exact hdt hm, update_exact hdt hn]
  apply exactOut_mono hkp hki hkd hbase hdt
  apply deaden_mono
  omega

end PIDInt
end Thermostat
