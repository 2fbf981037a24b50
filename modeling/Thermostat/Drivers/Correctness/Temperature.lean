import Mathlib.Algebra.Order.Field.Rat
import Mathlib.Tactic.FieldSimp
import Mathlib.Tactic.Linarith
import Mathlib.Tactic.Ring
import Thermostat.Drivers.Correctness.Cycle
import Thermostat.Drivers.Correctness.Pulses

/-!
# `Drivers.Correctness.Temperature` — from an accepted frame to a temperature

`datasheet` is the temperature that a scratchpad stands for, in degrees. `decode_temperature` works in tenths
of a degree on integers. For the DS18B20 family it rounds down, for every raw value (`fixed_sound`). For the
DS18S20 family it divides by a byte of the frame, truncates towards zero, and cuts the sum to 16 bits.

**`decode_sound_iff`**: the condition on the bytes of an accepted frame under which the reported number is
the temperature.
-/

namespace Thermostat
namespace DS18B20

open Word

section Bytes

variable (m : Bytes 72)

/-- `raw >> 1`: whole degrees. -/
def wholeDegrees : Int := rawTemperature m / 2

/-- `COUNT_REMAIN`. -/
def countRemain : Int := (m.rd 6).toNat

/-- `COUNT_PER_C`. -/
def countPerC : Int := (m.rd 7).toNat

/-- The temperature of a scratchpad by the data sheets, in degrees. -/
def datasheet : ℚ :=
  if m.rd 4 = 0xFF then
    (wholeDegrees m : ℚ) - 1 / 4 + ((countPerC m : ℚ) - countRemain m) / countPerC m
  else (rawTemperature m : ℚ) / 16

/-- What `decode_temperature` computes, before it is cut to `int16_t`. -/
def exactTenths : Int :=
  if m.rd 4 = 0xFF then wholeDegrees m * 10 - 2 + ((countPerC m - countRemain m) * 10).tdiv (countPerC m)
  else rawTemperature m * 10 / 16

/-- The number is one of `ErrorStatus`. -/
def IsErrorCode (temp : Int) : Prop :=
  temp = tempErrorGeneric ∨ temp = tempErrorNoSensor ∨ temp = tempErrorCrcFail

/-- `action_decode` reports the temperature of the scratchpad: it does not divide by zero, the number is not
    changed by the cut and is no error code, and it is right to less than a tenth of a degree. -/
def ReportsTemperature : Prop :=
  ∃ temp, decodeReport (detectSensorType m) m = .tempReady temp ∧ temp = exactTenths m ∧
    ¬ IsErrorCode temp ∧ |(temp : ℚ) / 10 - datasheet m| < 1 / 10

/-- `COUNT_PER_C` times the tenths of degrees above -0.25. -/
def scaledTenths : Int := 10 * (wholeDegrees m * countPerC m + countPerC m - countRemain m)

/-- The frame comes from a DS18B20; or its divisor is not zero, the number lies between the error codes and
    the end of `int16_t`, and the truncation, where it rounds up, rounds by less than half a tenth. -/
def Decodable : Prop :=
  m.rd 4 ≠ 0xFF ∨
  countPerC m ≠ 0 ∧
    ((countRemain m ≤ countPerC m ∧
        countPerC m * -32763 ≤ scaledTenths m ∧ scaledTenths m < countPerC m * 32770) ∨
      (countPerC m < countRemain m ∧
        countPerC m * -32764 < scaledTenths m ∧ scaledTenths m ≤ countPerC m * 32769 ∧
        2 * (10 * (countRemain m - countPerC m) % countPerC m) < countPerC m))

end Bytes

/-! ## Bounds on a quotient -/

/-- A quotient that is rounded down. -/
theorem floor_bounds {c k rem n : Int} (hc : 0 < c) (hlow : 0 ≤ rem) (hhigh : rem < c) (h : c * k + rem = n)
    (lo hi : Int) : (lo ≤ k ↔ c * lo ≤ n) ∧ (k ≤ hi ↔ n < c * (hi + 1)) := by
  refine ⟨⟨?_, ?_⟩, ?_, ?_⟩
  · intro hk
    have := Int.mul_le_mul_of_nonneg_left hk (Int.le_of_lt hc)
    omega
  · intro hn
    have hlt : c * (lo - 1) < c * k := by
      rw [Int.mul_sub, Int.mul_one]
      omega
    have := lt_of_mul_lt_mul_left hlt (Int.le_of_lt hc)
    omega
  · intro hk
    have := Int.mul_le_mul_of_nonneg_left hk (Int.le_of_lt hc)
    rw [Int.mul_add, Int.mul_one]
    omega
  · intro hn
    have hlt : c * k < c * (hi + 1) := by omega
    have := lt_of_mul_lt_mul_left hlt (Int.le_of_lt hc)
    omega

/-- A quotient that is rounded up. -/
theorem ceil_bounds {c k rem n : Int} (hc : 0 < c) (hlow : 0 ≤ rem) (hhigh : rem < c) (h : c * k = n + rem)
    (lo hi : Int) : (lo ≤ k ↔ c * (lo - 1) < n) ∧ (k ≤ hi ↔ n ≤ c * hi) := by
  have hdown := floor_bounds (k := -k) (n := -n) hc hlow hhigh (by rw [Int.mul_neg]; omega) (-hi) (-lo)
  rw [Int.mul_neg] at hdown
  have hshift : c * (-lo + 1) = -(c * (lo - 1)) := by
    rw [← Int.mul_neg]
    congr 1
    omega
  rw [hshift] at hdown
  omega

/-! ## The DS18S20 -/

section S20

variable {h c r : Int}

/-- The truncation rounds down while `COUNT_REMAIN` is at most `COUNT_PER_C`. -/
theorem fine_down (hc : 0 < c) (hle : r ≤ c) :
    ∃ rem, 0 ≤ rem ∧ rem < c ∧ c * (((c - r) * 10).tdiv c) + rem = (c - r) * 10 := by
  refine ⟨(c - r) * 10 % c, Int.emod_nonneg _ (by omega), Int.emod_lt_of_pos _ hc, ?_⟩
  rw [Int.tdiv_eq_ediv_of_nonneg (by omega)]
  exact Int.mul_ediv_add_emod _ _

/-- It rounds up, towards zero, beyond. -/
theorem fine_up (hc : 0 < c) (hlt : c < r) :
    ∃ rem, rem = 10 * (r - c) % c ∧ 0 ≤ rem ∧ rem < c ∧
      c * (((c - r) * 10).tdiv c) = (c - r) * 10 + rem := by
  refine ⟨10 * (r - c) % c, rfl, Int.emod_nonneg _ (by omega), Int.emod_lt_of_pos _ hc, ?_⟩
  have hneg : (c - r) * 10 = -(10 * (r - c)) := by omega
  have hdiv := Int.mul_ediv_add_emod (10 * (r - c)) c
  rw [hneg, Int.neg_tdiv, Int.tdiv_eq_ediv_of_nonneg (by omega), Int.mul_neg]
  omega

/-- The range of the sum, without a division. -/
theorem s20_range_down {t rem : Int} (hc : 0 < c) (hlow : 0 ≤ rem) (hhigh : rem < c)
    (ht : c * t + rem = (c - r) * 10) :
    (-32765 ≤ h * 10 - 2 + t ∧ h * 10 - 2 + t ≤ 32767)
      ↔ c * -32763 ≤ 10 * (h * c + c - r) ∧ 10 * (h * c + c - r) < c * 32770 := by
  have hsum : c * (h * 10 + t) + rem = 10 * (h * c + c - r) := by linarith
  obtain ⟨hlo, hhi⟩ := floor_bounds hc hlow hhigh hsum (-32763) 32769
  rw [← hlo, show c * 32770 = c * (32769 + 1) from rfl, ← hhi]
  omega

theorem s20_range_up {t rem : Int} (hc : 0 < c) (hlow : 0 ≤ rem) (hhigh : rem < c)
    (ht : c * t = (c - r) * 10 + rem) :
    (-32765 ≤ h * 10 - 2 + t ∧ h * 10 - 2 + t ≤ 32767)
      ↔ c * -32764 < 10 * (h * c + c - r) ∧ 10 * (h * c + c - r) ≤ c * 32769 := by
  have hsum : c * (h * 10 + t) = 10 * (h * c + c - r) + rem := by linarith
  obtain ⟨hlo, hhi⟩ := ceil_bounds hc hlow hhigh hsum (-32763) 32769
  rw [← hhi, show c * -32764 = c * (-32763 - 1) from rfl, ← hlo]
  omega

/-- The error of the integer formula, with what the truncation leaves. -/
theorem s20_error {t rem : Int} (hc : 0 < c) (ht : c * t + rem = (c - r) * 10) :
    ((h * 10 - 2 + t : Int) : ℚ) / 10 - ((h : ℚ) - 1 / 4 + ((c : ℚ) - r) / c)
      = ((c : ℚ) / 2 - rem) / (10 * c) := by
  have hpos : (c : ℚ) ≠ 0 := by
    have : (0 : ℚ) < c := Int.cast_pos.mpr hc
    exact ne_of_gt this
  have hcast : (c : ℚ) * t + rem = (c - r) * 10 := by exact_mod_cast ht
  have hfraction : ((c : ℚ) - r) / c = (t + rem / c) / 10 := by
    field_simp
    linarith
  rw [hfraction]
  push_cast
  field_simp
  ring

/-- Less than a tenth: `rem` is the rounding of the quotient, up if negative. -/
theorem s20_error_lt {t rem : Int} (hc : 0 < c) (ht : c * t + rem = (c - r) * 10)
    (hhigh : rem < c) :
    |((h * 10 - 2 + t : Int) : ℚ) / 10 - ((h : ℚ) - 1 / 4 + ((c : ℚ) - r) / c)| < 1 / 10
      ↔ -c < 2 * rem := by
  have hpos : (0 : ℚ) < c := Int.cast_pos.mpr hc
  have hten : (0 : ℚ) < 10 * c := by linarith
  have hup : (rem : ℚ) < c := Int.cast_lt.mpr hhigh
  rw [s20_error hc ht, abs_lt, lt_div_iff₀ hten, div_lt_iff₀ hten]
  constructor
  · rintro ⟨-, hright⟩
    have hcast : -(c : ℚ) < 2 * rem := by linarith
    exact_mod_cast hcast
  · intro hrem
    have hcast : -(c : ℚ) < 2 * rem := by exact_mod_cast hrem
    constructor <;> linarith

end S20

/-! ## The DS18B20 -/

theorem fixed_error (raw : Int) : |((raw * 10 / 16 : Int) : ℚ) / 10 - (raw : ℚ) / 16| < 1 / 10 := by
  have hdiv := Int.mul_ediv_add_emod (raw * 10) 16
  have hlow := Int.emod_nonneg (raw * 10) (b := 16) (by omega)
  have hhigh := Int.emod_lt_of_pos (raw * 10) (b := 16) (by omega)
  generalize raw * 10 / 16 = q at *
  generalize raw * 10 % 16 = rem at *
  have hcast : (16 : ℚ) * q + rem = raw * 10 := by exact_mod_cast hdiv
  have hlowq : (0 : ℚ) ≤ rem := by exact_mod_cast hlow
  have hhighq : (rem : ℚ) < 16 := by exact_mod_cast hhigh
  rw [abs_lt]
  constructor <;> linarith

/-! ## Accepted frames -/

variable {m : Bytes 72}

theorem report_divides (hcrc : m.rd 8 = checkScratchpadCrc m) (hfamily : m.rd 4 = 0xFF)
    (hzero : countPerC m = 0) : decodeReport (detectSensorType m) m = .divideByZero := by
  unfold countPerC at hzero
  unfold decodeReport decodeTemperature detectSensorType
  simp [hcrc, hfamily, hzero]

theorem report_s20 (hcrc : m.rd 8 = checkScratchpadCrc m) (hfamily : m.rd 4 = 0xFF)
    (hne : countPerC m ≠ 0) :
    decodeReport (detectSensorType m) m = .tempReady (int16 (exactTenths m)) := by
  unfold exactTenths wholeDegrees countRemain
  unfold countPerC at *
  unfold decodeReport decodeTemperature detectSensorType
  simp only [hcrc, hfamily, if_true, if_neg hne]

theorem report_b20 (hcrc : m.rd 8 = checkScratchpadCrc m) (hfamily : m.rd 4 ≠ 0xFF) :
    decodeReport (detectSensorType m) m = .tempReady (int16 (exactTenths m)) := by
  have hother : ¬ (0x28 : UInt8) = 0x10 := by decide
  unfold exactTenths decodeReport decodeTemperature detectSensorType
  simp only [hcrc, if_true, if_neg hfamily, if_neg hother]

/-- The number is in `int16_t` and no error code. -/
theorem int16_sound_iff (x : Int) : (int16 x = x ∧ ¬ IsErrorCode (int16 x)) ↔ -32765 ≤ x ∧ x ≤ 32767 := by
  unfold IsErrorCode tempErrorGeneric tempErrorNoSensor tempErrorCrcFail int16
  omega

/-- **Every frame of a DS18B20** is reported as its temperature. -/
theorem fixed_sound (hcrc : m.rd 8 = checkScratchpadCrc m) (hfamily : m.rd 4 ≠ 0xFF) :
    ReportsTemperature m := by
  have hrange := rawTemperature_range m
  have hexact : exactTenths m = rawTemperature m * 10 / 16 := if_neg hfamily
  obtain ⟨hcut, hcode⟩ := (int16_sound_iff (exactTenths m)).mpr (by omega)
  refine ⟨_, report_b20 hcrc hfamily, hcut, hcode, ?_⟩
  rw [hcut, hexact]
  unfold datasheet
  rw [if_neg hfamily]
  exact fixed_error (rawTemperature m)

/-- The DS18S20, in terms of the number that is cut and of its error. -/
theorem s20_reports_iff (hcrc : m.rd 8 = checkScratchpadCrc m) (hfamily : m.rd 4 = 0xFF)
    (hne : countPerC m ≠ 0) :
    ReportsTemperature m ↔ (-32765 ≤ exactTenths m ∧ exactTenths m ≤ 32767) ∧
      |(exactTenths m : ℚ) / 10 - datasheet m| < 1 / 10 := by
  unfold ReportsTemperature
  rw [report_s20 hcrc hfamily hne, ← int16_sound_iff]
  constructor
  · rintro ⟨temp, hreport, hexact, hcode, herror⟩
    have htemp : int16 (exactTenths m) = temp := Effect.tempReady.inj hreport
    rw [htemp]
    exact ⟨⟨hexact, hcode⟩, hexact ▸ herror⟩
  · rintro ⟨⟨hcut, hcode⟩, herror⟩
    exact ⟨_, rfl, hcut, hcode, hcut.symm ▸ herror⟩

/-- **The frame of a DS18S20** is reported as its temperature exactly if it is decodable. -/
theorem s20_sound_iff (hcrc : m.rd 8 = checkScratchpadCrc m) (hfamily : m.rd 4 = 0xFF) :
    ReportsTemperature m ↔ Decodable m := by
  by_cases hzero : countPerC m = 0
  · constructor
    · rintro ⟨temp, hreport, -⟩
      rw [report_divides hcrc hfamily hzero] at hreport
      cases hreport
    · rintro (hother | ⟨hne, -⟩)
      · exact absurd hfamily hother
      · exact absurd hzero hne
  · have hpos : 0 < countPerC m := by
      unfold countPerC at *
      omega
    have hexact : exactTenths m
        = wholeDegrees m * 10 - 2 + ((countPerC m - countRemain m) * 10).tdiv (countPerC m) := if_pos hfamily
    have hsheet : datasheet m
        = (wholeDegrees m : ℚ) - 1 / 4 + ((countPerC m : ℚ) - countRemain m) / countPerC m := if_pos hfamily
    rw [s20_reports_iff hcrc hfamily hzero, hexact, hsheet]
    unfold Decodable scaledTenths
    by_cases hle : countRemain m ≤ countPerC m
    · -- the truncation rounds down, so the error is small anyway
      obtain ⟨rem, hlow, hhigh, hdiv⟩ := fine_down hpos hle
      rw [s20_range_down hpos hlow hhigh hdiv, s20_error_lt hpos hdiv hhigh]
      constructor
      · rintro ⟨hrange, -⟩
        exact Or.inr ⟨hzero, Or.inl ⟨hle, hrange⟩⟩
      · rintro (hother | ⟨-, ⟨-, hrange⟩ | ⟨hlt, -⟩⟩)
        · exact absurd hfamily hother
        · exact ⟨hrange, by omega⟩
        · omega
    · -- it rounds up
      obtain ⟨rem, hrem, hlow, hhigh, hdiv⟩ := fine_up hpos (Int.not_le.mp hle)
      have hneg : countPerC m * ((countPerC m - countRemain m) * 10).tdiv (countPerC m) + -rem
          = (countPerC m - countRemain m) * 10 := by omega
      rw [s20_range_up hpos hlow hhigh hdiv, s20_error_lt hpos hneg (by omega), ← hrem]
      constructor
      · rintro ⟨⟨hlo, hhi⟩, herror⟩
        exact Or.inr ⟨hzero, Or.inr ⟨by omega, hlo, hhi, by omega⟩⟩
      · rintro (hother | ⟨-, ⟨hle', -⟩ | ⟨-, hlo, hhi, hround⟩⟩)
        · exact absurd hfamily hother
        · exact absurd hle' hle
        · exact ⟨⟨hlo, hhi⟩, by omega⟩

/-- **When an accepted frame is reported as its temperature.** -/
theorem decode_sound_iff (hcrc : m.rd 8 = checkScratchpadCrc m) : ReportsTemperature m ↔ Decodable m := by
  by_cases hfamily : m.rd 4 = 0xFF
  · exact s20_sound_iff hcrc hfamily
  · exact ⟨fun _ => Or.inl hfamily, fun _ => fixed_sound hcrc hfamily⟩

/-- A decodable frame is reported as its temperature. -/
theorem decodable_sound (hcrc : m.rd 8 = checkScratchpadCrc m) (h : Decodable m) : ReportsTemperature m := by
  by_cases hfamily : m.rd 4 = 0xFF
  · exact (s20_sound_iff hcrc hfamily).mpr h
  · exact fixed_sound hcrc hfamily

/-! ## Single frames -/

/-- A DS18S20 at about 25 degrees. -/
def roomFrame : Bytes 72 := loaded [0x32, 0, 0x4B, 0x46, 0xFF, 0xFF, 0x0C, 0x10, 0x6B]

/-- The same frame with `COUNT_PER_C` zero. -/
def divisorFrame : Bytes 72 := loaded [0x32, 0, 0x4B, 0x46, 0xFF, 0xFF, 0x0C, 0, 0xF6]

/-- A frame that stands for the code of a missing sensor. -/
def codeFrame : Bytes 72 := loaded [0x68, 0xE6, 0x4B, 0x46, 0xFF, 0xFF, 3, 2, 0xD2]

theorem decode_sound_iff_room :
    roomFrame.rd 8 = checkScratchpadCrc roomFrame ∧ (ReportsTemperature roomFrame ↔ Decodable roomFrame) :=
  ⟨by decide +kernel, decode_sound_iff (by decide +kernel)⟩

theorem divisorFrame_report :
    divisorFrame.rd 8 = checkScratchpadCrc divisorFrame ∧
      decodeReport (detectSensorType divisorFrame) divisorFrame = .divideByZero := by decide +kernel

theorem codeFrame_report :
    codeFrame.rd 8 = checkScratchpadCrc codeFrame ∧
      decodeReport (detectSensorType codeFrame) codeFrame = .tempReady tempErrorNoSensor := by decide +kernel

/-- Two frames with a right CRC that are not reported as temperatures: one divides by zero, the other comes
    out as an error code. -/
theorem accepted_wrong :
    (∃ m, m.rd 8 = checkScratchpadCrc m ∧ decodeReport (detectSensorType m) m = .divideByZero ∧
      ¬ ReportsTemperature m) ∧
    ∃ m, m.rd 8 = checkScratchpadCrc m ∧
      decodeReport (detectSensorType m) m = .tempReady tempErrorNoSensor ∧ ¬ ReportsTemperature m := by
  constructor
  · obtain ⟨hcrc, hreport⟩ := divisorFrame_report
    refine ⟨divisorFrame, hcrc, hreport, ?_⟩
    rintro ⟨temp, htemp, -⟩
    rw [hreport] at htemp
    cases htemp
  · obtain ⟨hcrc, hreport⟩ := codeFrame_report
    refine ⟨codeFrame, hcrc, hreport, ?_⟩
    rintro ⟨temp, htemp, -, hcode, -⟩
    rw [hreport] at htemp
    exact hcode (Or.inr (Or.inl (Effect.tempReady.inj htemp).symm))

end DS18B20
end Thermostat
