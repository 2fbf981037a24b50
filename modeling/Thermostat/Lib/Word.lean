import Mathlib.Tactic.SplitIfs

/-!
# `Lib.Word` — two's-complement cuts, saturation and a wrapping clock

Signed machine integers are `Int` with the cut to `w` bits written where it happens: `int32 x` and
`int16 x` are what remains of `x` in a register of that width. Unsigned 32-bit clock readings are
`UInt32`, whose subtraction already wraps; `reached` and `elapsed` are the two comparisons firmware
makes on such a clock.
-/

namespace Word

/-- The two's-complement value of the low 32 bits of `x`. -/
def int32 (x : Int) : Int := (x + 2147483648) % 4294967296 - 2147483648

/-- The two's-complement value of the low 16 bits of `x`. -/
def int16 (x : Int) : Int := (x + 32768) % 65536 - 32768

/-- Saturate `v` to `[lo, hi]`, lower bound first. -/
def clamp (v lo hi : Int) : Int :=
  let v := if v < lo then lo else v
  if v > hi then hi else v

/-- A wrapping clock has reached a deadline: the signed distance is not negative. -/
def reached (now deadline : UInt32) : Bool := 0 ≤ int32 ((now - deadline).toNat : Int)

/-- At least `duration` has gone by on a wrapping clock. -/
def elapsed (now since duration : UInt32) : Bool := duration ≤ now - since

/-! ## Cuts that lose nothing -/

theorem int32_eq_self {x : Int} (hlo : -2147483648 ≤ x) (hhi : x < 2147483648) : int32 x = x := by
  unfold int32
  omega

theorem int16_eq_self {x : Int} (hlo : -32768 ≤ x) (hhi : x < 32768) : int16 x = x := by
  unfold int16
  omega

/-! ## Saturation -/

/-- Saturation lands in the interval. -/
theorem clamp_mem {lo hi : Int} (h : lo ≤ hi) (v : Int) : lo ≤ clamp v lo hi ∧ clamp v lo hi ≤ hi := by
  unfold clamp
  simp only
  split_ifs <;> omega

/-- Saturation does not move a value that is already inside. -/
theorem clamp_eq_self {v lo hi : Int} (hlo : lo ≤ v) (hhi : v ≤ hi) : clamp v lo hi = v := by
  unfold clamp
  simp only
  split_ifs <;> omega

/-- Saturation keeps the order. -/
theorem clamp_mono {v w : Int} (h : v ≤ w) (lo hi : Int) : clamp v lo hi ≤ clamp w lo hi := by
  unfold clamp
  simp only
  split_ifs <;> omega

end Word
