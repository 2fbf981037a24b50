import Mathlib.Data.Nat.Basic

/-!
# `Lib.Fields` — a word as a row of fields

Peripheral registers pack fields of one width side by side. `get` reads the field with a given number, and `set`
is the update firmware makes: the field is masked out, and the new value shifted in.

`get_set_same`, `get_set_ne` and `set_get`: an update is seen by its own field, by no other one, and changes
nothing if it sets what is there already.
-/

namespace Fields

variable {n w : Nat}

/-- The field number `i`. -/
def get (w : Nat) (r : BitVec n) (i : Nat) : BitVec w := r.extractLsb' (w * i) w

/-- The ones of the field number `i`. -/
def mask (n w i : Nat) : BitVec n := (BitVec.allOnes w).setWidth n <<< (w * i)

/-- Mask the field out and shift the new value in. -/
def set (r : BitVec n) (i : Nat) (v : BitVec w) : BitVec n :=
  (r &&& ~~~ mask n w i) ||| (v.setWidth n <<< (w * i))

/-- Without a new value the field is cleared. -/
theorem set_zero (r : BitVec n) (i : Nat) : set r i 0#w = r &&& ~~~ mask n w i := by
  unfold set
  rw [BitVec.setWidth_zero, BitVec.zero_shiftLeft, BitVec.or_zero]

/-- With all ones there is nothing to mask out. -/
theorem set_ones (r : BitVec n) (i : Nat) : set r i (BitVec.allOnes w) = r ||| mask n w i := by
  show (r &&& ~~~ mask n w i) ||| mask n w i = r ||| mask n w i
  ext k hk
  simp only [BitVec.getElem_or, BitVec.getElem_and, BitVec.getElem_not]
  cases (mask n w i)[k] <;> simp

/-- Two fields do not overlap. -/
theorem apart {i j : Nat} (h : i ≠ j) (w : Nat) : w * i + w ≤ w * j ∨ w * j + w ≤ w * i := by
  rcases Nat.lt_or_gt_of_ne h with hlt | hgt
  · left
    rw [← Nat.mul_succ]
    exact Nat.mul_le_mul_left w hlt
  · right
    rw [← Nat.mul_succ]
    exact Nat.mul_le_mul_left w hgt

theorem get_set_same (r : BitVec n) {i : Nat} (v : BitVec w) (h : w * i + w ≤ n) : get w (set r i v) i = v := by
  ext k hk
  have hbit : w * i + k < n := by omega
  have hbelow : ¬ w * i + k < w * i := by omega
  have hoffset : w * i + k - w * i = k := by omega
  simp [get, set, mask, hbit, hbelow, hoffset, hk]

theorem get_set_ne (r : BitVec n) {i j : Nat} (v : BitVec w) (h : i ≠ j) : get w (set r i v) j = get w r j := by
  ext k hk
  by_cases hrange : w * j + k < n
  · by_cases hbelow : w * j + k < w * i
    · simp [get, set, mask, hrange, hbelow]
    · -- above the updated field, its mask and its value have no ones
      have habove : w ≤ w * j + k - w * i := by
        have hapart := apart h w
        omega
      have hone : ¬ w * j + k - w * i < w := Nat.not_lt.mpr habove
      simp [get, set, mask, hrange, hbelow, hone, BitVec.getLsbD_of_ge v _ habove]
  · simp [get, set, mask, hrange, BitVec.getLsbD_of_ge r _ (Nat.not_lt.mp hrange)]

/-- Setting a field to what it holds changes nothing. -/
theorem set_get (r : BitVec n) (i : Nat) : set r i (get w r i) = r := by
  ext k hk
  by_cases hbelow : k < w * i
  · simp [get, set, mask, hbelow]
  · by_cases habove : k - w * i < w
    · have hback : w * i + (k - w * i) = k := by omega
      simp [get, set, mask, hbelow, habove, hback, BitVec.getLsbD_eq_getElem hk]
    · simp [get, set, mask, hbelow, habove]

end Fields
