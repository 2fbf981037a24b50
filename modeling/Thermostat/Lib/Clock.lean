import Thermostat.Lib.Word

/-!
# `Lib.Clock` — true time behind a wrapping clock

Firmware sees time through a 32-bit counter. `read t` is what the counter shows at the true time `t`, a
natural number that never wraps. The comparisons that firmware makes on two readings are restated here on
the true times:

- a difference of readings is the true difference modulo `2 ^ 32` (`elapsed_iff`);
- the signed comparison with a deadline is right while the two times lie within `2 ^ 31` of each other
  (`reached_iff`);
- the plain comparison of two readings is right exactly when the counter does not wrap between the two
  times (`lt_right_iff`).
-/

namespace Clock

/-- The reading of a 32-bit tick counter at the true time `t`. -/
def read (t : Nat) : UInt32 := UInt32.ofNat t

@[simp] theorem read_toNat (t : Nat) : (read t).toNat = t % 4294967296 := UInt32.toNat_ofNat'

/-- A span added to a reading gives the reading after that span. -/
theorem read_add (t : Nat) (d : UInt32) : read t + d = read (t + d.toNat) := by
  apply UInt32.toNat_inj.mp
  rw [UInt32.toNat_add, read_toNat, read_toNat]
  omega

/-! ## Differences -/

theorem sub_toNat {since now : Nat} (h : since ≤ now) :
    (read now - read since).toNat = (now - since) % 4294967296 := by
  rw [UInt32.toNat_sub, read_toNat, read_toNat]
  omega

/-- A difference that the driver measures grows with the true time, whatever it is measured from. -/
theorem sub_toNat_add {before now : Nat} (h : before ≤ now) (since : UInt32) :
    (read now - since).toNat = ((read before - since).toNat + (now - before)) % 4294967296 := by
  rw [UInt32.toNat_sub, UInt32.toNat_sub, read_toNat, read_toNat]
  omega

theorem elapsed_iff {since now : Nat} (h : since ≤ now) (d : UInt32) :
    Word.elapsed (read now) (read since) d = true ↔ d.toNat ≤ (now - since) % 4294967296 := by
  unfold Word.elapsed
  rw [decide_eq_true_iff, UInt32.le_iff_toNat_le, sub_toNat h]

/-! ## Deadlines -/

/-- **The signed comparison** tells whether the deadline has come, if it is less than `2 ^ 31` away. -/
theorem reached_iff {now due : Nat} (hlate : now < due + 2147483648) (hearly : due ≤ now + 2147483648) :
    Word.reached (read now) (read due) = true ↔ due ≤ now := by
  unfold Word.reached Word.int32
  rw [decide_eq_true_iff, UInt32.toNat_sub, read_toNat, read_toNat]
  omega

/-- **The plain comparison** of two readings orders the true times, less than `2 ^ 32` apart, exactly when
    the counter does not wrap between them. -/
theorem lt_right_iff {now due : Nat} (hlate : now < due + 4294967296) (hearly : due < now + 4294967296) :
    (read now < read due ↔ now < due) ↔ now / 4294967296 = due / 4294967296 := by
  rw [UInt32.lt_iff_toNat_lt, read_toNat, read_toNat]
  omega

end Clock
