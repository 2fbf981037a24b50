import Mathlib.Data.List.Basic
import Mathlib.Logic.Function.Iterate

/-!
# `Lib.Crc` — reflected cyclic redundancy checks

A register of `w` bits, fed with a message bit by bit, lowest bit first: `shift` moves the register down
and folds the polynomial in when a one falls out, `crc` feeds a whole message. A message with its CRC behind
it leaves the register at zero, and a corrupted one leaves there what the error alone would (`crc_xor`): an
error is detected iff its own CRC is not zero.

## Contents
- **Linearity.** `shift_xor`, `crc_xor`.
- **Zeros.** If the polynomial has its highest bit, `shift` loses nothing (`iterate_shift_ne_zero`), so the
  zeros around an error do not matter.
- **Bursts.** Up to `w` bits are in the register as they are (`crc_word`), so a burst of at most `w` bits is
  detected: `crc_burst`, `crc_window`.
- **Odd errors.** A parity of the register that `shift` keeps counts the ones of a message:
  `parity_crc`.
- **Two ones.** They cancel only at a distance at which a single one comes back to where it started:
  `crc_two`.
-/

namespace Crc

variable {w : Nat} (poly : BitVec w)

/-- Move the register down by one bit. -/
def shift (c : BitVec w) : BitVec w := if c.getLsbD 0 then (c >>> 1) ^^^ poly else c >>> 1

/-- A single bit at the end of the register where messages come in. -/
def unit (b : Bool) : BitVec w := if b then 1#w else 0#w

/-- Feed one bit. -/
def feed (c : BitVec w) (b : Bool) : BitVec w := shift poly (c ^^^ unit b)

/-- Feed a message. -/
def crc (c : BitVec w) (bits : List Bool) : BitVec w := bits.foldl (feed poly) c

/-! ## Linearity -/

@[simp] theorem crc_nil (c : BitVec w) : crc poly c [] = c := rfl

@[simp] theorem crc_cons (c : BitVec w) (b : Bool) (bits : List Bool) :
    crc poly c (b :: bits) = crc poly (shift poly (c ^^^ unit b)) bits := rfl

theorem crc_append (c : BitVec w) (xs ys : List Bool) :
    crc poly c (xs ++ ys) = crc poly (crc poly c xs) ys := List.foldl_append

@[simp] theorem unit_false : (unit false : BitVec w) = 0#w := rfl

@[simp] theorem unit_true : (unit true : BitVec w) = 1#w := rfl

theorem unit_xor (a b : Bool) : (unit (a ^^ b) : BitVec w) = unit a ^^^ unit b := by
  cases a <;> cases b <;> simp

theorem shift_xor (a b : BitVec w) : shift poly (a ^^^ b) = shift poly a ^^^ shift poly b := by
  apply BitVec.eq_of_getLsbD_eq
  intro i hi
  unfold shift
  rw [BitVec.getLsbD_xor, BitVec.getLsbD_xor]
  -- what is left is an equation between bits
  cases a.getLsbD 0 <;> cases b.getLsbD 0 <;>
    simp only [Bool.xor_self, Bool.xor_false, Bool.false_xor, Bool.false_eq_true, if_true, if_false,
      BitVec.getLsbD_xor, BitVec.getLsbD_ushiftRight] <;>
    cases a.getLsbD (1 + i) <;> cases b.getLsbD (1 + i) <;> cases poly.getLsbD i <;> rfl

@[simp] theorem shift_zero : shift poly 0#w = 0#w := by
  unfold shift
  simp

/-- **Linearity.** The CRC of two messages laid over each other is the two CRCs laid over each other. -/
theorem crc_xor {ι : Type*} (is : List ι) (f g : ι → Bool) (a b : BitVec w) :
    crc poly (a ^^^ b) (is.map (fun i => f i ^^ g i)) = crc poly a (is.map f) ^^^ crc poly b (is.map g) := by
  induction is generalizing a b with
  | nil => rfl
  | cons i is ih =>
      have hfeed : a ^^^ b ^^^ unit (f i ^^ g i) = (a ^^^ unit (f i)) ^^^ (b ^^^ unit (g i)) := by
        rw [unit_xor, BitVec.xor_assoc, BitVec.xor_assoc, ← BitVec.xor_assoc b, BitVec.xor_comm b,
          BitVec.xor_assoc (unit (f i))]
      rw [List.map_cons, List.map_cons, List.map_cons, crc_cons, crc_cons, crc_cons, hfeed, shift_xor]
      exact ih _ _

/-! ## Zeros -/

theorem crc_zeros (c : BitVec w) (n : Nat) :
    crc poly c (List.replicate n false) = (shift poly)^[n] c := by
  induction n generalizing c with
  | zero => rfl
  | succ n ih => rw [List.replicate_succ, crc_cons, unit_false, BitVec.xor_zero, ih, Function.iterate_succ_apply]

theorem iterate_shift_zero (n : Nat) : (shift poly)^[n] 0#w = 0#w := by
  induction n with
  | zero => rfl
  | succ n ih => rw [Function.iterate_succ_apply, shift_zero, ih]

section

variable {poly} (htop : poly.getLsbD (w - 1) = true)

include htop

/-- The highest bit of the polynomial tells which branch was taken, so nothing is lost. -/
theorem shift_ne_zero {c : BitVec w} (h : c ≠ 0#w) : shift poly c ≠ 0#w := by
  intro hzero
  unfold shift at hzero
  cases hlow : c.getLsbD 0 with
  | true =>
      rw [hlow, if_pos rfl] at hzero
      have hbit : ((c >>> 1) ^^^ poly).getLsbD (w - 1) = false := by
        rw [hzero]
        simp
      have hhigh : c.getLsbD (1 + (w - 1)) = false := BitVec.getLsbD_of_ge c _ (by omega)
      rw [BitVec.getLsbD_xor, BitVec.getLsbD_ushiftRight, hhigh, htop] at hbit
      cases hbit
  | false =>
      rw [hlow, if_neg Bool.false_ne_true] at hzero
      apply h
      apply BitVec.eq_of_getLsbD_eq
      intro i hi
      cases i with
      | zero => simpa using hlow
      | succ i =>
          have hbit := congrArg (fun v : BitVec w => v.getLsbD i) hzero
          simp only [BitVec.getLsbD_ushiftRight, BitVec.getLsbD_zero] at hbit ⊢
          rw [Nat.add_comm]
          exact hbit

theorem iterate_shift_ne_zero (n : Nat) {c : BitVec w} (h : c ≠ 0#w) : (shift poly)^[n] c ≠ 0#w := by
  induction n generalizing c with
  | zero => exact h
  | succ n ih =>
      rw [Function.iterate_succ_apply]
      exact ih (shift_ne_zero htop h)

end

/-! ## Bursts -/

/-- A message of at most `w` bits as a register. -/
def word : List Bool → BitVec w
  | []        => 0#w
  | b :: bits => unit b ^^^ (word bits <<< 1)

theorem getLsbD_word (bits : List Bool) (i : Nat) :
    (word bits : BitVec w).getLsbD i = (decide (i < w) && bits[i]?.getD false) := by
  induction bits generalizing i with
  | nil => simp [word]
  | cons b bits ih =>
      cases i with
      | zero => cases b <;> by_cases hw : 0 < w <;> simp [word, unit, hw]
      | succ i =>
          have hunit : (unit b : BitVec w).getLsbD (i + 1) = false := by
            cases b <;> simp [unit]
          have hprev : i + 1 < w → i < w := by omega
          rw [word, BitVec.getLsbD_xor, hunit, BitVec.getLsbD_shiftLeft, List.getElem?_cons_succ,
            Nat.add_sub_cancel, ih]
          by_cases hi : i + 1 < w
          · simp [hi, hprev hi]
          · simp [hi]

theorem word_ne_zero {bits : List Bool} (hlen : bits.length ≤ w) (h : true ∈ bits) :
    (word bits : BitVec w) ≠ 0#w := by
  intro hzero
  obtain ⟨i, hi, hbit⟩ := List.mem_iff_getElem.mp h
  have hword := getLsbD_word (w := w) bits i
  rw [hzero, BitVec.getLsbD_zero, List.getElem?_eq_getElem hi, hbit, decide_eq_true (by omega)] at hword
  cases hword

theorem shift_shiftLeft {x : BitVec w} (h : x.getLsbD (w - 1) = false) : shift poly (x <<< 1) = x := by
  have hlow : (x <<< 1).getLsbD 0 = false := by simp
  unfold shift
  rw [hlow, if_neg Bool.false_ne_true]
  apply BitVec.eq_of_getLsbD_eq
  intro i hi
  rw [BitVec.getLsbD_ushiftRight, BitVec.getLsbD_shiftLeft]
  by_cases hlast : i = w - 1
  · rw [hlast, h]
    simp
    omega
  · have hnext : 1 + i < w := by omega
    simp [hnext]

/-- **The register holds up to `w` bits as they are.** -/
theorem crc_word (c : BitVec w) {bits : List Bool} (hlen : bits.length ≤ w) :
    crc poly c bits = (shift poly)^[bits.length] (c ^^^ word bits) := by
  induction bits generalizing c with
  | nil => simp [word]
  | cons b bits ih =>
      rw [List.length_cons] at hlen ⊢
      have hroom : (word bits : BitVec w).getLsbD (w - 1) = false := by
        rw [getLsbD_word, List.getElem?_eq_none (by omega), Option.getD_none, Bool.and_false]
      rw [crc_cons, ih _ (by omega), Function.iterate_succ_apply, word, ← BitVec.xor_assoc,
        shift_xor poly (c ^^^ unit b), shift_shiftLeft poly hroom]

/-- **Bursts are detected.** -/
theorem crc_burst {poly : BitVec w} (htop : poly.getLsbD (w - 1) = true) {burst : List Bool}
    (hlen : burst.length ≤ w) (h : true ∈ burst) (i j : Nat) :
    crc poly 0#w (List.replicate i false ++ burst ++ List.replicate j false) ≠ 0#w := by
  rw [crc_append, crc_append, crc_zeros, crc_zeros, iterate_shift_zero, crc_word poly _ hlen,
    BitVec.zero_xor]
  exact iterate_shift_ne_zero htop j (iterate_shift_ne_zero htop _ (word_ne_zero hlen h))

theorem eq_zeros {bits : List Bool} (h : true ∉ bits) : bits = List.replicate bits.length false := by
  apply List.eq_replicate_of_mem
  intro b hb
  cases b with
  | false => rfl
  | true => exact absurd hb h

/-- A message whose ones lie within `w` consecutive bits is a burst. -/
theorem crc_window {poly : BitVec w} (htop : poly.getLsbD (w - 1) = true) {bits : List Bool} (h : true ∈ bits)
    {i : Nat} (hwindow : ∀ j, bits[j]? = some true → i ≤ j ∧ j < i + w) : crc poly 0#w bits ≠ 0#w := by
  have hbefore : true ∉ bits.take i := by
    intro hmem
    obtain ⟨j, hj, hbit⟩ := List.mem_iff_getElem.mp hmem
    rw [List.length_take] at hj
    rw [List.getElem_take] at hbit
    have hlow := (hwindow j (by rw [List.getElem?_eq_getElem (by omega), hbit])).1
    omega
  have hafter : true ∉ (bits.drop i).drop w := by
    intro hmem
    rw [List.drop_drop] at hmem
    obtain ⟨j, hj, hbit⟩ := List.mem_iff_getElem.mp hmem
    rw [List.length_drop] at hj
    rw [List.getElem_drop] at hbit
    have hhigh := (hwindow (i + w + j) (by rw [List.getElem?_eq_getElem (by omega), hbit])).2
    omega
  have hsplit : bits = bits.take i ++ (bits.drop i).take w ++ (bits.drop i).drop w := by
    rw [List.append_assoc, List.take_append_drop, List.take_append_drop]
  have hburst : true ∈ (bits.drop i).take w := by
    rw [hsplit, List.mem_append, List.mem_append] at h
    exact (h.resolve_right hafter).resolve_left hbefore
  rw [hsplit, eq_zeros hbefore, eq_zeros hafter]
  exact crc_burst htop (List.length_take_le w _) hburst _ _

/-! ## Odd errors -/

/-- **A parity that `shift` keeps counts ones.** -/
theorem parity_crc {parity : BitVec w → Bool} (hshift : ∀ c, parity (shift poly c) = parity c)
    (hflip : ∀ c, parity (c ^^^ 1#w) = !parity c) (c : BitVec w) (bits : List Bool) :
    parity (crc poly c bits) = (parity c ^^ decide (bits.count true % 2 = 1)) := by
  induction bits generalizing c with
  | nil => simp
  | cons b bits ih =>
      rw [crc_cons, ih, hshift]
      cases b with
      | false => simp
      | true =>
          rw [unit_true, hflip, List.count_cons_self]
          rcases Nat.mod_two_eq_zero_or_one (bits.count true) with h | h
          · have hnext : (bits.count true + 1) % 2 = 1 := by omega
            simp [h, hnext]
          · have hnext : (bits.count true + 1) % 2 = 0 := by omega
            simp [h, hnext]

/-! ## Two ones -/

section

variable {poly} (htop : poly.getLsbD (w - 1) = true) {bound : Nat}
  (horder : ∀ k, 0 < k → k ≤ bound → (shift poly)^[k] 1#w ≠ 1#w)

include htop horder

/-- A one that has been shifted `k` times does not cancel the next one. -/
theorem crc_one {bits : List Bool} (hcount : bits.count true = 1) {k : Nat} (hk : 0 < k)
    (hlen : k + bits.length ≤ bound + 1) : crc poly ((shift poly)^[k] 1#w) bits ≠ 0#w := by
  induction bits generalizing k with
  | nil => simp at hcount
  | cons b bits ih =>
      rw [List.length_cons] at hlen
      cases b with
      | false =>
          rw [List.count_cons_of_ne (by simp)] at hcount
          rw [crc_cons, unit_false, BitVec.xor_zero, ← Function.iterate_succ_apply' (shift poly)]
          exact ih hcount (by omega) (by omega)
      | true =>
          -- only zeros follow
          rw [List.count_cons_self] at hcount
          have hrest := eq_zeros (List.count_eq_zero.mp (Nat.succ.inj hcount))
          have hne : (shift poly)^[k] 1#w ^^^ 1#w ≠ 0#w := by
            intro hzero
            exact horder k hk (by omega) (BitVec.xor_eq_zero_iff.mp hzero)
          rw [crc_cons, hrest, crc_zeros, unit_true]
          exact iterate_shift_ne_zero htop _ (shift_ne_zero htop hne)

/-- **Two flipped bits are detected** up to a distance of `bound`. -/
theorem crc_two {bits : List Bool} (hcount : bits.count true = 2) (hlen : bits.length ≤ bound + 1) :
    crc poly 0#w bits ≠ 0#w := by
  induction bits with
  | nil => simp at hcount
  | cons b bits ih =>
      rw [List.length_cons] at hlen
      cases b with
      | false =>
          rw [List.count_cons_of_ne (by simp)] at hcount
          rw [crc_cons, unit_false, BitVec.xor_zero, shift_zero]
          exact ih hcount (by omega)
      | true =>
          rw [List.count_cons_self] at hcount
          rw [crc_cons, unit_true, BitVec.zero_xor]
          exact crc_one htop horder (Nat.succ.inj hcount) (k := 1) (by omega) (by omega)

end

end Crc
