import Thermostat.Drivers.Correctness.Pulses
import Thermostat.Lib.Crc

/-!
# `Drivers.Correctness.Frames` — what the CRC of a scratchpad detects

The loops of `check_scratchpad_crc` are the register of `Lib.Crc`, fed with the bits of the scratchpad in
the order in which they are transmitted (`crcBytes_eq`), and the comparison with byte 8 asks for an empty
register (`accepted_iff`).

**`corrupt_rejected`**: a scratchpad that was right is rejected after one, two or three of its 72 bits have
been flipped, and after any flips within eight consecutive bits.
-/

namespace Thermostat
namespace DS18B20

/-- Bit `i` of a memory in the order of transmission: byte by byte, the lowest bit first. -/
def wire {n : Nat} (m : Bytes n) (i : Nat) : Bool := (m.rd (i / 8)).toNat.testBit (i % 8)

/-- The positions of the flipped bits of an error. -/
def flips (error : Bytes 9) : List Nat := (List.range scratchpadBits).filter (wire error)

/-- A scratchpad with some of its bits flipped. -/
def corrupt (m : Bytes 72) (error : Bytes 9) : Bytes 72 := Bytes.tabulate 72 (fun i => m.rd i ^^^ error.rd i)

/-! ## The loops are the register -/

def polynomial : BitVec 8 := crc8Poly.toBitVec

theorem polynomial_top : polynomial.getLsbD (8 - 1) = true := rfl

theorem mix_ne_zero (x : UInt8) : x &&& 1 ≠ 0 ↔ x.toBitVec.getLsbD 0 = true := by
  have hmask : (x &&& 1).toBitVec = BitVec.setWidth 8 (BitVec.ofBool (x.toBitVec.getLsbD 0)) :=
    BitVec.and_one_eq_setWidth_ofBool_getLsbD
  rw [Ne, ← UInt8.toBitVec_inj, hmask]
  cases x.toBitVec.getLsbD 0 <;> simp

/-- The unit falls out of the register, after it has decided the branch. -/
theorem unit_shiftRight (b : Bool) : (Crc.unit b : BitVec 8) >>> 1 = 0#8 := by
  cases b <;> rfl

theorem unit_low (b : Bool) : (Crc.unit b : BitVec 8).getLsbD 0 = b := by
  cases b <;> rfl

theorem crcBit_eq (crc inByte : UInt8) :
    (crcBit (crc, inByte)).1.toBitVec = Crc.feed polynomial crc.toBitVec (inByte.toBitVec.getLsbD 0) := by
  have hbranch := mix_ne_zero (crc ^^^ inByte)
  rw [UInt8.toBitVec_xor, BitVec.getLsbD_xor] at hbranch
  unfold crcBit Crc.feed Crc.shift
  rw [BitVec.getLsbD_xor, unit_low, BitVec.ushiftRight_xor_distrib, unit_shiftRight, BitVec.xor_zero]
  by_cases hmix : (crc ^^^ inByte) &&& 1 ≠ 0
  · simp only [if_pos hmix, hbranch.mp hmix, if_true]
    rfl
  · have hlow := Bool.eq_false_iff.mpr (mt hbranch.mpr hmix)
    simp only [if_neg hmix, hlow]
    rfl

theorem iterate_crcBit (crc inByte : UInt8) (n : Nat) :
    (crcBit^[n] (crc, inByte)).1.toBitVec
        = Crc.crc polynomial crc.toBitVec ((List.range n).map (fun i => inByte.toBitVec.getLsbD i)) ∧
      (crcBit^[n] (crc, inByte)).2.toBitVec = inByte.toBitVec >>> n := by
  induction n with
  | zero => exact ⟨rfl, (BitVec.ushiftRight_zero _).symm⟩
  | succ n ih =>
      obtain ⟨hcrc, hbyte⟩ := ih
      have hlow : (crcBit^[n] (crc, inByte)).2.toBitVec.getLsbD 0 = inByte.toBitVec.getLsbD n := by
        rw [hbyte, BitVec.getLsbD_ushiftRight, Nat.add_zero]
      rw [Function.iterate_succ_apply', List.range_succ, List.map_append, Crc.crc_append, ← hcrc]
      constructor
      · rw [← Prod.mk.eta (p := crcBit^[n] (crc, inByte)), crcBit_eq, hlow]
        rfl
      · show ((crcBit^[n] (crc, inByte)).2 >>> 1).toBitVec = _
        rw [UInt8.toBitVec_shiftRight, hbyte]
        exact (BitVec.shiftRight_add _ n 1).symm

theorem crcByte_eq (crc inByte : UInt8) :
    (crcByte crc inByte).toBitVec
      = Crc.crc polynomial crc.toBitVec ((List.range 8).map (fun i => inByte.toNat.testBit i)) :=
  (iterate_crcBit crc inByte 8).1

/-- **The CRC of some bytes** is the register after their bits, in the order of transmission. -/
theorem crcBytes_eq {n : Nat} (m : Bytes n) (k : Nat) :
    ((List.range k).foldl (fun crc i => crcByte crc (m.rd i)) 0).toBitVec
      = Crc.crc polynomial 0#8 ((List.range (8 * k)).map (wire m)) := by
  induction k with
  | zero => rfl
  | succ k ih =>
      have hbyte : (List.range 8).map (fun i => (m.rd k).toNat.testBit i)
          = ((List.range 8).map (fun i => 8 * k + i)).map (wire m) := by
        rw [List.map_map]
        apply List.map_congr_left
        intro i hi
        have hlt := List.mem_range.mp hi
        have hdiv : (8 * k + i) / 8 = k := by omega
        have hmod : (8 * k + i) % 8 = i := by omega
        simp only [Function.comp, wire, hdiv, hmod]
      rw [List.range_succ, List.foldl_append, List.foldl_cons, List.foldl_nil, crcByte_eq, ih, hbyte,
        ← Crc.crc_append, ← List.map_append, ← List.range_add]
      rfl

/-- Feeding a byte leaves nothing exactly if it is the one in the register. -/
theorem crcByte_eq_zero_iff (crc inByte : UInt8) : crcByte crc inByte = 0 ↔ inByte = crc := by
  have hword : (Crc.word ((List.range 8).map (fun i => inByte.toNat.testBit i)) : BitVec 8)
      = inByte.toBitVec := by
    apply BitVec.eq_of_getLsbD_eq
    intro i hi
    rw [Crc.getLsbD_word, decide_eq_true hi, Bool.true_and, List.getElem?_map,
      List.getElem?_range hi]
    rfl
  have hbits := crcByte_eq crc inByte
  rw [Crc.crc_word polynomial _ (by simp), hword] at hbits
  rw [← UInt8.toBitVec_inj, hbits]
  constructor
  · intro hzero
    by_contra hne
    have hdiff : crc.toBitVec ^^^ inByte.toBitVec ≠ 0#8 := by
      intro heq
      exact hne (UInt8.toBitVec_inj.mp (BitVec.xor_eq_zero_iff.mp heq)).symm
    exact Crc.iterate_shift_ne_zero polynomial_top _ hdiff hzero
  · rintro rfl
    rw [BitVec.xor_self]
    exact Crc.iterate_shift_zero polynomial _

/-- **The comparison in `action_decode`** asks for an empty register after all nine bytes. -/
theorem accepted_iff (m : Bytes 72) :
    m.rd 8 = checkScratchpadCrc m ↔ Crc.crc polynomial 0#8 ((List.range scratchpadBits).map (wire m)) = 0#8 := by
  have hall := crcBytes_eq m 9
  rw [List.range_succ, List.foldl_append, List.foldl_cons, List.foldl_nil] at hall
  rw [← crcByte_eq_zero_iff, ← UInt8.toBitVec_inj]
  exact Iff.of_eq (congrArg (· = 0#8) hall)

/-- The CRC looks at the scratchpad only. -/
theorem checkScratchpadCrc_congr {m m' : Bytes 72} (h : ∀ i, i < 9 → m.rd i = m'.rd i) :
    checkScratchpadCrc m = checkScratchpadCrc m' := by
  unfold checkScratchpadCrc
  apply List.foldl_ext
  intro crc i hi
  rw [h i (Nat.lt_succ_of_lt (List.mem_range.mp hi))]

/-! ## Errors -/

/-- The parity of a register. -/
def parity (c : BitVec 8) : Bool :=
  c.getLsbD 0 ^^ c.getLsbD 1 ^^ c.getLsbD 2 ^^ c.getLsbD 3 ^^ c.getLsbD 4 ^^ c.getLsbD 5 ^^ c.getLsbD 6
    ^^ c.getLsbD 7

/-- The polynomial has an odd number of bits, so it makes up for the one that falls out. -/
theorem parity_shift : ∀ c, parity (Crc.shift polynomial c) = parity c := by decide

theorem parity_flip : ∀ c, parity (c ^^^ 1#8) = !parity c := by decide

/-- A single one does not come back within the length of a scratchpad. -/
theorem order_gt : ∀ k, k < scratchpadBits → 0 < k → (Crc.shift polynomial)^[k] 1#8 ≠ 1#8 := by decide

theorem count_flips (error : Bytes 9) :
    ((List.range scratchpadBits).map (wire error)).count true = (flips error).length := by
  unfold flips
  rw [List.count_eq_countP, List.countP_map, List.countP_eq_length_filter]
  congr 2
  funext i
  exact beq_true _

/-- **The register tells every small error and every short burst from none.** -/
theorem crc_flips_ne_zero {error : Bytes 9} (hne : flips error ≠ [])
    (hsmall : (flips error).length ≤ 3 ∨ ∃ i, ∀ j ∈ flips error, i ≤ j ∧ j < i + 8) :
    Crc.crc polynomial 0#8 ((List.range scratchpadBits).map (wire error)) ≠ 0#8 := by
  have hcount := count_flips error
  have hpos := List.length_pos_iff.mpr hne
  rcases hsmall with hfew | ⟨i, hwindow⟩
  · by_cases htwo : (flips error).length = 2
    · have horder : ∀ k, 0 < k → k ≤ 71 → (Crc.shift polynomial)^[k] 1#8 ≠ 1#8 :=
        fun k hk hbound => order_gt k (Nat.lt_succ_of_le hbound) hk
      apply Crc.crc_two polynomial_top horder (hcount.trans htwo)
      rw [List.length_map, List.length_range]
      exact Nat.le_refl 72
    · -- an odd number of flips changes the parity
      intro hzero
      have hodd : (flips error).length % 2 = 1 := by omega
      have hparity := Crc.parity_crc polynomial parity_shift parity_flip 0#8
        ((List.range scratchpadBits).map (wire error))
      rw [hzero, hcount, hodd] at hparity
      cases hparity
  · apply Crc.crc_window polynomial_top
    · rw [← List.count_pos_iff, hcount]
      exact hpos
    · intro j hbit
      apply hwindow
      rw [List.getElem?_map] at hbit
      obtain ⟨k, hk, hwire⟩ := Option.map_eq_some_iff.mp hbit
      obtain ⟨hlt, rfl⟩ := List.getElem?_eq_some_iff.mp hk
      rw [List.length_range] at hlt
      rw [List.getElem_range] at hwire
      exact List.mem_filter.mpr ⟨List.mem_range.mpr hlt, hwire⟩

theorem wire_corrupt (m : Bytes 72) (error : Bytes 9) {i : Nat} (hi : i < scratchpadBits) :
    wire (corrupt m error) i = (wire m i ^^ wire error i) := by
  have hbound : i / 8 < 72 := by
    unfold scratchpadBits at hi
    omega
  unfold wire corrupt
  rw [Bytes.rd_tabulate hbound, UInt8.toNat_xor, Nat.testBit_xor]

/-- **A corrupted scratchpad is rejected.** -/
theorem corrupt_rejected {m : Bytes 72} {error : Bytes 9} (hvalid : m.rd 8 = checkScratchpadCrc m)
    (hne : flips error ≠ [])
    (hsmall : (flips error).length ≤ 3 ∨ ∃ i, ∀ j ∈ flips error, i ≤ j ∧ j < i + 8) :
    (corrupt m error).rd 8 ≠ checkScratchpadCrc (corrupt m error) := by
  have hbits : (List.range scratchpadBits).map (wire (corrupt m error))
      = (List.range scratchpadBits).map (fun i => wire m i ^^ wire error i) := by
    apply List.map_congr_left
    intro i hi
    exact wire_corrupt m error (List.mem_range.mp hi)
  have hxor := Crc.crc_xor polynomial (List.range scratchpadBits) (wire m) (wire error) 0#8 0#8
  rw [BitVec.xor_self, (accepted_iff m).mp hvalid, BitVec.zero_xor] at hxor
  intro haccepted
  rw [accepted_iff, hbits, hxor] at haccepted
  exact crc_flips_ne_zero hne hsmall haccepted

end DS18B20
end Thermostat
