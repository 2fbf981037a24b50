import Thermostat.Drivers.DS18B20

/-!
# `Drivers.Correctness.Pulses` — decoding in place

The scratchpad lies over the pulses that it is decoded from. `decodeApart` is the decoder with a buffer of
its own. `decodeByte_eq` says what the inner loop does to the shared memory, and `decodeScratchpad_rd` what
the outer one leaves: a byte that is written lies over pulses that have been read already.

**`decode_in_place`**: decoding in place loses nothing, and it undoes `makeCommand`.
-/

namespace Thermostat
namespace DS18B20

/-- `decodeBit` with a buffer of its own for the result. -/
def decodeBitApart (pulse : Bytes 72) (s : Bytes 9) (byte bit : Nat) : Bytes 9 :=
  if pulse.rd (byte * bitsPerByte + bit) ≤ shortPulseMax then
    s.wr byte (s.rd byte ||| UInt8.ofNat (1 <<< bit))
  else s.wr byte (s.rd byte &&& ~~~ UInt8.ofNat (1 <<< bit))

/-- `decode_scratchpad` with a buffer of its own for the result. -/
def decodeApart (pulse : Bytes 72) (scratchpad : Bytes 9) : Bytes 9 :=
  (List.range scratchpadLen).foldl (fun s byte =>
    (List.range bitsPerByte).foldl (fun s bit => decodeBitApart pulse s byte bit) s) scratchpad

/-- A memory that starts with the given pulses. -/
def loaded (pulses : List UInt8) : Bytes 72 := Bytes.tabulate 72 (fun i => pulses[i]?.getD 0)

/-! ## Bits of a byte -/

theorem byte_ext {x y : UInt8} (h : ∀ i, i < 8 → x.toNat.testBit i = y.toNat.testBit i) : x = y := by
  apply UInt8.toBitVec_inj.mp
  apply BitVec.eq_of_getLsbD_eq
  intro i hi
  exact h i hi

theorem mask_testBit {k : Nat} (hk : k < 8) (i : Nat) :
    (UInt8.ofNat (1 <<< k)).toNat.testBit i = decide (k = i) := by
  have hsmall : 2 ^ k < 2 ^ 8 := Nat.pow_lt_pow_right (by omega) hk
  rw [UInt8.toNat_ofNat', Nat.one_shiftLeft, Nat.mod_eq_of_lt hsmall, Nat.testBit_two_pow]

theorem or_testBit (x y : UInt8) (i : Nat) :
    (x ||| y).toNat.testBit i = (x.toNat.testBit i || y.toNat.testBit i) := by
  rw [UInt8.toNat_or, Nat.testBit_or]

theorem and_not_testBit (x y : UInt8) {i : Nat} (hi : i < 8) :
    (x &&& ~~~y).toNat.testBit i = (x.toNat.testBit i && !y.toNat.testBit i) := by
  show (x &&& ~~~y).toBitVec.getLsbD i = (x.toBitVec.getLsbD i && !y.toBitVec.getLsbD i)
  rw [UInt8.toBitVec_and, UInt8.toBitVec_not, BitVec.getLsbD_and, BitVec.getLsbD_not, decide_eq_true hi,
    Bool.true_and]

/-! ## One byte -/

/-- The first `n` bits of a byte are set by the pulses; the rest is the old value. -/
def partly (pulse : Nat → UInt8) (old : UInt8) : Nat → UInt8
  | 0     => old
  | n + 1 =>
      if pulse n ≤ shortPulseMax then partly pulse old n ||| UInt8.ofNat (1 <<< n)
      else partly pulse old n &&& ~~~ UInt8.ofNat (1 <<< n)

theorem partly_testBit (pulse : Nat → UInt8) (old : UInt8) {n i : Nat} (hn : n ≤ 8) (hi : i < 8) :
    (partly pulse old n).toNat.testBit i
      = if i < n then decide (pulse i ≤ shortPulseMax) else old.toNat.testBit i := by
  induction n with
  | zero => rfl
  | succ n ih =>
      rw [partly]
      by_cases hshort : pulse n ≤ shortPulseMax
      · rw [if_pos hshort, or_testBit, mask_testBit (by omega), ih (by omega)]
        by_cases hlast : n = i
        · subst hlast
          simp [hshort]
        · have hbound : i < n + 1 ↔ i < n := by omega
          simp [hlast, hbound]
      · rw [if_neg hshort, and_not_testBit _ _ hi, mask_testBit (by omega), ih (by omega)]
        by_cases hlast : n = i
        · subst hlast
          simp [hshort]
        · have hbound : i < n + 1 ↔ i < n := by omega
          simp [hlast, hbound]

/-- Nothing of the old value survives. -/
theorem partly_eight (pulse : Nat → UInt8) (x y : UInt8) : partly pulse x 8 = partly pulse y 8 := by
  apply byte_ext
  intro i hi
  rw [partly_testBit pulse x (by omega) hi, partly_testBit pulse y (by omega) hi, if_pos hi, if_pos hi]

/-- **The inner loop in place.** A pulse is read before its own cell is written: byte 0 lies over pulse 0,
    which is the first to be read, and every later byte over a pulse of an earlier one. -/
theorem decodeByte_eq (m : Bytes 72) {byte : Nat} (hbyte : byte < 9) {n : Nat} (hn : n ≤ 8) :
    (List.range n).foldl (fun m bit => decodeBit m byte bit) m
      = m.wr byte (partly (fun bit => m.rd (byte * 8 + bit)) (m.rd byte) n) := by
  induction n with
  | zero => exact (Bytes.wr_rd_self m byte).symm
  | succ n ih =>
      rw [List.range_succ, List.foldl_append, ih (by omega), List.foldl_cons, List.foldl_nil]
      have hread : (m.wr byte (partly (fun bit => m.rd (byte * 8 + bit)) (m.rd byte) n)).rd (byte * 8 + n)
          = m.rd (byte * 8 + n) := by
        by_cases hown : byte = byte * 8 + n
        · -- byte 0, bit 0: nothing has been written yet
          have hzero : byte = 0 ∧ n = 0 := by omega
          obtain ⟨rfl, rfl⟩ := hzero
          exact Bytes.rd_wr_same m (by omega) _
        · exact Bytes.rd_wr_ne m hown _
      unfold decodeBit bitsPerByte
      rw [hread, Bytes.rd_wr_same m (by omega), Bytes.wr_wr, Bytes.wr_wr, partly]
      split_ifs <;> rfl

theorem decodeByteApart_eq (pulse : Bytes 72) (s : Bytes 9) {byte : Nat} (hbyte : byte < 9) (n : Nat) :
    (List.range n).foldl (fun s bit => decodeBitApart pulse s byte bit) s
      = s.wr byte (partly (fun bit => pulse.rd (byte * 8 + bit)) (s.rd byte) n) := by
  induction n with
  | zero => exact (Bytes.wr_rd_self s byte).symm
  | succ n ih =>
      rw [List.range_succ, List.foldl_append, ih, List.foldl_cons, List.foldl_nil]
      unfold decodeBitApart bitsPerByte
      rw [Bytes.rd_wr_same s hbyte, Bytes.wr_wr, Bytes.wr_wr, partly]
      split_ifs <;> rfl

/-! ## All bytes -/

/-- **In place**, every byte is decoded from the pulses that were there at the beginning. -/
theorem decodeScratchpad_rd (m : Bytes 72) {b : Nat} (hb : b < 9) :
    (decodeScratchpad m).rd b = partly (fun bit => m.rd (b * 8 + bit)) 0 8 := by
  have hstep : ∀ k, k < 9 → ∀ m' : Bytes 72, (∀ j, k ≤ j → m'.rd j = m.rd j) →
      (List.range 8).foldl (fun m bit => decodeBit m k bit) m'
        = m'.wr k (partly (fun bit => m.rd (k * 8 + bit)) 0 8) := by
    intro k hk m' hbehind
    have hpulses : (fun bit => m'.rd (k * 8 + bit)) = (fun bit => m.rd (k * 8 + bit)) := by
      funext bit
      exact hbehind _ (by omega)
    rw [decodeByte_eq m' hk (Nat.le_refl 8), hpulses, partly_eight _ _ 0]
  have hloop := Bytes.rd_foldl_range m (n := 72) (by omega) hstep (Nat.le_refl 9) b
  rw [if_pos hb] at hloop
  exact hloop

theorem decodeApart_rd (pulse : Bytes 72) (s : Bytes 9) {b : Nat} (hb : b < 9) :
    (decodeApart pulse s).rd b = partly (fun bit => pulse.rd (b * 8 + bit)) 0 8 := by
  have hstep : ∀ k, k < 9 → ∀ s' : Bytes 9, (∀ j, k ≤ j → s'.rd j = s.rd j) →
      (List.range 8).foldl (fun s bit => decodeBitApart pulse s k bit) s'
        = s'.wr k (partly (fun bit => pulse.rd (k * 8 + bit)) 0 8) := by
    intro k hk s' _
    rw [decodeByteApart_eq pulse s' hk, partly_eight _ _ 0]
  have hloop := Bytes.rd_foldl_range s (Nat.le_refl 9) hstep (Nat.le_refl 9) b
  rw [if_pos hb] at hloop
  exact hloop

/-! ## The encoder -/

/-- A short pulse is a one. -/
theorem bitToPulse_short (x : UInt8) (bit : Nat) :
    bitToPulse x bit ≤ shortPulseMax ↔ x.toNat.testBit bit = true := by
  unfold bitToPulse
  cases x.toNat.testBit bit with
  | true => exact ⟨fun _ => rfl, fun _ => by decide⟩
  | false => exact ⟨fun h => absurd h (by decide), fun h => absurd h Bool.false_ne_true⟩

/-- Pulse number `8 * b + bit` is the one for this bit of byte `b`. -/
theorem pulses_getElem? (bytes : List UInt8) {b bit : Nat} (hb : b < bytes.length) (hbit : bit < 8) :
    (bytes.flatMap byteToPulses)[b * 8 + bit]? = some (bitToPulse bytes[b] bit) := by
  induction bytes generalizing b with
  | nil => exact absurd hb (Nat.not_lt_zero b)
  | cons x bytes ih =>
      have hlength : (byteToPulses x).length = 8 := by simp [byteToPulses]
      rw [List.flatMap_cons]
      cases b with
      | zero =>
          rw [List.getElem?_append_left (by omega)]
          simp [byteToPulses, hbit]
      | succ b =>
          have hindex : (b + 1) * 8 + bit - (byteToPulses x).length = b * 8 + bit := by omega
          rw [List.length_cons] at hb
          rw [List.getElem?_append_right (by omega), hindex, ih (by omega)]
          rfl

/-- The pulses of nine bytes fill the memory; the final `0` is left out. -/
theorem makeCommand_dropLast (bytes : List UInt8) :
    (makeCommand bytes).dropLast = bytes.flatMap byteToPulses := List.dropLast_concat

theorem makeCommand_length (bytes : List UInt8) : (makeCommand bytes).dropLast.length = 8 * bytes.length := by
  rw [makeCommand_dropLast]
  induction bytes with
  | nil => rfl
  | cons x bytes ih =>
      rw [List.flatMap_cons, List.length_append, ih, List.length_cons]
      simp only [byteToPulses, List.length_map, List.length_range]
      omega

theorem decode_loaded (bytes : Bytes 9) {b : Nat} (hb : b < 9) :
    (decodeScratchpad (loaded (makeCommand bytes.toList).dropLast)).rd b = bytes.rd b := by
  rw [decodeScratchpad_rd _ hb]
  apply byte_ext
  intro i hi
  have hlength : b < bytes.toList.length := by simpa using hb
  have hbyte : bytes.rd b = bytes.toList[b] := by
    unfold Bytes.rd
    simp [hb]
  have hpulse : (loaded (makeCommand bytes.toList).dropLast).rd (b * 8 + i) = bitToPulse (bytes.rd b) i := by
    unfold loaded
    rw [Bytes.rd_tabulate (by omega), makeCommand_dropLast, pulses_getElem? _ hlength hi, hbyte]
    rfl
  rw [partly_testBit _ _ (Nat.le_refl 8) hi, if_pos hi, hpulse]
  exact Bool.eq_iff_iff.mpr (decide_eq_true_iff.trans (bitToPulse_short _ i))

/-- **Decoding in place is sound**: it gives what decoding into another buffer gives, whatever that one held;
    bit `i` of byte `b` tells whether pulse `8 * b + i` was short; and the pulses of the encoder come back as
    the bytes that they encode. -/
theorem decode_in_place :
    (∀ (m : Bytes 72) (scratchpad : Bytes 9) (b : Nat), b < 9 →
      (decodeScratchpad m).rd b = (decodeApart m scratchpad).rd b) ∧
    (∀ (m : Bytes 72) (b i : Nat), b < 9 → i < 8 →
      ((decodeScratchpad m).rd b).toNat.testBit i = decide (m.rd (8 * b + i) ≤ shortPulseMax)) ∧
    (∀ bytes : Bytes 9, (makeCommand bytes.toList).dropLast.length = 72 ∧
      ∀ b, b < 9 → (decodeScratchpad (loaded (makeCommand bytes.toList).dropLast)).rd b = bytes.rd b) := by
  refine ⟨?_, ?_, ?_⟩
  · intro m scratchpad b hb
    rw [decodeScratchpad_rd m hb, decodeApart_rd m scratchpad hb]
  · intro m b i hb hi
    rw [decodeScratchpad_rd m hb, partly_testBit _ _ (Nat.le_refl 8) hi, if_pos hi, Nat.mul_comm]
  · intro bytes
    refine ⟨?_, fun b hb => decode_loaded bytes hb⟩
    rw [makeCommand_length, Vector.length_toList]

end DS18B20
end Thermostat
