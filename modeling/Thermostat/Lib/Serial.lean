import Mathlib.Algebra.Group.Nat.Defs
import Mathlib.Data.Nat.Basic
import Thermostat.Lib.Trace

/-!
# `Lib.Serial` — clocked serial lines

Three wires carry a stream of bits: a select wire, low during a frame, a clock, and a data wire that is
sampled at each rising edge of the clock while the line is selected.

## Contents
- **Shift registers.** `outLow` and `outHigh` take bits out of a word at its low and at its high end;
  `ofLow` and `ofHigh` are the numbers that such bits spell.
- **The line.** `Receiver.step` follows the wires and delivers a frame when the line is deselected.
- **Sending.** `packet` is the traffic of one frame with one clock pulse a bit; `run_packets` says that a
  receiver, whatever it has seen before, gets the frames that were sent.
-/

namespace Serial

/-! ## Shift registers -/

section Registers

variable {w : Nat}

/-- `k` bits of a word that is shifted right, the low one first. -/
def outLow : Nat → BitVec w → List Bool
  | 0,     _ => []
  | k + 1, x => x.getLsbD 0 :: outLow k (x >>> 1)

/-- `k` bits of a word that is shifted left, the high one first. -/
def outHigh : Nat → BitVec w → List Bool
  | 0,     _ => []
  | k + 1, x => x.getLsbD (w - 1) :: outHigh k (x <<< 1)

/-- The number whose low bit comes first. -/
def ofLow : List Bool → Nat
  | []        => 0
  | b :: bits => b.toNat + 2 * ofLow bits

/-- The number whose high bit comes first. -/
def ofHigh (bits : List Bool) : Nat := ofLow bits.reverse

theorem outLow_length (k : Nat) (x : BitVec w) : (outLow k x).length = k := by
  induction k generalizing x with
  | zero => rfl
  | succ k ih => rw [outLow, List.length_cons, ih]

theorem outHigh_length (k : Nat) (x : BitVec w) : (outHigh k x).length = k := by
  induction k generalizing x with
  | zero => rfl
  | succ k ih => rw [outHigh, List.length_cons, ih]

theorem ofLow_append (xs ys : List Bool) : ofLow (xs ++ ys) = ofLow xs + 2 ^ xs.length * ofLow ys := by
  induction xs with
  | nil => simp [ofLow]
  | cons b xs ih =>
      rw [List.cons_append, ofLow, ih, ofLow, List.length_cons, Nat.pow_succ, Nat.mul_add,
        ← Nat.mul_assoc, Nat.mul_comm 2 (2 ^ xs.length), Nat.add_assoc]

theorem ofHigh_cons (b : Bool) (bits : List Bool) :
    ofHigh (b :: bits) = ofHigh bits + 2 ^ bits.length * b.toNat := by
  unfold ofHigh
  rw [List.reverse_cons, ofLow_append, List.length_reverse]
  rfl

/-- **The low end.** The bits that come out there spell the word's remainder. -/
theorem ofLow_outLow (k : Nat) (x : BitVec w) : ofLow (outLow k x) = x.toNat % 2 ^ k := by
  induction k generalizing x with
  | zero => simp [outLow, ofLow, Nat.mod_one]
  | succ k ih =>
      have hbit : (x.getLsbD 0).toNat = x.toNat % 2 := by
        rw [BitVec.getLsbD, Nat.testBit_zero]
        rcases Nat.mod_two_eq_zero_or_one x.toNat with h | h <;> simp [h]
      have hshift : (x >>> 1).toNat = x.toNat / 2 := by
        rw [BitVec.toNat_ushiftRight, Nat.shiftRight_eq_div_pow]
      rw [outLow, ofLow, ih, hbit, hshift, Nat.pow_succ, Nat.mul_comm (2 ^ k) 2, Nat.mod_mul]

/-- **The high end.** The bits that come out there spell the word's quotient. -/
theorem ofHigh_outHigh {k : Nat} (hk : k ≤ w) (x : BitVec w) :
    ofHigh (outHigh k x) = x.toNat / 2 ^ (w - k) := by
  induction k generalizing x with
  | zero => simp [outHigh, ofHigh, ofLow, Nat.div_eq_of_lt x.isLt]
  | succ k ih =>
      obtain ⟨j, rfl⟩ := Nat.exists_eq_add_of_le' hk
      have hlast : j + (k + 1) - 1 = j + k := by omega
      have hrest : j + (k + 1) - k = j + 1 := by omega
      have hpow : 2 ^ (j + (k + 1)) = 2 * 2 ^ (j + k) := by rw [← Nat.add_assoc, Nat.pow_succ, Nat.mul_comm]
      -- the top bit is a quotient, and the shift drops it
      have hbit : (x.getLsbD (j + k)).toNat = x.toNat / 2 ^ (j + k) := by
        have hlt : x.toNat / 2 ^ (j + k) < 2 := by
          rw [Nat.div_lt_iff_lt_mul (Nat.two_pow_pos _), ← hpow]
          exact x.isLt
        rw [BitVec.getLsbD, Nat.testBit_eq_decide_div_mod_eq, Nat.mod_eq_of_lt hlt]
        rcases Nat.lt_or_eq_of_le (Nat.le_of_lt_succ hlt) with h | h
        · rw [Nat.lt_one_iff.mp h]
          rfl
        · rw [h]
          rfl
      have hshift : (x <<< 1).toNat = 2 * (x.toNat % 2 ^ (j + k)) := by
        rw [BitVec.toNat_shiftLeft, Nat.shiftLeft_eq, Nat.pow_one, Nat.mul_comm, hpow, Nat.mul_mod_mul_left]
      rw [outHigh, ofHigh_cons, outHigh_length, ih (by omega), hlast, hrest, hbit, hshift,
        Nat.pow_succ, Nat.mul_comm (2 ^ j) 2, Nat.mul_div_mul_left _ _ (by omega), Nat.add_sub_cancel]
      calc x.toNat % 2 ^ (j + k) / 2 ^ j + 2 ^ k * (x.toNat / 2 ^ (j + k))
          = (x.toNat % 2 ^ (j + k) + 2 ^ j * (2 ^ k * (x.toNat / 2 ^ (j + k)))) / 2 ^ j := by
            rw [Nat.add_mul_div_left _ _ (Nat.two_pow_pos j)]
        _ = x.toNat / 2 ^ j := by
            rw [← Nat.mul_assoc, ← Nat.pow_add, Nat.mod_add_div]

end Registers

/-! ## The line -/

inductive Wire where
  | select
  | clock
  | data
deriving DecidableEq, Repr

/-- What a receiver knows of the line: the bits of the frame that is open, and the levels of the clock and
    of the data wire. -/
structure Receiver where
  frame : Option (List Bool)
  clock : Bool
  data : Bool
deriving DecidableEq, Repr

/-- Follow one wire; a frame is delivered when the line is deselected. -/
def Receiver.step (r : Receiver) : Wire × Bool → Receiver × List (List Bool)
  | (.select, true)  => ({ r with frame := none }, r.frame.toList)
  | (.select, false) => ({ r with frame := some (r.frame.getD []) }, [])
  | (.clock, level)  =>
      let frame := if level ∧ ¬ r.clock then r.frame.map (· ++ [r.data]) else r.frame
      ({ r with clock := level, frame := frame }, [])
  | (.data, level)   => ({ r with data := level }, [])

/-! ## Sending -/

/-- Put a bit on the data wire and pulse the clock. -/
def pulse (b : Bool) : List (Wire × Bool) := [(.data, b), (.clock, false), (.clock, true)]

/-- Select the line, send the bits, and deselect it. -/
def packet (bits : List Bool) : List (Wire × Bool) :=
  [(.select, true), (.select, false)] ++ bits.flatMap pulse ++ [(.select, true)]

theorem run_pulse (bits : List Bool) (clock data b : Bool) :
    Trace.run Receiver.step ⟨some bits, clock, data⟩ (pulse b) = (⟨some (bits ++ [b]), true, b⟩, []) := by
  simp [pulse, Receiver.step]

theorem run_pulses (sent bits : List Bool) (clock data : Bool) :
    ∃ clock' data', Trace.run Receiver.step ⟨some bits, clock, data⟩ (sent.flatMap pulse)
      = (⟨some (bits ++ sent), clock', data'⟩, []) := by
  induction sent generalizing bits clock data with
  | nil => exact ⟨clock, data, by simp⟩
  | cons b sent ih =>
      obtain ⟨clock', data', hrest⟩ := ih (bits ++ [b]) true b
      refine ⟨clock', data', ?_⟩
      rw [List.flatMap_cons, Trace.run_append, run_pulse, hrest, List.append_assoc]
      rfl

/-- **A packet is one frame**; if a frame was still open, it ends there. -/
theorem run_packet (r : Receiver) (bits : List Bool) :
    ∃ clock data, Trace.run Receiver.step r (packet bits)
      = (⟨none, clock, data⟩, r.frame.toList ++ [bits]) := by
  obtain ⟨clock, data, hpulses⟩ := run_pulses bits [] r.clock r.data
  refine ⟨clock, data, ?_⟩
  have hopen : Trace.run Receiver.step r [(.select, true), (.select, false)]
      = (⟨some [], r.clock, r.data⟩, r.frame.toList) := by
    simp [Receiver.step]
  unfold packet
  rw [Trace.run_append, Trace.run_append, hopen, hpulses]
  simp [Receiver.step]

/-- **Packets arrive as they were sent**, after what was open before. -/
theorem run_packets {frames : List (List Bool)} (hsome : frames ≠ []) (r : Receiver) :
    ∃ clock data, Trace.run Receiver.step r (frames.flatMap packet)
      = (⟨none, clock, data⟩, r.frame.toList ++ frames) := by
  induction frames generalizing r with
  | nil => exact absurd rfl hsome
  | cons bits frames ih =>
      obtain ⟨clock, data, hfirst⟩ := run_packet r bits
      rw [List.flatMap_cons, Trace.run_append, hfirst]
      by_cases hlast : frames = []
      · subst hlast
        exact ⟨clock, data, by simp⟩
      · obtain ⟨clock', data', hrest⟩ := ih hlast ⟨none, clock, data⟩
        refine ⟨clock', data', ?_⟩
        rw [hrest]
        simp

end Serial
