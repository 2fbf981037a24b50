import Mathlib.Data.Vector.Basic

/-!
# `Lib.Bytes` — a fixed block of bytes

A memory of `n` bytes with read and write at natural-number offsets. An access past the end reads `0`
and writes nothing, so the two laws `rd_wr_same`/`rd_wr_ne` need no proof of bounds on the reading
side. `rd16`/`wr16` are the little-endian half-word view of the same memory.
-/

/-- `n` bytes of memory. -/
abbrev Bytes (n : Nat) := Vector UInt8 n

namespace Bytes

variable {n : Nat}

/-- The byte at offset `i` (`0` past the end). -/
def rd (b : Bytes n) (i : Nat) : UInt8 := b[i]?.getD 0

/-- Store a byte at offset `i` (no effect past the end). -/
def wr (b : Bytes n) (i : Nat) (v : UInt8) : Bytes n := b.setIfInBounds i v

/-- All bytes zero. -/
def zeros (n : Nat) : Bytes n := Vector.replicate n 0

/-- The little-endian half-word number `i`. -/
def rd16 (b : Bytes n) (i : Nat) : UInt16 :=
  UInt16.ofNat ((b.rd (2 * i)).toNat + 256 * (b.rd (2 * i + 1)).toNat)

/-- Store the little-endian half-word number `i`. -/
def wr16 (b : Bytes n) (i : Nat) (v : UInt16) : Bytes n :=
  (b.wr (2 * i) (UInt8.ofNat v.toNat)).wr (2 * i + 1) (UInt8.ofNat (v.toNat / 256))

/-! ## Byte accesses -/

theorem rd_wr (b : Bytes n) (i j : Nat) (v : UInt8) :
    (b.wr i v).rd j = if i = j ∧ i < n then v else b.rd j := by
  unfold rd wr
  rw [Vector.getElem?_setIfInBounds]
  by_cases hij : i = j
  · subst hij
    by_cases hi : i < n <;> simp [hi]
  · simp [hij]

theorem rd_wr_same (b : Bytes n) {i : Nat} (h : i < n) (v : UInt8) : (b.wr i v).rd i = v := by
  rw [rd_wr, if_pos ⟨rfl, h⟩]

theorem rd_wr_ne (b : Bytes n) {i j : Nat} (h : i ≠ j) (v : UInt8) : (b.wr i v).rd j = b.rd j := by
  rw [rd_wr, if_neg (fun hc => h hc.1)]

theorem rd_zeros (i : Nat) : (zeros n).rd i = 0 := by
  unfold rd zeros
  rw [Vector.getElem?_replicate]
  split_ifs <;> rfl

/-- A memory is what can be read from it. -/
theorem ext_rd {a b : Bytes n} (h : ∀ i < n, a.rd i = b.rd i) : a = b := by
  apply Vector.ext
  intro i hi
  have hread := h i hi
  unfold rd at hread
  rwa [Vector.getElem?_eq_getElem hi, Vector.getElem?_eq_getElem hi] at hread

/-- The memory whose byte `i` is `f i`. -/
def tabulate (n : Nat) (f : Nat → UInt8) : Bytes n := Vector.ofFn (fun i => f i)

theorem rd_tabulate {f : Nat → UInt8} {i : Nat} (h : i < n) : (tabulate n f).rd i = f i := by
  unfold rd tabulate
  rw [Vector.getElem?_eq_getElem h, Vector.getElem_ofFn]
  rfl

theorem wr_rd_self (m : Bytes n) (i : Nat) : m.wr i (m.rd i) = m := by
  apply ext_rd
  intro j hj
  rw [rd_wr]
  split_ifs with h
  · rw [h.1]
  · rfl

theorem wr_wr (m : Bytes n) (i : Nat) (x y : UInt8) : (m.wr i x).wr i y = m.wr i y := by
  apply ext_rd
  intro j hj
  rw [rd_wr, rd_wr, rd_wr]
  split_ifs <;> rfl

/-- A loop that writes one cell after the other: the first `k` cells are written, and the memory behind them
    is as it was. `step` may count on the latter. -/
theorem rd_foldl_range {step : Bytes n → Nat → Bytes n} {value : Nat → UInt8} (m : Bytes n) {bound : Nat}
    (hbound : bound ≤ n)
    (hstep : ∀ k, k < bound → ∀ m', (∀ j, k ≤ j → m'.rd j = m.rd j) → step m' k = m'.wr k (value k))
    {k : Nat} (hk : k ≤ bound) (j : Nat) :
    ((List.range k).foldl step m).rd j = if j < k then value j else m.rd j := by
  induction k generalizing j with
  | zero => rfl
  | succ k ih =>
      have hbehind : ∀ j, k ≤ j → ((List.range k).foldl step m).rd j = m.rd j := by
        intro j hj
        rw [ih (by omega), if_neg (by omega)]
      rw [List.range_succ, List.foldl_append, List.foldl_cons, List.foldl_nil,
        hstep k (by omega) _ hbehind]
      by_cases hlast : k = j
      · subst hlast
        rw [rd_wr_same _ (by omega), if_pos (by omega)]
      · have hless : j < k + 1 ↔ j < k := by omega
        rw [rd_wr_ne _ hlast, ih (by omega)]
        simp only [hless]

/-- Store bytes one after the other, from offset `i` on. -/
def wrAll (m : Bytes n) (i : Nat) : List UInt8 → Bytes n
  | []      => m
  | x :: xs => (m.wr i x).wrAll (i + 1) xs

theorem rd_wrAll (m : Bytes n) {i : Nat} {xs : List UInt8} (h : i + xs.length ≤ n) (j : Nat) :
    (m.wrAll i xs).rd j = if i ≤ j then xs[j - i]?.getD (m.rd j) else m.rd j := by
  induction xs generalizing m i with
  | nil => simp [wrAll]
  | cons x xs ih =>
      rw [List.length_cons] at h
      rw [wrAll, ih _ (by omega)]
      rcases Nat.lt_trichotomy i j with hlt | rfl | hgt
      · have hnext : i + 1 ≤ j := hlt
        have hindex : j - i = (j - (i + 1)) + 1 := by omega
        rw [if_pos hnext, if_pos (Nat.le_of_lt hlt), hindex, List.getElem?_cons_succ,
          rd_wr_ne _ (Nat.ne_of_lt hlt)]
      · rw [if_neg (Nat.not_succ_le_self i), if_pos (Nat.le_refl i), Nat.sub_self, rd_wr_same _ (by omega)]
        rfl
      · rw [if_neg (by omega), if_neg (Nat.not_le.mpr hgt), rd_wr_ne _ (Nat.ne_of_gt hgt)]

/-- Bytes that were stored can be read back. -/
theorem map_rd_wrAll (m : Bytes n) {xs : List UInt8} (h : xs.length ≤ n) :
    (List.range xs.length).map (m.wrAll 0 xs).rd = xs := by
  apply List.ext_getElem
  · rw [List.length_map, List.length_range]
  · intro j _ hj
    rw [List.getElem_map, List.getElem_range, rd_wrAll m (by omega), if_pos (Nat.zero_le j), Nat.sub_zero,
      List.getElem?_eq_getElem hj]
    rfl

/-! ## Half-word accesses -/

theorem rd16_wr16_same (b : Bytes n) {i : Nat} (h : 2 * i + 1 < n) (v : UInt16) :
    (b.wr16 i v).rd16 i = v := by
  have hlo : ((b.wr16 i v).rd (2 * i)).toNat = v.toNat % 256 := by
    unfold wr16
    rw [rd_wr_ne _ (by omega), rd_wr_same _ (by omega)]
    simp
  have hhi : ((b.wr16 i v).rd (2 * i + 1)).toNat = v.toNat / 256 := by
    have hv := v.toNat_lt
    unfold wr16
    rw [rd_wr_same _ h]
    simp only [UInt8.toNat_ofNat']
    omega
  unfold rd16
  rw [hlo, hhi, Nat.mod_add_div, UInt16.ofNat_toNat]

theorem rd16_wr16_ne (b : Bytes n) {i j : Nat} (h : i ≠ j) (v : UInt16) :
    (b.wr16 i v).rd16 j = b.rd16 j := by
  unfold rd16 wr16
  rw [rd_wr_ne _ (by omega), rd_wr_ne _ (by omega), rd_wr_ne _ (by omega), rd_wr_ne _ (by omega)]

end Bytes
