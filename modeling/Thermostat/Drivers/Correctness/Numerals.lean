import Mathlib.Data.Nat.Digits.Defs
import Thermostat.Drivers.Correctness.StringImage

/-!
# `Drivers.Correctness.Numerals` — a number on the display

`numeral` is the text that `ShowInt` means to show. `itoa_simple` writes it (`itoaSimple_eq`), but the
buffer has room for seven characters only, and the cells that the number does not cover keep what was
there (`showInt_cells`).

**`showInt_correct_iff`**: so the display shows the number exactly when it fits into the buffer and the
cells that are not written were blank.
-/

namespace Thermostat

namespace HT1621B

/-- The decimal numeral of a number. -/
def numeral (value : Int) : List Char :=
  if value < 0 then '-' :: Nat.toDigits 10 value.natAbs else Nat.toDigits 10 value.natAbs

def digitCount (value : Int) : Nat := (Nat.toDigits 10 value.natAbs).length

/-- Six positions are enough for the numeral. -/
def Presentable (value : Int) : Prop := -99999 ≤ value ∧ value ≤ 999999

instance (value : Int) : Decidable (Presentable value) :=
  inferInstanceAs (Decidable (-99999 ≤ value ∧ value ≤ 999999))

/-- What position `p` has to show for a number: a character of the numeral, or a dash where the numeral is
    too long. -/
def wanted (value : Int) (p : Nat) : Char :=
  if Presentable value then shownAt (numeral value) p else '-'

/-- `ShowInt` does not write this cell. -/
def Untouched (value : Int) (p k : Nat) : Prop :=
  if Presentable value then digitCount value ≤ p ∧ ¬ (value < 0 ∧ p = digitCount value ∧ k = 2)
  else k ≠ 2

instance (value : Int) (p k : Nat) : Decidable (Untouched value p k) := by
  unfold Untouched
  infer_instance

theorem untouched_of_presentable {value : Int} (h : Presentable value) (p k : Nat) :
    Untouched value p k
      ↔ digitCount value ≤ p ∧ ¬ (value < 0 ∧ p = digitCount value ∧ k = 2) := by
  unfold Untouched
  rw [if_pos h]

theorem untouched_of_long {value : Int} (h : ¬ Presentable value) (p k : Nat) :
    Untouched value p k ↔ k ≠ 2 := by
  unfold Untouched
  rw [if_neg h]

/-! ## The conversion -/

theorem ofNat_digit {n : Nat} (h : n < 10) : Char.ofNat ('0'.toNat + n) = Nat.digitChar n := by
  rw [← Char.ofNat_toNat (Nat.digitChar n), Nat.toNat_digitChar_of_lt_ten h]
  rfl

/-- The digits in `tmp`, read backwards, are the decimal digits. -/
theorem tmpDigits_reverse {k n : Nat} (hk : 0 < k) (h : n < 10 ^ k) :
    (tmpDigits k n).reverse = Nat.toDigits 10 n := by
  induction k generalizing n with
  | zero => omega
  | succ k ih =>
      rw [tmpDigits, ofNat_digit (Nat.mod_lt n (by omega)), List.reverse_cons, Nat.toDigits_eq_if (by omega)]
      by_cases hsmall : n < 10
      · rw [if_pos (by omega), if_pos hsmall, Nat.mod_eq_of_lt hsmall]
        rfl
      · have hrest : n / 10 < 10 ^ k := by
          rw [Nat.pow_succ] at h
          omega
        have hroom : 0 < k := by
          by_contra hzero
          have : k = 0 := by omega
          subst this
          simp only [Nat.pow_zero] at hrest
          omega
        rw [if_neg (by omega), if_neg hsmall, ih hroom hrest]

theorem itoaSimple_eq {value : Int} (hlo : -2147483648 < value) (hhi : value ≤ 2147483647) :
    itoaSimple value = some (numeral value ++ ['\x00']) := by
  have hdigits : (tmpDigits 12 value.natAbs).reverse = Nat.toDigits 10 value.natAbs :=
    tmpDigits_reverse (by omega) (by omega)
  unfold itoaSimple numeral
  rw [if_neg (by omega), hdigits]
  by_cases hneg : value < 0
  · simp only [if_pos hneg, List.cons_append, List.nil_append]
  · simp only [if_neg hneg, List.nil_append]

theorem digitCount_le (value : Int) {k : Nat} (hk : 0 < k) :
    digitCount value ≤ k ↔ value.natAbs < 10 ^ k := Nat.length_toDigits_le_iff (by omega) hk

theorem numeral_length (value : Int) :
    (numeral value).length = digitCount value + if value < 0 then 1 else 0 := by
  unfold numeral digitCount
  split_ifs
  · rfl
  · rfl

theorem isDigit_of_mem {n : Nat} {c : Char} (h : c ∈ Nat.toDigits 10 n) : '0' ≤ c ∧ c ≤ '9' := by
  have hdigit := Nat.isDigit_of_mem_toDigits (by omega) (by omega) h
  unfold Char.isDigit at hdigit
  rw [Bool.and_eq_true, decide_eq_true_iff, decide_eq_true_iff] at hdigit
  exact hdigit

theorem mem_numeral {value : Int} {c : Char} (h : c ∈ numeral value) : c = '-' ∨ ('0' ≤ c ∧ c ≤ '9') := by
  unfold numeral at h
  split_ifs at h
  · rcases List.mem_cons.mp h with hsign | hdigit
    · exact Or.inl hsign
    · exact Or.inr (isDigit_of_mem hdigit)
  · exact Or.inr (isDigit_of_mem h)

theorem numeral_ne_nul {value : Int} {c : Char} (h : c ∈ numeral value) : c ≠ '\x00' := by
  rintro rfl
  rcases mem_numeral h with hsign | hdigit
  · exact absurd hsign (by decide)
  · exact absurd hdigit.1 (by decide)

/-- The length that `ShowInt` counts. -/
theorem numeral_takeWhile (value : Int) :
    (numeral value ++ ['\x00']).takeWhile (· ≠ '\x00') = numeral value := by
  rw [List.takeWhile_append_of_pos (fun c hc => by simpa using numeral_ne_nul hc)]
  simp

/-- How long a numeral gets. The sign takes the place of a digit. -/
theorem numeral_length_le (value : Int) {k : Nat} (hk : 0 < k) :
    (numeral value).length ≤ k + 1 ↔ -(10 ^ k : Nat) < value ∧ value < (10 ^ (k + 1) : Nat) := by
  have hsigned := digitCount_le value hk
  have hplain := digitCount_le value (Nat.succ_pos k)
  have hpos : 0 < 10 ^ k := Nat.pow_pos (Nat.succ_pos 9)
  have hpow : 10 ^ (k + 1) = 10 ^ k * 10 := Nat.pow_succ 10 k
  rw [numeral_length]
  split_ifs <;> omega

theorem presentable_iff_length (value : Int) : Presentable value ↔ (numeral value).length ≤ 6 := by
  have hlength := numeral_length_le value (k := 5) (Nat.succ_pos 4)
  unfold Presentable
  omega

theorem numeral_length_le_seven (value : Int) :
    (numeral value).length ≤ 7 ↔ -999999 ≤ value ∧ value ≤ 9999999 := by
  have hlength := numeral_length_le value (k := 6) (Nat.succ_pos 5)
  omega

/-- The numeral fits into the buffer. -/
theorem buf_length_iff (value : Int) :
    (numeral value ++ ['\x00']).length ≤ 8 ↔ -999999 ≤ value ∧ value ≤ 9999999 := by
  rw [← numeral_length_le_seven, List.length_append, List.length_singleton]
  exact Nat.add_le_add_iff_right

theorem presentable_iff (value : Int) :
    Presentable value ↔ ¬ ((¬ value < 0 ∧ digitCount value > 6) ∨ (value < 0 ∧ digitCount value > 5)) := by
  rw [presentable_iff_length, numeral_length]
  split_ifs <;> omega

theorem numeral_fits {value : Int} (h : Presentable value) : (numeral value).length ≤ 6 :=
  (presentable_iff_length value).mp h

theorem digits_length {value : Int} (h : Presentable value) :
    (Nat.toDigits 10 value.natAbs).reverse.length = digitCount value ∧ digitCount value ≤ 6
      ∧ (value < 0 → digitCount value < 6) := by
  have hlength := numeral_fits h
  rw [numeral_length] at hlength
  refine ⟨List.length_reverse, by omega, ?_⟩
  intro hneg
  rw [if_pos hneg] at hlength
  omega

/-! ## What is drawn -/

/-- The sign, directly left of the digits. -/
def drawSign (d : HT1621B) (value : Int) : HT1621B :=
  if value < 0 then d.setData (cell (digitCount value) 2) 1 .replace else d

/-- The digits are drawn like the characters of a string. -/
theorem showDigits_eq (d : HT1621B) (cs : List Char) (hcs : ∀ c ∈ cs, '0' ≤ c ∧ c ≤ '9') :
    cs.zipIdx.foldl (fun d ci => d.showDigit ci.2 (ci.1.toNat - '0'.toNat) false false) d
      = d.showChars cs 0 := by
  unfold showChars
  apply List.foldl_ext
  intro d ci hci
  have hdigit := hcs ci.1 (List.fst_mem_of_mem_zipIdx hci)
  unfold showChar
  rw [if_pos hdigit]

/-- Without the sign, the numeral is its digits. -/
theorem numeral_drop (value : Int) :
    (numeral value).drop (if value < 0 then 1 else 0) = Nat.toDigits 10 value.natAbs := by
  unfold numeral
  split_ifs <;> rfl

theorem numeral_length_sub (value : Int) :
    (numeral value).length - (if value < 0 then 1 else 0) = digitCount value := by
  rw [numeral_length, Nat.add_sub_cancel]

theorem showInt_presentable (d : HT1621B) {value : Int} (h : Presentable value) (flushNow : Bool) :
    d.showInt value flushNow
      = some (((d.showChars (Nat.toDigits 10 value.natAbs).reverse 0).drawSign value).flushIf flushNow) := by
  have hbranch := (presentable_iff value).mp h
  obtain ⟨hlength, hsix, hfive⟩ := digits_length h
  unfold Presentable at h
  have hbuf : ¬ (numeral value ++ ['\x00']).length > 8 :=
    Nat.not_lt.mpr ((buf_length_iff value).mpr (by omega))
  have hcount : (Nat.toDigits 10 value.natAbs).reverse.length ≤ 6 := Nat.le_trans (Nat.le_of_eq hlength) hsix
  have hdrawn := showDigits_eq d (Nat.toDigits 10 value.natAbs).reverse
    (fun c hc => isDigit_of_mem (List.mem_reverse.mp hc))
  -- there is always a position left for the sign
  have hsign : (value < 0 ∧ (Nat.toDigits 10 value.natAbs).length < 6) ↔ value < 0 :=
    ⟨And.left, fun hneg => ⟨hneg, hfive hneg⟩⟩
  unfold showInt
  rw [itoaSimple_eq (by omega) (by omega)]
  simp only [if_neg hbuf, numeral_takeWhile, numeral_length_sub, if_neg hbranch, List.take_left, numeral_drop,
    List.take_of_length_le hcount, hdrawn, List.length_reverse, hsign]
  rfl

theorem showInt_dashes (d : HT1621B) {value : Int} (h : ¬ Presentable value)
    (hbuf : -999999 ≤ value ∧ value ≤ 9999999) (flushNow : Bool) :
    d.showInt value flushNow
      = some (((List.range 6).foldl (fun d i => d.setData (i * 4 + 2) 1 .replace) d).flushIf flushNow) := by
  have hbranch := not_not.mp (mt (presentable_iff value).mpr h)
  have hlength : ¬ (numeral value ++ ['\x00']).length > 8 := Nat.not_lt.mpr ((buf_length_iff value).mpr hbuf)
  unfold showInt
  rw [itoaSimple_eq (by omega) (by omega)]
  simp only [if_neg hlength, numeral_takeWhile, numeral_length_sub, if_pos hbranch]

/-! ## The cells afterwards -/

/-- Every cell of a digit is written, so it appears on any background. -/
theorem digits_cells {n k : Nat} (hn : n ≤ 9) (hlow : 1 ≤ k) (hhigh : k ≤ 4) :
    ∃ seg, (digits n).find? (fun seg => seg.addr = k) = some seg := by
  have hdigit : n = 0 ∨ n = 1 ∨ n = 2 ∨ n = 3 ∨ n = 4 ∨ n = 5 ∨ n = 6 ∨ n = 7 ∨ n = 8 ∨ n = 9 := by omega
  have hcell : k = 1 ∨ k = 2 ∨ k = 3 ∨ k = 4 := by omega
  rcases hdigit with rfl | rfl | rfl | rfl | rfl | rfl | rfl | rfl | rfl | rfl <;>
    rcases hcell with rfl | rfl | rfl | rfl <;> exact ⟨_, rfl⟩

theorem showChar_digit (d : HT1621B) {p : Nat} (hp : p < 6) {c : Char} (hc : '0' ≤ c ∧ c ≤ '9') :
    Holds (d.showChar p c).vram p (glyph c) := by
  intro k hlow hhigh
  have hrow : row c = digits (c.toNat - '0'.toNat) := if_pos hc
  obtain ⟨seg, hfind⟩ := digits_cells (digit_le hc) hlow hhigh
  rw [showChar_rd d hp c (cell_lt hhigh), addr_cell, ← glyph_own c p k]
  unfold glyph
  rw [hrow, hfind]
  simp only [written, hc, and_self, true_or, if_true, Option.elim]

/-- The loop leaves the positions ahead of it alone. -/
theorem showChars_ahead (cs : List Char) {i p : Nat} (hp : p < 6) (hahead : i + cs.length ≤ p)
    {d : HT1621B} {g : Nat → UInt8} (h : Holds d.vram p g) : Holds (d.showChars cs i).vram p g := by
  induction cs generalizing i d with
  | nil => exact h
  | cons c cs ih =>
      rw [List.length_cons] at hahead
      rw [showChars_cons]
      exact ih (by omega) (showChar_other d (by omega) hp (by omega) c h)

/-- Digits appear on any background. -/
theorem showChars_digits (d : HT1621B) {cs : List Char} {i p : Nat} (hcs : ∀ c ∈ cs, '0' ≤ c ∧ c ≤ '9')
    (hfits : i + cs.length ≤ 6) (hfrom : i ≤ p) (hto : p < i + cs.length) :
    Holds (d.showChars cs i).vram p (glyph (cs[p - i]?.getD ' ')) := by
  induction cs generalizing i d with
  | nil => exact absurd hto (Nat.not_lt.mpr hfrom)
  | cons c cs ih =>
      rw [List.length_cons] at hfits hto
      rw [showChars_cons]
      by_cases hhere : p = i
      · subst hhere
        rw [Nat.sub_self]
        exact showChars_behind (by omega) (by omega)
          (showChar_digit d (by omega) (hcs c List.mem_cons_self))
      · have hindex : p - i = (p - (i + 1)) + 1 := by omega
        rw [hindex, List.getElem?_cons_succ]
        exact ih _ (fun e he => hcs e (List.mem_cons_of_mem c he)) (by omega) (by omega) (by omega)

/-- What a position holds decides its segments. -/
theorem segments_of_holds {v : Bytes 32} {p k : Nat} {g : Nat → UInt8} (h : Holds v p g) (hlow : 1 ≤ k)
    (hhigh : k ≤ 4) : v.rd (cell p k) &&& segmentBits k = g k &&& segmentBits k := by
  rw [← h k hlow hhigh, UInt8.and_assoc, UInt8.and_comm (ownBits p k), segmentBits_and_ownBits]

theorem cell_inj {p q k l : Nat} (hp : p < 6) (hq : q < 6) (hk : 1 ≤ k ∧ k ≤ 4) (hl : 1 ≤ l ∧ l ≤ 4) :
    cell p k = cell q l ↔ p = q ∧ k = l := by
  unfold cell
  omega

theorem glyph_dash (k : Nat) : glyph '-' k = if k = 2 then 1 else 0 := by
  have hrow : row '-' = [⟨1, 0⟩, ⟨2, 1⟩, ⟨3, 0⟩, ⟨4, 0⟩] := rfl
  unfold glyph
  rw [hrow]
  simp only [List.find?]
  split_ifs <;> grind

theorem drawSign_cell (d : HT1621B) {value : Int} {p k : Nat} (hp : p < 6) (hlow : 1 ≤ k) (hhigh : k ≤ 4)
    (hcount : value < 0 → digitCount value < 6) :
    (d.drawSign value).vram.rd (cell p k)
      = if value < 0 ∧ p = digitCount value ∧ k = 2 then 1 else d.vram.rd (cell p k) := by
  unfold drawSign
  by_cases hneg : value < 0
  · have hcell := cell_inj (hcount hneg) hp (k := 2) (l := k) (by omega) (by omega)
    rw [if_pos hneg, setData_replace _ (cell_lt (by omega)), Bytes.rd_wr]
    by_cases hsame : p = digitCount value ∧ k = 2
    · rw [if_pos ⟨hcell.mpr ⟨hsame.1.symm, hsame.2.symm⟩, cell_lt (by omega)⟩, if_pos ⟨hneg, hsame⟩]
    · rw [if_neg (fun h => hsame ⟨(hcell.mp h.1).1.symm, (hcell.mp h.1).2.symm⟩),
        if_neg (fun h => hsame h.2)]
  · rw [if_neg hneg, if_neg (fun h => hneg h.1)]

/-- Writing one value to a list of cells. -/
theorem fill_rd (cells : List Nat) (hbound : ∀ a ∈ cells, a < 32) (x : UInt8) (d : HT1621B) (a : Nat) :
    (cells.foldl (fun d i => d.setData i x .replace) d).vram.rd a
      = if a ∈ cells then x else d.vram.rd a := by
  induction cells generalizing d with
  | nil => rfl
  | cons i cells ih =>
      have hi := hbound i List.mem_cons_self
      rw [List.foldl_cons, ih (fun a ha => hbound a (List.mem_cons_of_mem i ha)), setData_replace d hi,
        Bytes.rd_wr]
      by_cases hia : i = a
      · subst hia
        simp [hi]
      · simp [hia, Ne.symm hia]

theorem dashes_cell (d : HT1621B) {p k : Nat} (hp : p < 6) (hlow : 1 ≤ k) (hhigh : k ≤ 4) :
    ((List.range 6).foldl (fun d i => d.setData (i * 4 + 2) 1 .replace) d).vram.rd (cell p k)
      = if k = 2 then 1 else d.vram.rd (cell p k) := by
  have hmap := fill_rd ((List.range 6).map (fun i => i * 4 + 2)) (by simp; omega) 1 d (cell p k)
  rw [List.foldl_map] at hmap
  have hmem : cell p k ∈ (List.range 6).map (fun i => i * 4 + 2) ↔ k = 2 := by
    simp only [List.mem_map, List.mem_range]
    unfold cell
    constructor
    · rintro ⟨i, hi, heq⟩
      omega
    · rintro rfl
      exact ⟨5 - p, by omega, rfl⟩
  rw [hmap]
  simp only [hmem]

/-! ## The numeral, position by position -/

theorem numeral_reverse (value : Int) :
    (numeral value).reverse
      = (Nat.toDigits 10 value.natAbs).reverse ++ (if value < 0 then ['-'] else []) := by
  unfold numeral
  split_ifs with hneg
  · exact List.reverse_cons
  · exact (List.append_nil _).symm

theorem wanted_digit {value : Int} {p : Nat} (h : Presentable value) (hp : p < digitCount value) :
    wanted value p = (Nat.toDigits 10 value.natAbs).reverse[p]?.getD ' ' := by
  have hlength : p < (Nat.toDigits 10 value.natAbs).reverse.length := by
    rw [List.length_reverse]
    exact hp
  unfold wanted shownAt
  rw [if_pos h, List.take_of_length_le (numeral_fits h), numeral_reverse, List.getElem?_append_left hlength]

/-- Left of the digits there is the sign, and then nothing. -/
theorem wanted_left {value : Int} {p : Nat} (h : Presentable value) (hp : digitCount value ≤ p) :
    wanted value p = if value < 0 ∧ p = digitCount value then '-' else ' ' := by
  have hlength : (Nat.toDigits 10 value.natAbs).reverse.length = digitCount value := List.length_reverse
  unfold wanted shownAt
  rw [if_pos h, List.take_of_length_le (numeral_fits h), numeral_reverse,
    List.getElem?_append_right (by omega), hlength]
  by_cases hneg : value < 0
  · rw [if_pos hneg]
    by_cases hsign : p = digitCount value
    · rw [if_pos ⟨hneg, hsign⟩, hsign, Nat.sub_self]
      rfl
    · rw [if_neg (fun hc => hsign hc.2), List.getElem?_eq_none (by rw [List.length_singleton]; omega)]
      rfl
  · rw [if_neg hneg, if_neg (fun hc => hneg hc.1)]
    rfl

theorem wanted_long {value : Int} (h : ¬ Presentable value) (p : Nat) : wanted value p = '-' := if_neg h

/-- The cells that are not written should be blank. -/
theorem wanted_untouched {value : Int} {p k : Nat} (h : Untouched value p k) :
    glyph (wanted value p) k = 0 := by
  by_cases hfit : Presentable value
  · rw [untouched_of_presentable hfit] at h
    rw [wanted_left hfit h.1]
    by_cases hsign : value < 0 ∧ p = digitCount value
    · have hcell : k ≠ 2 := fun hk => h.2 ⟨hsign.1, hsign.2, hk⟩
      rw [if_pos hsign, glyph_dash, if_neg hcell]
    · rw [if_neg hsign, glyph_space]
      rfl
  · rw [untouched_of_long hfit] at h
    rw [wanted_long hfit, glyph_dash, if_neg h]

/-- The digits fill their positions. -/
theorem drawn_digit (d : HT1621B) {value : Int} (h : Presentable value) {p k : Nat}
    (hp : p < digitCount value) (hlow : 1 ≤ k) (hhigh : k ≤ 4) :
    (d.showChars (Nat.toDigits 10 value.natAbs).reverse 0).vram.rd (cell p k) &&& segmentBits k
      = glyph (wanted value p) k := by
  obtain ⟨hlength, hsix, -⟩ := digits_length h
  have hcs : ∀ c ∈ (Nat.toDigits 10 value.natAbs).reverse, '0' ≤ c ∧ c ≤ '9' :=
    fun c hc => isDigit_of_mem (List.mem_reverse.mp hc)
  have hdigit := showChars_digits d hcs (i := 0) (p := p) (by omega) (by omega) (by omega)
  rw [segments_of_holds hdigit hlow hhigh, glyph_masked, wanted_digit h hp, Nat.sub_zero]

/-- The digits leave the positions left of them alone. -/
theorem drawn_left (d : HT1621B) {value : Int} (h : Presentable value) {p k : Nat} (hp : p < 6)
    (hleft : digitCount value ≤ p) (hlow : 1 ≤ k) (hhigh : k ≤ 4) :
    (d.showChars (Nat.toDigits 10 value.natAbs).reverse 0).vram.rd (cell p k) &&& segmentBits k
      = d.vram.rd (cell p k) &&& segmentBits k := by
  obtain ⟨hlength, -, -⟩ := digits_length h
  have hold := showChars_ahead (Nat.toDigits 10 value.natAbs).reverse (i := 0) hp (by omega) (d := d)
    (g := fun k => d.vram.rd (cell p k) &&& ownBits p k) (fun _ _ _ => rfl)
  rw [segments_of_holds hold hlow hhigh, UInt8.and_assoc, UInt8.and_comm (ownBits p k),
    segmentBits_and_ownBits]

/-- **What `ShowInt` leaves in a cell**: the wanted picture where it writes, and the old one elsewhere. -/
theorem showInt_cells {d d' : HT1621B} {value : Int} {flushNow : Bool}
    (hbuf : -999999 ≤ value ∧ value ≤ 9999999) (h : d.showInt value flushNow = some d') {p k : Nat}
    (hp : p < 6) (hlow : 1 ≤ k) (hhigh : k ≤ 4) :
    d'.vram.rd (cell p k) &&& segmentBits k
      = if Untouched value p k then d.vram.rd (cell p k) &&& segmentBits k else glyph (wanted value p) k := by
  by_cases hfit : Presentable value
  · rw [showInt_presentable d hfit, Option.some.injEq] at h
    rw [← h, flushIf_vram, drawSign_cell _ hp hlow hhigh (digits_length hfit).2.2]
    simp only [untouched_of_presentable hfit]
    by_cases hleft : digitCount value ≤ p
    · by_cases hdash : value < 0 ∧ p = digitCount value ∧ k = 2
      · obtain ⟨hneg, hsign, rfl⟩ := hdash
        rw [if_pos ⟨hneg, hsign, rfl⟩, if_neg (fun hc => hc.2 ⟨hneg, hsign, rfl⟩), wanted_left hfit hleft,
          if_pos ⟨hneg, hsign⟩]
        rfl
      · rw [if_neg hdash, if_pos ⟨hleft, hdash⟩]
        exact drawn_left d hfit hp hleft hlow hhigh
    · rw [if_neg (fun hc => hleft (Nat.le_of_eq hc.2.1.symm)), if_neg (fun hc => hleft hc.1)]
      exact drawn_digit d hfit (by omega) hlow hhigh
  · rw [showInt_dashes d hfit hbuf, Option.some.injEq] at h
    rw [← h, flushIf_vram, dashes_cell d hp hlow hhigh, wanted_long hfit, glyph_dash]
    simp only [untouched_of_long hfit]
    by_cases hk : k = 2
    · subst hk
      rw [if_pos rfl, if_neg (not_not.mpr rfl), if_pos rfl]
      rfl
    · rw [if_neg hk, if_pos hk]

/-- `ShowInt` does as it is meant to: `itoa_simple` keeps to the buffer, and the display shows the number. -/
def ShowsNumber (d : HT1621B) (value : Int) (flushNow : Bool) : Prop :=
  (∃ buf, itoaSimple value = some buf ∧ buf.length ≤ 8) ∧
  ∃ d', d.showInt value flushNow = some d' ∧ ∀ p, p < 6 → Reads d'.vram p (wanted value p)

theorem itoaSimple_fits_iff {value : Int} (hint : -2147483648 ≤ value ∧ value ≤ 2147483647) :
    (∃ buf, itoaSimple value = some buf ∧ buf.length ≤ 8) ↔ -999999 ≤ value ∧ value ≤ 9999999 := by
  by_cases hmin : value = -2147483648
  · subst hmin
    constructor
    · rintro ⟨buf, hbuf, -⟩
      exact absurd hbuf (by simp [itoaSimple])
    · rintro ⟨hlo, -⟩
      omega
  · rw [itoaSimple_eq (by omega) hint.2, ← buf_length_iff value]
    constructor
    · rintro ⟨buf, hbuf, hlength⟩
      rw [Option.some.inj hbuf]
      exact hlength
    · intro hlength
      exact ⟨_, rfl, hlength⟩

theorem showInt_some {d d' : HT1621B} {value : Int} {flushNow : Bool} (h : d.showInt value flushNow = some d') :
    ∃ buf, itoaSimple value = some buf ∧ buf.length ≤ 8 := by
  unfold showInt at h
  cases hbuf : itoaSimple value with
  | none =>
      rw [hbuf] at h
      cases h
  | some buf =>
      by_cases hlength : buf.length > 8
      · rw [hbuf] at h
        simp only [if_pos hlength] at h
        cases h
      · exact ⟨buf, rfl, by omega⟩

theorem showInt_defined {value : Int} (hbuf : -999999 ≤ value ∧ value ≤ 9999999) (d : HT1621B)
    (flushNow : Bool) : ∃ d', d.showInt value flushNow = some d' := by
  by_cases hfit : Presentable value
  · exact ⟨_, showInt_presentable d hfit flushNow⟩
  · exact ⟨_, showInt_dashes d hfit hbuf flushNow⟩

/-- **When `ShowInt` shows the number and nothing else**: the numeral fits into the buffer, and the cells
    that are not written have no segment on. -/
theorem showInt_correct_iff (d : HT1621B) {value : Int} (hint : -2147483648 ≤ value ∧ value ≤ 2147483647)
    (flushNow : Bool) :
    d.ShowsNumber value flushNow ↔
      (-999999 ≤ value ∧ value ≤ 9999999) ∧
      ∀ p, p < 6 → ∀ k, 1 ≤ k → k ≤ 4 → Untouched value p k →
        d.vram.rd (cell p k) &&& segmentBits k = 0 := by
  unfold ShowsNumber
  rw [itoaSimple_fits_iff hint]
  constructor
  · rintro ⟨hbuf, d', hshow, hreads⟩
    refine ⟨hbuf, ?_⟩
    intro p hp k hlow hhigh huntouched
    have hcell := showInt_cells hbuf hshow hp hlow hhigh
    rw [if_pos huntouched, hreads p hp k hlow hhigh, wanted_untouched huntouched] at hcell
    exact hcell.symm
  · rintro ⟨hbuf, hblank⟩
    obtain ⟨d', hshow⟩ := showInt_defined hbuf d flushNow
    refine ⟨hbuf, d', hshow, ?_⟩
    intro p hp k hlow hhigh
    rw [showInt_cells hbuf hshow hp hlow hhigh]
    by_cases huntouched : Untouched value p k
    · rw [if_pos huntouched, hblank p hp k hlow hhigh huntouched, wanted_untouched huntouched]
    · rw [if_neg huntouched]

theorem showInt_correct_iff_minus_five :
    (-2147483648 ≤ (-5 : Int) ∧ (-5 : Int) ≤ 2147483647) ∧
    ((⟨Bytes.zeros 32, []⟩ : HT1621B).ShowsNumber (-5) false ↔
      (-999999 ≤ (-5 : Int) ∧ (-5 : Int) ≤ 9999999) ∧
      ∀ p, p < 6 → ∀ k, 1 ≤ k → k ≤ 4 → Untouched (-5) p k →
        (Bytes.zeros 32).rd (cell p k) &&& segmentBits k = 0) :=
  ⟨⟨by omega, by omega⟩, showInt_correct_iff ⟨Bytes.zeros 32, []⟩ (by omega) false⟩

/-- Eight digits overrun the buffer, and on a display that shows `888888` the number 5 appears as `888885`. -/
theorem showInt_wrong :
    ¬ (⟨Bytes.zeros 32, []⟩ : HT1621B).ShowsNumber 10000000 false ∧
    ¬ ((⟨Bytes.zeros 32, []⟩ : HT1621B).showString ['8', '8', '8', '8', '8', '8'] false).ShowsNumber 5 false := by
  constructor
  · rintro ⟨hbuf, -⟩
    have := (itoaSimple_fits_iff (by omega)).mp hbuf
    omega
  · rintro ⟨-, d', hshow, hreads⟩
    -- the leftmost position still shows its 8
    have hcell := showInt_cells (p := 5) (k := 1) (by omega) hshow (by omega) (by omega) (by omega)
    rw [if_pos (by decide), hreads 5 (by omega) 1 (by omega) (by omega),
      showString_reads _ _ false (by omega) 1 (by omega) (by omega)] at hcell
    exact absurd hcell (by decide)

end HT1621B
end Thermostat
