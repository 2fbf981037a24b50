import Mathlib.Data.List.TakeWhile
import Thermostat.Drivers.HT1621

/-!
# `Drivers.Correctness.Glyphs` — what a drawn image reads as

A position of the display has four image cells. `glyph` is the picture that the tables give for a character,
and `Reads` says that the segment bits of a position are that picture. The drawing functions are followed
with `Holds`, which counts the dot of a position among its bits: a position that holds a glyph reads as its
character and has its dot off.

- `showChar_holds`, `showChar_other`: a character drawn over a blank position appears there, and nowhere else.
- `showString_holds`: a string appears right-aligned, on blanks.
- `flush_vram`: sending the image does not change it.
-/

namespace Thermostat

namespace HT1621B

/-! ## Cells and glyphs -/

/-- The address of cell number `k` (`1` to `4`) of a position. -/
def cell (p k : Nat) : Nat := (5 - p) * 4 + k

/-- The segment bits of a cell. -/
def segmentBits (k : Nat) : UInt8 := if k = 3 then 1 else 3

/-- The segment bits, and the dot in the third cell; the third cell of position 0 has none. -/
def ownBits (p k : Nat) : UInt8 := if p = 0 ∧ k = 3 then 1 else 3

/-- The row of the tables for a character; nothing is drawn for one without a row. -/
def row (c : Char) : List Segment :=
  if '0' ≤ c ∧ c ≤ '9' then digits (c.toNat - '0'.toNat) else (letters c).getD []

/-- What cell number `k` shows for a character. -/
def glyph (c : Char) (k : Nat) : UInt8 := ((row c).find? (fun seg => seg.addr = k)).elim 0 Segment.val

/-- The segment bits of a position are the glyph of a character. -/
def Reads (v : Bytes 32) (p : Nat) (c : Char) : Prop :=
  ∀ k, 1 ≤ k → k ≤ 4 → v.rd (cell p k) &&& segmentBits k = glyph c k

/-- The dot of a position is on. -/
def dotLit (v : Bytes 32) (p : Nat) : Bool := v.rd (dots (5 - p)).addr &&& (dots (5 - p)).val ≠ 0

/-- The bits of a position, its dot included. -/
def Holds (v : Bytes 32) (p : Nat) (g : Nat → UInt8) : Prop :=
  ∀ k, 1 ≤ k → k ≤ 4 → v.rd (cell p k) &&& ownBits p k = g k

/-- No segment and no dot. -/
def blank (_ : Nat) : UInt8 := 0

/-! ## The tables -/

/-- A row gives each of the four cells at most one value, made of segment bits. -/
def IsRow (segs : List Segment) : Prop :=
  (segs.map (·.addr)).Nodup ∧
  ∀ seg ∈ segs, 1 ≤ seg.addr ∧ seg.addr ≤ 4 ∧ seg.val &&& segmentBits seg.addr = seg.val

theorem digits_isRow (n : Nat) : IsRow (digits n) := by
  unfold digits IsRow
  split <;> decide

/-- No entry of a digit's row ends the drawing loop early. -/
theorem digits_takeWhile (n : Nat) : (digits n).takeWhile (fun seg => seg.addr ≠ 0) = digits n := by
  rw [List.takeWhile_eq_self_iff]
  intro seg hseg
  have hlow := ((digits_isRow n).2 seg hseg).1
  exact decide_eq_true (by omega)

theorem letters_isRow (c : Char) : IsRow ((letters c).getD []) := by
  unfold letters IsRow
  split <;> decide

theorem row_isRow (c : Char) : IsRow (row c) := by
  unfold row
  split_ifs
  · exact digits_isRow _
  · exact letters_isRow c

theorem glyph_space (k : Nat) : glyph ' ' k = blank k := by
  have hrow : row ' ' = [] := by decide
  unfold glyph
  rw [hrow]
  rfl

/-- A glyph is made of segment bits. -/
theorem glyph_masked (c : Char) (k : Nat) : glyph c k &&& segmentBits k = glyph c k := by
  unfold glyph
  cases hfind : (row c).find? (fun seg => seg.addr = k) with
  | none => exact UInt8.zero_and
  | some seg =>
      have haddr : seg.addr = k := by simpa using List.find?_some hfind
      have hrow := (row_isRow c).2 seg (List.mem_of_find?_eq_some hfind)
      rw [haddr] at hrow
      exact hrow.2.2

theorem segmentBits_and_ownBits (p k : Nat) : segmentBits k &&& ownBits p k = segmentBits k := by
  unfold segmentBits ownBits
  split_ifs <;> first | rfl | omega

theorem glyph_own (c : Char) (p k : Nat) : glyph c k &&& ownBits p k = glyph c k := by
  rw [← glyph_masked c k, UInt8.and_assoc, segmentBits_and_ownBits]

/-- A position that holds a glyph reads as its character. -/
theorem reads_of_holds {v : Bytes 32} {p : Nat} {c : Char} (h : Holds v p (glyph c)) : Reads v p c := by
  intro k hlow hhigh
  have hbits : ownBits p k &&& segmentBits k = segmentBits k := by
    rw [UInt8.and_comm, segmentBits_and_ownBits]
  rw [← hbits, ← UInt8.and_assoc, h k hlow hhigh, glyph_masked]

theorem dots_eq {p : Nat} (hlow : 1 ≤ p) (hhigh : p < 6) : dots (5 - p) = ⟨cell p 3, 2⟩ := by
  have hcases : p = 1 ∨ p = 2 ∨ p = 3 ∨ p = 4 ∨ p = 5 := by omega
  rcases hcases with rfl | rfl | rfl | rfl | rfl <;> rfl

/-- A position that holds a glyph has its dot off. -/
theorem dot_of_holds {v : Bytes 32} {p : Nat} {c : Char} (hlow : 1 ≤ p) (hhigh : p < 6)
    (h : Holds v p (glyph c)) : dotLit v p = false := by
  have hcell := h 3 (by omega) (by omega)
  have hown : ownBits p 3 = 3 := if_neg (by omega)
  have hglyph : glyph c 3 &&& 1 = glyph c 3 := glyph_masked c 3
  -- the dot's bit is none of the glyph's
  have hoff : v.rd (cell p 3) &&& 2 = 0 := by
    calc v.rd (cell p 3) &&& 2 = (v.rd (cell p 3) &&& 3) &&& 2 := by rw [UInt8.and_assoc]; rfl
      _ = (glyph c 3 &&& 1) &&& 2 := by rw [← hown, hcell, hglyph]
      _ = 0 := by rw [UInt8.and_assoc]; exact UInt8.and_zero
  unfold dotLit
  rw [dots_eq hlow hhigh]
  simp [hoff]

/-! ## Writing cells -/

theorem cell_lt {p k : Nat} (hk : k ≤ 4) : cell p k < 32 := by
  unfold cell
  omega

theorem cell_ne {p q k l : Nat} (hp : p < 6) (hq : q < 6) (hne : p ≠ q) (hk : 1 ≤ k ∧ k ≤ 4)
    (hl : 1 ≤ l ∧ l ≤ 4) : cell p k ≠ cell q l := by
  unfold cell
  omega

/-- No segment of a row drawn at `p` goes to the cells of another position. -/
theorem find_other {segs : List Segment} (hrow : IsRow segs) {p q k : Nat} (hp : p < 6) (hq : q < 6)
    (hne : p ≠ q) (hlow : 1 ≤ k) (hhigh : k ≤ 4) :
    segs.find? (fun seg => seg.addr + (5 - p) * 4 = cell q k) = none := by
  rw [List.find?_eq_none]
  intro seg hseg haddr
  obtain ⟨hfirst, hlast, -⟩ := hrow.2 seg hseg
  apply cell_ne hp hq hne ⟨hfirst, hlast⟩ ⟨hlow, hhigh⟩
  rw [← of_decide_eq_true haddr]
  exact Nat.add_comm _ _

@[simp] theorem setData_replace (d : HT1621B) {a : Nat} (ha : a < 32) (x : UInt8) :
    (d.setData a x .replace).vram = d.vram.wr a x := by
  unfold setData
  rw [if_neg (by omega)]

/-- What the writes of a row, or of the part of it that `w` selects, leave in a cell. -/
theorem write_rd (w : Segment → Prop) [DecidablePred w] {segs : List Segment} {base a : Nat}
    (ha : a < 32) (hnodup : (segs.map (·.addr)).Nodup) (d : HT1621B) :
    (segs.foldl (fun d seg => if w seg then d.setData (seg.addr + base) seg.val .replace else d) d).vram.rd a
      = match segs.find? (fun seg => seg.addr + base = a) with
        | some seg => if w seg then seg.val else d.vram.rd a
        | none => d.vram.rd a := by
  induction segs generalizing d with
  | nil => rfl
  | cons seg segs ih =>
      rw [List.map_cons, List.nodup_cons] at hnodup
      rw [List.foldl_cons, ih hnodup.2, List.find?_cons]
      by_cases haddr : seg.addr + base = a
      · -- no later segment goes to the same cell
        have hnone : segs.find? (fun seg => seg.addr + base = a) = none := by
          rw [List.find?_eq_none]
          intro other hmem hother
          have hsame : other.addr = seg.addr := by
            have := of_decide_eq_true hother
            omega
          exact hnodup.1 (hsame ▸ List.mem_map_of_mem hmem)
        rw [hnone, decide_eq_true haddr]
        by_cases hw : w seg
        · simp only [if_pos hw]
          rw [setData_replace d (by omega), haddr, Bytes.rd_wr_same _ ha]
        · simp only [if_neg hw]
      · have hsame : (if w seg then d.setData (seg.addr + base) seg.val .replace else d).vram.rd a
            = d.vram.rd a := by
          split_ifs
          · unfold setData
            split_ifs
            · rfl
            · exact Bytes.rd_wr_ne _ haddr _
          · rfl
        rw [decide_eq_false haddr, hsame]

/-! ## One character -/

/-- A digit is written whole, a letter without its empty cells. -/
def written (c : Char) (seg : Segment) : Prop := ('0' ≤ c ∧ c ≤ '9') ∨ seg.val ≠ 0

instance (c : Char) : DecidablePred (written c) := fun seg =>
  inferInstanceAs (Decidable (('0' ≤ c ∧ c ≤ '9') ∨ seg.val ≠ 0))

/-- A digit has a row of the table of digits. -/
theorem digit_le {c : Char} (hc : '0' ≤ c ∧ c ≤ '9') : c.toNat - '0'.toNat ≤ 9 := by
  have hupper : c.toNat ≤ '9'.toNat := hc.2
  have hzero : '0'.toNat = 48 := rfl
  have hnine : '9'.toNat = 57 := rfl
  omega

theorem showChar_eq (d : HT1621B) {p : Nat} (hp : p < 6) (c : Char) :
    d.showChar p c = (row c).foldl (fun d seg =>
      if written c seg then d.setData (seg.addr + (5 - p) * 4) seg.val .replace else d) d := by
  unfold showChar row
  by_cases hdigit : '0' ≤ c ∧ c ≤ '9'
  · have hle := digit_le hdigit
    have hnine : ¬ (p ≥ 6 ∨ c.toNat - '0'.toNat > 9) := by omega
    rw [if_pos hdigit, if_pos hdigit]
    unfold showDigit
    rw [if_neg hnine, digits_takeWhile]
    simp [written, hdigit, flushIf]
  · rw [if_neg hdigit, if_neg hdigit]
    unfold showLetter
    rw [if_neg (by omega)]
    cases letters c with
    | none => rfl
    | some segs => simp [written, hdigit, flushIf]

theorem showChar_rd (d : HT1621B) {p : Nat} (hp : p < 6) (c : Char) {a : Nat} (ha : a < 32) :
    (d.showChar p c).vram.rd a
      = match (row c).find? (fun seg => seg.addr + (5 - p) * 4 = a) with
        | some seg => if written c seg then seg.val else d.vram.rd a
        | none => d.vram.rd a := by
  rw [showChar_eq d hp c]
  exact write_rd (written c) ha (row_isRow c).1 d

/-- A character leaves the cells of the other positions alone. -/
theorem showChar_other (d : HT1621B) {p q : Nat} (hp : p < 6) (hq : q < 6) (hne : p ≠ q) (c : Char)
    {g : Nat → UInt8} (h : Holds d.vram q g) : Holds (d.showChar p c).vram q g := by
  intro k hlow hhigh
  rw [showChar_rd d hp c (cell_lt hhigh), find_other (row_isRow c) hp hq hne hlow hhigh]
  exact h k hlow hhigh

/-- The segment that goes to a cell is the one for its number in the row. -/
theorem addr_cell (p k : Nat) :
    (fun seg : Segment => decide (seg.addr + (5 - p) * 4 = cell p k)) = (fun seg => decide (seg.addr = k)) := by
  funext seg
  apply decide_eq_decide.mpr
  unfold cell
  omega

/-- **A character drawn on a blank position appears there.** -/
theorem showChar_holds (d : HT1621B) {p : Nat} (hp : p < 6) (c : Char) (h : Holds d.vram p blank) :
    Holds (d.showChar p c).vram p (glyph c) := by
  intro k hlow hhigh
  have hold := h k hlow hhigh
  rw [showChar_rd d hp c (cell_lt hhigh), addr_cell, ← glyph_own c p k]
  unfold glyph
  cases hfind : (row c).find? (fun seg => seg.addr = k) with
  | none => exact hold.trans UInt8.zero_and.symm
  | some seg =>
      by_cases hw : written c seg
      · simp only [if_pos hw, Option.elim]
      · -- an empty cell that is not written was empty before
        have hzero : seg.val = 0 := by
          by_contra hne
          exact hw (Or.inr hne)
        simp only [if_neg hw, Option.elim, hzero]
        exact hold.trans UInt8.zero_and.symm

/-! ## The segment area -/

/-- What `ClearSegArea` makes of a cell of the area. -/
def wiped (i : Nat) (x : UInt8) : UInt8 := if i = 0x17 then x &&& ~~~0b01 else 0

/-- Rewriting each cell of a list once. -/
theorem rewrite_rd {cells : List Nat} (f : Nat → UInt8 → UInt8) (hnodup : cells.Nodup) {a : Nat}
    (ha : a < 32) (d : HT1621B) :
    (cells.foldl (fun d i => { d with vram := d.vram.wr i (f i (d.vram.rd i)) }) d).vram.rd a
      = if a ∈ cells then f a (d.vram.rd a) else d.vram.rd a := by
  induction cells generalizing d with
  | nil => rfl
  | cons i cells ih =>
      rw [List.nodup_cons] at hnodup
      rw [List.foldl_cons, ih hnodup.2]
      by_cases hia : i = a
      · subst hia
        simp only [if_neg hnodup.1, List.mem_cons_self, if_true]
        exact Bytes.rd_wr_same _ ha _
      · have hmem : a ∈ i :: cells ↔ a ∈ cells := by simp [Ne.symm hia]
        simp only [hmem]
        rw [Bytes.rd_wr_ne _ hia]

theorem clearSegArea_rd (d : HT1621B) {a : Nat} (ha : a < 32) :
    (d.clearSegArea false).vram.rd a
      = if 1 ≤ a ∧ a ≤ 24 then wiped a (d.vram.rd a) else d.vram.rd a := by
  have hbody : (fun (d : HT1621B) (i : Nat) =>
      if i = 0x17 then { d with vram := d.vram.wr i (d.vram.rd i &&& ~~~0b01) }
      else { d with vram := d.vram.wr i 0 })
      = (fun d i => { d with vram := d.vram.wr i (wiped i (d.vram.rd i)) }) := by
    funext d i
    unfold wiped
    split_ifs <;> rfl
  have harea : a ∈ List.range' 1 24 ↔ 1 ≤ a ∧ a ≤ 24 := by
    rw [List.mem_range'_1]
    omega
  unfold clearSegArea flushIf
  rw [hbody, if_neg Bool.false_ne_true, rewrite_rd wiped List.nodup_range' ha]
  simp only [harea]

/-- A cleared area is blank at every position. -/
theorem clearSegArea_blank (d : HT1621B) (p : Nat) : Holds (d.clearSegArea false).vram p blank := by
  intro k hlow hhigh
  have harea : 1 ≤ cell p k ∧ cell p k ≤ 24 := by
    unfold cell
    omega
  rw [clearSegArea_rd d (cell_lt hhigh), if_pos harea]
  unfold wiped
  split_ifs with hcell
  · -- cell 0x17 is the third of position 0, and keeps all but its segment bit
    have hthird : p = 0 ∧ k = 3 := by
      unfold cell at hcell
      omega
    unfold ownBits
    rw [if_pos hthird, UInt8.and_assoc]
    exact UInt8.and_zero
  · exact UInt8.zero_and

/-! ## Strings -/

/-- The drawing loop, from position `i` on. -/
def showChars (d : HT1621B) (cs : List Char) (i : Nat) : HT1621B :=
  (cs.zipIdx i).foldl (fun d ci => d.showChar ci.2 ci.1) d

theorem showChars_cons (d : HT1621B) (c : Char) (cs : List Char) (i : Nat) :
    d.showChars (c :: cs) i = (d.showChar i c).showChars cs (i + 1) := rfl

/-- The loop leaves the positions behind it alone. -/
theorem showChars_behind {cs : List Char} {i p : Nat} (hfits : i + cs.length ≤ 6) (hbehind : p < i)
    {d : HT1621B} {g : Nat → UInt8} (h : Holds d.vram p g) : Holds (d.showChars cs i).vram p g := by
  induction cs generalizing i d with
  | nil => exact h
  | cons c cs ih =>
      rw [List.length_cons] at hfits
      rw [showChars_cons]
      exact ih (by omega) (by omega) (showChar_other d (by omega) (by omega) (by omega) c h)

/-- The loop draws its characters on blank positions; those that it does not reach stay blank. -/
theorem showChars_holds {cs : List Char} {i p : Nat} (hfits : i + cs.length ≤ 6) (hfrom : i ≤ p)
    (hp : p < 6) {d : HT1621B} (hblank : ∀ q < 6, i ≤ q → Holds d.vram q blank) :
    Holds (d.showChars cs i).vram p (glyph (cs[p - i]?.getD ' ')) := by
  induction cs generalizing i d with
  | nil =>
      intro k hlow hhigh
      exact (hblank p hp hfrom k hlow hhigh).trans (glyph_space k).symm
  | cons c cs ih =>
      rw [List.length_cons] at hfits
      rw [showChars_cons]
      by_cases hhere : p = i
      · subst hhere
        have hchar := showChar_holds d hp c (hblank p hp (Nat.le_refl p))
        rw [Nat.sub_self]
        exact showChars_behind (by omega) (by omega) hchar
      · -- the rest of the loop draws on positions that this character has left blank
        have hnext := ih (i := i + 1) (d := d.showChar i c) (by omega) (by omega)
          (fun q hq hiq => showChar_other d (by omega) hq (by omega) c (hblank q hq (by omega)))
        have hindex : p - i = (p - (i + 1)) + 1 := by omega
        rw [hindex, List.getElem?_cons_succ]
        exact hnext

/-- The character that a string shows at a position; it is right-aligned, and blank left of its end. -/
def shownAt (str : List Char) (p : Nat) : Char := (str.take 6).reverse[p]?.getD ' '

theorem showString_holds (d : HT1621B) (str : List Char) {p : Nat} (hp : p < 6) :
    Holds (d.showString str false).vram p (glyph (shownAt str p)) := by
  have hfits : 0 + (str.take 6).reverse.length ≤ 6 := by
    rw [List.length_reverse, List.length_take]
    omega
  exact showChars_holds hfits (Nat.zero_le p) hp (fun q _ _ => clearSegArea_blank d q)

/-! ## Sending the image -/

/-- Only the line changes while an image is sent. -/
theorem drive_vram (d : HT1621B) (p : Pin) (level : Bool) : (d.drive p level).vram = d.vram := rfl

theorem writeBit_vram (d : HT1621B) (bit : Bool) : (d.writeBit bit).vram = d.vram := rfl

theorem writeAddress_vram (d : HT1621B) (k : Nat) (address : UInt8) :
    (d.writeAddress k address).vram = d.vram := by
  induction k generalizing d address with
  | zero => rfl
  | succ k ih => exact ih _ _

theorem writeNibble_vram (d : HT1621B) (k : Nat) (data : UInt8) : (d.writeNibble k data).vram = d.vram := by
  induction k generalizing d data with
  | zero => rfl
  | succ k ih => exact ih _ _

theorem writeData_vram (d : HT1621B) (address data : UInt8) : (d.writeData address data).vram = d.vram := by
  unfold writeData
  split_ifs
  · rfl
  · simp only [drive_vram, writeNibble_vram, writeAddress_vram, writeBit_vram]

theorem flush_vram (d : HT1621B) : d.flush.vram = d.vram := by
  unfold flush
  induction List.range 32 generalizing d with
  | nil => rfl
  | cons i cells ih => exact (ih _).trans (writeData_vram d _ _)

theorem flushIf_vram (d : HT1621B) (flushNow : Bool) : (d.flushIf flushNow).vram = d.vram := by
  cases flushNow with
  | false => rfl
  | true => exact flush_vram d

/-- The last thing on the line is this very image. -/
def Flushed (d : HT1621B) : Prop := ∃ before, d = flush ⟨d.vram, before⟩

theorem flush_flushed (d : HT1621B) : Flushed d.flush := by
  refine ⟨d.line, ?_⟩
  rw [flush_vram]

/-! ## Texts with a dot -/

/-- The display reads as a text with the dot of one position on, and has been told so. -/
structure ShowsText (d : HT1621B) (text : List Char) (dot : Nat) : Prop where
  reads : ∀ p, p < 6 → Reads d.vram p (shownAt text p)
  dots : ∀ p, 1 ≤ p → p < 6 → (dotLit d.vram p = true ↔ p = dot)
  flushed : Flushed d

theorem showDot_eq (d : HT1621B) {p : Nat} (hlow : 1 ≤ p) (hhigh : p < 6) :
    d.showDot p true true = flush { d with vram := d.vram.wr (cell p 3) (d.vram.rd (cell p 3) ||| 2) } := by
  have hcell : ¬ cell p 3 ≥ 32 := Nat.not_le.mpr (cell_lt (by omega))
  unfold showDot
  rw [if_neg (by omega), dots_eq hlow hhigh]
  simp only [if_true]
  unfold setData
  rw [if_neg hcell]
  rfl

theorem or_and_distrib (x y z : UInt8) : (x ||| y) &&& z = (x &&& z) ||| (y &&& z) :=
  UInt8.toBitVec_inj.mp BitVec.and_or_distrib_right

theorem or_dot_segments (x : UInt8) : (x ||| 2) &&& segmentBits 3 = x &&& segmentBits 3 := by
  rw [or_and_distrib]
  exact UInt8.or_zero

theorem or_dot_lit (x : UInt8) : (x ||| 2) &&& 2 ≠ 0 := by
  rw [or_and_distrib]
  intro hzero
  have hbit : (2 : UInt8) ≤ (x &&& 2) ||| (2 &&& 2) := UInt8.right_le_or
  rw [hzero] at hbit
  exact absurd hbit (by decide)

/-- **A string and a dot, drawn and sent.** -/
theorem showString_showDot (d : HT1621B) (text : List Char) {dot : Nat} (hlow : 1 ≤ dot) (hhigh : dot < 6) :
    ShowsText ((d.showString text false).showDot dot true true) text dot := by
  rw [showDot_eq _ hlow hhigh]
  have hown := fun {p} (hp : p < 6) => showString_holds d text hp
  generalize d.showString text false = d at hown
  have hsame : ∀ {p k : Nat}, ¬ (p = dot ∧ k = 3) → p < 6 → 1 ≤ k → k ≤ 4 → cell dot 3 ≠ cell p k := by
    intro p k hne hp hk1 hk4
    unfold cell
    omega
  refine ⟨?_, ?_, flush_flushed _⟩
  · intro p hp k hk1 hk4
    rw [flush_vram]
    -- only the third cell of the dot's position was written, and not in its segment bit
    by_cases hdot : p = dot ∧ k = 3
    · obtain ⟨rfl, rfl⟩ := hdot
      rw [Bytes.rd_wr_same _ (cell_lt hk4), or_dot_segments]
      exact reads_of_holds (hown hp) 3 hk1 hk4
    · rw [Bytes.rd_wr_ne _ (hsame hdot hp hk1 hk4)]
      exact reads_of_holds (hown hp) k hk1 hk4
  · intro p hp1 hp6
    rw [flush_vram]
    by_cases hdot : p = dot
    · subst hdot
      unfold dotLit
      rw [dots_eq hp1 hp6, Bytes.rd_wr_same _ (cell_lt (by omega))]
      simp [or_dot_lit]
    · have hoff := dot_of_holds hp1 hp6 (hown hp6)
      unfold dotLit at hoff ⊢
      rw [dots_eq hp1 hp6] at hoff ⊢
      rw [Bytes.rd_wr_ne _ (hsame (fun h => hdot h.1) hp6 (by omega) (by omega)), hoff]
      simp [hdot]

end HT1621B
end Thermostat
