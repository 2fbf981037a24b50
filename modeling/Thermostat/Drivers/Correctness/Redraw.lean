import Mathlib.Data.List.Induction
import Thermostat.Drivers.Correctness.Icons
import Thermostat.Lib.Trace

/-!
# `Drivers.Correctness.Redraw` — characters drawn over others

`ShowDigit` writes all four cells of its position. `ShowLetter` leaves out the cells that are empty in the
letter, so that what was there shines through. `Clear` is the condition under which it does not.

**`redrawn_iff`**: in a sequence of drawings each position shows the last character drawn there exactly if
every letter is drawn over cells that are blank where the letter is.
-/

namespace Thermostat

namespace HT1621B

/-! ## Drawings -/

/-- A character that `ShowLetter` has segments for. -/
def Letter := { c : Char // (letters c).isSome = true }

/-- The calls that draw one supported character. -/
inductive Draw where
  | digit (position : Fin 6) (digit : Fin 10) (withDot flushNow : Bool)
  | letter (position : Fin 6) (letter : Letter) (flushNow : Bool)

namespace Draw

def position : Draw → Nat
  | .digit p _ _ _ => p
  | .letter p _ _  => p

/-- The character drawn. -/
def char : Draw → Char
  | .digit _ n _ _ => Nat.digitChar n
  | .letter _ c _  => c.val

end Draw

def draw (d : HT1621B) : Draw → HT1621B × List Unit
  | .digit p n withDot flushNow => (d.showDigit p n withDot flushNow, [])
  | .letter p c flushNow        => (d.showLetter p c.val flushNow, [])

/-- A letter finds the cells blank that it does not write. -/
def Clear (d : HT1621B) : Draw → Prop
  | .digit _ _ _ _ => True
  | .letter p c _  => ∀ k, 1 ≤ k → k ≤ 4 → glyph c.val k = 0 → d.vram.rd (cell p k) &&& segmentBits k = 0

/-! ## One row -/

section Row

variable (w : Segment → Prop) [DecidablePred w] {segs : List Segment} (d : HT1621B) {p : Nat}

theorem drawRow_own (hrow : IsRow segs) {k : Nat} (hk : k ≤ 4) :
    (d.drawRow w segs p).vram.rd (cell p k) =
      match segs.find? (fun seg => seg.addr = k) with
      | some seg => if w seg then seg.val else d.vram.rd (cell p k)
      | none => d.vram.rd (cell p k) := by
  rw [← addr_cell p k]
  exact write_rd w (cell_lt hk) hrow.1 d

theorem drawRow_other (hrow : IsRow segs) {q k : Nat} (hp : p < 6) (hq : q < 6) (hne : p ≠ q) (hlow : 1 ≤ k)
    (hhigh : k ≤ 4) : (d.drawRow w segs p).vram.rd (cell q k) = d.vram.rd (cell q k) := by
  unfold drawRow
  rw [write_rd w (cell_lt hhigh) hrow.1, find_other hrow hp hq hne hlow hhigh]

end Row

/-! ## One drawing -/

/-- A dot that is switched on changes the third cell of its position, and not in its segment bit. -/
theorem showDot_on (d : HT1621B) (p : Nat) : (d.showDot p true false).vram =
    if 1 ≤ p ∧ p < 6 then d.vram.wr (cell p 3) (d.vram.rd (cell p 3) ||| 2) else d.vram := by
  unfold showDot
  by_cases hp : 1 ≤ p ∧ p < 6
  · have hcell : ¬ cell p 3 ≥ 32 := Nat.not_le.mpr (cell_lt (by omega))
    rw [if_neg (by omega), if_pos hp, dots_eq hp.1 hp.2]
    simp only [if_true, flushIf_vram]
    unfold setData
    rw [if_neg hcell]
  · rw [if_pos (by omega), if_neg hp]

theorem showDot_segments (d : HT1621B) (p q : Nat) {k : Nat} (hk : k ≤ 4) :
    (d.showDot p true false).vram.rd (cell q k) &&& segmentBits k
      = d.vram.rd (cell q k) &&& segmentBits k := by
  rw [showDot_on]
  split_ifs
  · by_cases hcell : cell p 3 = cell q k
    · have hthird : k = 3 := by
        unfold cell at hcell
        omega
      rw [← hcell, Bytes.rd_wr_same _ (cell_lt (by omega)), hthird, or_dot_segments]
    · rw [Bytes.rd_wr_ne _ hcell]
  · rfl

theorem showDot_other (d : HT1621B) {p q k : Nat} (hp : p < 6) (hq : q < 6) (hne : p ≠ q) (hlow : 1 ≤ k)
    (hhigh : k ≤ 4) : (d.showDot p true false).vram.rd (cell q k) = d.vram.rd (cell q k) := by
  have hcell : cell p 3 ≠ cell q k := cell_ne hp hq hne ⟨by omega, by omega⟩ ⟨hlow, hhigh⟩
  rw [showDot_on]
  split_ifs
  · exact Bytes.rd_wr_ne _ hcell _
  · rfl

theorem row_digit (n : Fin 10) : row (Nat.digitChar n) = digits n := by
  revert n
  decide

theorem letter_not_digit {c : Char} (hc : (letters c).isSome = true) : ¬ ('0' ≤ c ∧ c ≤ '9') := by
  unfold letters at hc
  split at hc <;> first | decide | cases hc

theorem row_letter (c : Letter) : row c.val = (letters c.val).getD [] := if_neg (letter_not_digit c.property)

theorem showDigit_reads (d : HT1621B) (p : Fin 6) (n : Fin 10) (withDot flushNow : Bool) :
    Reads (d.showDigit p n withDot flushNow).vram p (Nat.digitChar n) := by
  intro k hlow hhigh
  obtain ⟨seg, hfind⟩ := digits_cells (Nat.le_of_lt_succ n.isLt) hlow hhigh
  have hrow : (d.drawRow (fun _ => True) (digits n) p).vram.rd (cell p k) = seg.val := by
    rw [drawRow_own _ d (digits_isRow n) hhigh, hfind]
    simp only [if_true]
  have hglyph : glyph (Nat.digitChar n) k = seg.val := by
    unfold glyph
    rw [row_digit, hfind]
    rfl
  have hmasked := glyph_masked (Nat.digitChar n) k
  rw [hglyph] at hmasked
  rcases showDigit_cases d p n withDot flushNow with ⟨hbad, -⟩ | ⟨-, dotted, h⟩
  · omega
  · rw [h, hglyph]
    cases dotted with
    | false => exact (congrArg (· &&& segmentBits k) hrow).trans hmasked
    | true =>
        rw [if_pos rfl, showDot_segments _ _ _ hhigh, hrow]
        exact hmasked

/-- **What a letter leaves in a cell**: its own picture where it has a segment, and the old one elsewhere. -/
theorem showLetter_cell (d : HT1621B) (p : Fin 6) (c : Letter) (flushNow : Bool) {k : Nat} (hhigh : k ≤ 4) :
    (d.showLetter p c.val flushNow).vram.rd (cell p k) &&& segmentBits k
      = if glyph c.val k = 0 then d.vram.rd (cell p k) &&& segmentBits k else glyph c.val k := by
  have hglyph : glyph c.val k
      = (((letters c.val).getD []).find? (fun seg => seg.addr = k)).elim 0 Segment.val := by
    unfold glyph
    rw [row_letter]
  have hmasked := glyph_masked c.val k
  rw [showLetter_vram, if_pos p.isLt, drawRow_own _ d (letters_isRow c.val) hhigh]
  cases hfind : ((letters c.val).getD []).find? (fun seg => seg.addr = k) with
  | none =>
      rw [hfind] at hglyph
      exact (if_pos hglyph).symm
  | some seg =>
      have hval : glyph c.val k = seg.val := by
        rw [hglyph, hfind]
        rfl
      rw [hval] at hmasked ⊢
      by_cases hempty : seg.val = 0
      · simp only [if_neg (not_not.mpr hempty), if_pos hempty]
      · simp only [if_pos hempty, if_neg hempty]
        exact hmasked

/-- **When a character appears as it should.** -/
theorem draw_reads_iff (d : HT1621B) (c : Draw) : Reads (draw d c).1.vram c.position c.char ↔ d.Clear c := by
  cases c with
  | digit p n withDot flushNow => exact ⟨fun _ => trivial, fun _ => showDigit_reads d p n withDot flushNow⟩
  | letter p c flushNow =>
      constructor
      · intro hreads k hlow hhigh hempty
        have hcell := hreads k hlow hhigh
        simp only [draw, Draw.position, Draw.char] at hcell
        rw [showLetter_cell d p c flushNow hhigh, if_pos hempty, hempty] at hcell
        exact hcell
      · intro hclear k hlow hhigh
        simp only [draw, Draw.position, Draw.char]
        rw [showLetter_cell d p c flushNow hhigh]
        split_ifs with hempty
        · rw [hclear k hlow hhigh hempty, hempty]
        · rfl

/-- A drawing leaves the cells of the other positions alone. -/
theorem draw_other (d : HT1621B) (c : Draw) {q k : Nat} (hq : q < 6) (hne : q ≠ c.position) (hlow : 1 ≤ k)
    (hhigh : k ≤ 4) : (draw d c).1.vram.rd (cell q k) = d.vram.rd (cell q k) := by
  cases c with
  | digit p n withDot flushNow =>
      have hrow := drawRow_other (fun _ => True) d (digits_isRow n) p.isLt hq (Ne.symm hne) hlow hhigh
      rcases showDigit_cases d p n withDot flushNow with ⟨hbad, -⟩ | ⟨-, dotted, h⟩
      · omega
      · simp only [draw, h]
        cases dotted with
        | false => exact hrow
        | true => exact (showDot_other _ p.isLt hq (Ne.symm hne) hlow hhigh).trans hrow
  | letter p c flushNow =>
      simp only [draw, showLetter_vram, if_pos p.isLt]
      exact drawRow_other _ d (letters_isRow c.val) p.isLt hq (Ne.symm hne) hlow hhigh

/-! ## Sequences of drawings -/

/-- The last character drawn at a position. -/
def lastDrawn (calls : List Draw) (q : Nat) : Option Char :=
  ((calls.filter (fun c => c.position = q)).getLast?).map Draw.char

theorem lastDrawn_snoc (calls : List Draw) (c : Draw) (q : Nat) :
    lastDrawn (calls ++ [c]) q = if c.position = q then some c.char else lastDrawn calls q := by
  unfold lastDrawn
  rw [List.filter_append]
  split_ifs with hq
  · have hkept : [c].filter (fun c => c.position = q) = [c] :=
      List.filter_cons_of_pos (decide_eq_true hq)
    rw [hkept, List.getLast?_append]
    rfl
  · have hdropped : [c].filter (fun c => c.position = q) = [] :=
      List.filter_cons_of_neg (by simpa using hq)
    rw [hdropped, List.append_nil]

/-- Each drawing of a sequence replaces what its position showed, and nothing else. -/
structure Redrawn (d : HT1621B) (calls : List Draw) : Prop where
  own : ∀ pre c post, calls = pre ++ c :: post →
    Reads (Trace.run draw d (pre ++ [c])).1.vram c.position c.char
  other : ∀ pre c post, calls = pre ++ c :: post → ∀ q, q < 6 → q ≠ c.position → ∀ k, 1 ≤ k → k ≤ 4 →
    (Trace.run draw d (pre ++ [c])).1.vram.rd (cell q k) = (Trace.run draw d pre).1.vram.rd (cell q k)
  last : ∀ pre post, calls = pre ++ post → ∀ q, q < 6 → ∀ char, lastDrawn pre q = some char →
    Reads (Trace.run draw d pre).1.vram q char

/-- While letters are drawn over blank cells, each position shows the last character drawn there. -/
theorem lastDrawn_reads {d : HT1621B} {calls : List Draw} (h : Trace.Along draw Clear d calls) {q : Nat}
    (hq : q < 6) {char : Char} (hlast : lastDrawn calls q = some char) :
    Reads (Trace.run draw d calls).1.vram q char := by
  induction calls using List.reverseRecOn with
  | nil => cases hlast
  | append_singleton calls c ih =>
      obtain ⟨hbefore, hclear, -⟩ := Trace.along_append.mp h
      rw [lastDrawn_snoc] at hlast
      rw [Trace.run_snoc]
      by_cases hhere : c.position = q
      · rw [if_pos hhere, Option.some.injEq] at hlast
        rw [← hhere, ← hlast]
        exact (draw_reads_iff _ c).mpr hclear
      · rw [if_neg hhere] at hlast
        intro k hlow hhigh
        rw [draw_other _ c hq (Ne.symm hhere) hlow hhigh]
        exact ih hbefore hlast k hlow hhigh

/-- **When drawings replace what was there**: every letter finds the cells blank that are empty in it. -/
theorem redrawn_iff (d : HT1621B) (calls : List Draw) : d.Redrawn calls ↔ Trace.Along draw Clear d calls := by
  constructor
  · intro h
    rw [Trace.along_iff_prefix]
    intro pre c post hsplit
    have hown := h.own pre c post hsplit
    rw [Trace.run_snoc] at hown
    exact (draw_reads_iff _ c).mp hown
  · intro h
    refine ⟨?_, ?_, ?_⟩
    · intro pre c post hsplit
      rw [Trace.run_snoc]
      exact (draw_reads_iff _ c).mpr (Trace.along_iff_prefix.mp h pre c post hsplit)
    · intro pre c post _ q hq hne k hlow hhigh
      rw [Trace.run_snoc]
      exact draw_other _ c hq hne hlow hhigh
    · rintro pre post rfl q hq char hlast
      exact lastDrawn_reads (Trace.along_append.mp h).1 hq hlast

/-- An `L` drawn over an 8 keeps the right side of the 8. -/
theorem redrawn_wrong :
    ¬ (⟨Bytes.zeros 32, []⟩ : HT1621B).Redrawn
      [.digit 0 8 false false, .letter 0 ⟨'L', rfl⟩ false] := by
  intro h
  have hown := h.own [.digit 0 8 false false] (.letter 0 ⟨'L', rfl⟩ false) [] rfl
  exact absurd (hown 4 (by omega) (by omega)) (by decide)

end HT1621B
end Thermostat
