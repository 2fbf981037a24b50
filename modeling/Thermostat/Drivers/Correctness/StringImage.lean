import Mathlib.Data.List.Nodup
import Thermostat.Drivers.Correctness.Glyphs

/-!
# `Drivers.Correctness.StringImage` — a string and its image

`showString_holds` of `Glyphs` says which glyph stands where. Here the image is taken as a whole:

- `showString_reads`, `showString_blank`, `showString_dots`: every position of a drawn string is determined,
  whatever was on the display.
- `glyph_injective`: no two characters of the tables look alike, and none of them is blank.
- **`showString_image`**: so an image can be read back, up to leading spaces.
-/

namespace Thermostat

namespace HT1621B

/-- The tables have a glyph for the character. -/
def Supported (c : Char) : Prop := ('0' ≤ c ∧ c ≤ '9') ∨ letters c ≠ none

/-- No segment of the position is on. -/
def SegmentsOff (v : Bytes 32) (p : Nat) : Prop :=
  ∀ k, 1 ≤ k → k ≤ 4 → v.rd (cell p k) &&& segmentBits k = 0

/-- The two images have the same segments on. -/
def SameSegments (v w : Bytes 32) : Prop :=
  ∀ p, p < 6 → ∀ k, 1 ≤ k → k ≤ 4 →
    v.rd (cell p k) &&& segmentBits k = w.rd (cell p k) &&& segmentBits k

/-! ## Every position -/

theorem showString_vram (d : HT1621B) (str : List Char) (flushNow : Bool) :
    (d.showString str flushNow).vram = (d.showString str false).vram := by
  unfold showString
  rw [flushIf_vram, flushIf_vram]

theorem showString_reads (d : HT1621B) (str : List Char) (flushNow : Bool) {p : Nat} (hp : p < 6) :
    Reads (d.showString str flushNow).vram p (shownAt str p) := by
  rw [showString_vram]
  exact reads_of_holds (showString_holds d str hp)

theorem showString_dots (d : HT1621B) (str : List Char) (flushNow : Bool) {p : Nat} (hlow : 1 ≤ p)
    (hhigh : p < 6) : dotLit (d.showString str flushNow).vram p = false := by
  rw [showString_vram]
  exact dot_of_holds hlow hhigh (showString_holds d str hhigh)

/-- The last of the first six characters is at position 0. -/
theorem shownAt_eq {str : List Char} {p : Nat} (h : p < min str.length 6) :
    str[min str.length 6 - 1 - p]? = some (shownAt str p) := by
  have hlength : (str.take 6).length = min str.length 6 := by
    rw [List.length_take, Nat.min_comm]
  have hindex : min str.length 6 - 1 - p < (str.take 6).length := by omega
  unfold shownAt
  rw [List.getElem?_reverse (by omega), hlength, List.getElem?_eq_getElem hindex, List.getElem_take,
    Option.getD_some]
  exact List.getElem?_eq_getElem _

theorem shownAt_space {str : List Char} {p : Nat} (h : min str.length 6 ≤ p) : shownAt str p = ' ' := by
  have hlength : (str.take 6).reverse.length ≤ p := by
    rw [List.length_reverse, List.length_take]
    omega
  unfold shownAt
  rw [List.getElem?_eq_none hlength]
  rfl

/-- Nothing is drawn for a character without a glyph. -/
theorem row_of_unsupported {c : Char} (h : ¬ Supported c) : row c = [] := by
  unfold Supported at h
  rw [not_or, not_not] at h
  unfold row
  rw [if_neg h.1, h.2]
  rfl

theorem segmentsOff_of_reads {v : Bytes 32} {p : Nat} {c : Char} (hrow : row c = []) (h : Reads v p c) :
    SegmentsOff v p := by
  intro k hlow hhigh
  have hglyph : glyph c k = 0 := by
    unfold glyph
    rw [hrow]
    rfl
  exact (h k hlow hhigh).trans hglyph

theorem row_space : row ' ' = [] := rfl

theorem showString_blank (d : HT1621B) (str : List Char) (flushNow : Bool) {p : Nat}
    (hfrom : min str.length 6 ≤ p) (hp : p < 6) : SegmentsOff (d.showString str flushNow).vram p := by
  have hreads := showString_reads d str flushNow hp
  rw [shownAt_space hfrom] at hreads
  exact segmentsOff_of_reads row_space hreads

/-! ## No two glyphs are alike -/

/-- The characters of the tables, and the space. -/
def alphabet : List Char :=
  ['0', '1', '2', '3', '4', '5', '6', '7', '8', '9', 'A', 'b', 'C', 'd', 'E', 'F', 'G', 'h', 'I', 'J', 'L', 'n',
   'o', 'P', 'r', 't', 'U', 'X', '-', '_', ' ']

/-- The four cells of a glyph as one number. -/
def picture (c : Char) : Nat :=
  (glyph c 1).toNat + 4 * (glyph c 2).toNat + 16 * (glyph c 3).toNat + 64 * (glyph c 4).toNat

theorem letters_alphabet {c : Char} (h : letters c ≠ none) : c ∈ alphabet := by
  unfold letters at h
  split at h <;> first | exact absurd rfl h | simp [alphabet]

theorem digits_alphabet {c : Char} (h : '0' ≤ c ∧ c ≤ '9') : c ∈ alphabet := by
  have hlow : 48 ≤ c.toNat := h.1
  have hhigh : c.toNat ≤ 57 := h.2
  have hcases : c.toNat = 48 ∨ c.toNat = 49 ∨ c.toNat = 50 ∨ c.toNat = 51 ∨ c.toNat = 52 ∨ c.toNat = 53
      ∨ c.toNat = 54 ∨ c.toNat = 55 ∨ c.toNat = 56 ∨ c.toNat = 57 := by omega
  rw [← Char.ofNat_toNat c]
  rcases hcases with h | h | h | h | h | h | h | h | h | h <;> rw [h] <;> simp [alphabet]

theorem mem_alphabet {c : Char} (h : Supported c ∨ c = ' ') : c ∈ alphabet := by
  rcases h with (hdigit | hletter) | rfl
  · exact digits_alphabet hdigit
  · exact letters_alphabet hletter
  · simp [alphabet]

theorem pictures_nodup : (alphabet.map picture).Nodup := by decide

/-- **No two characters have the same glyph**, and only the space is blank. -/
theorem glyph_injective {c e : Char} (hc : c ∈ alphabet) (he : e ∈ alphabet)
    (h : ∀ k, 1 ≤ k → k ≤ 4 → glyph c k = glyph e k) : c = e := by
  apply List.inj_on_of_nodup_map pictures_nodup hc he
  unfold picture
  rw [h 1 (by omega) (by omega), h 2 (by omega) (by omega), h 3 (by omega) (by omega),
    h 4 (by omega) (by omega)]

/-! ## Reading an image back -/

/-- A text of at most six characters, filled up with spaces on the left. -/
def padded (str : List Char) : List Char := List.replicate (6 - str.length) ' ' ++ str

theorem padded_length {str : List Char} (h : str.length ≤ 6) : (padded str).length = 6 := by
  unfold padded
  rw [List.length_append, List.length_replicate]
  omega

theorem padded_dropWhile (str : List Char) :
    (padded str).dropWhile (· = ' ') = str.dropWhile (· = ' ') := by
  unfold padded
  apply List.dropWhile_append_of_pos
  intro c hc
  rw [List.eq_of_mem_replicate hc]
  rfl

/-- The padded text is what the positions show, from left to right. -/
theorem padded_getElem? {str : List Char} (h : str.length ≤ 6) {p : Nat} (hp : p < 6) :
    (padded str)[5 - p]? = some (shownAt str p) := by
  have hmin : min str.length 6 = str.length := by omega
  unfold padded
  by_cases hshown : p < str.length
  · have hat : str[min str.length 6 - 1 - p]? = some (shownAt str p) := shownAt_eq (by omega)
    rw [hmin] at hat
    rw [List.getElem?_append_right (by rw [List.length_replicate]; omega), List.length_replicate, ← hat]
    congr 1
    omega
  · rw [shownAt_space (by omega),
      List.getElem?_append_left (by rw [List.length_replicate]; omega), List.getElem?_replicate,
      if_pos (by omega)]

theorem padded_ext {s t : List Char} (hs : s.length ≤ 6) (ht : t.length ≤ 6)
    (h : ∀ p, p < 6 → shownAt s p = shownAt t p) : padded s = padded t := by
  apply List.ext_getElem?
  intro i
  by_cases hi : i < 6
  · have hindex : i = 5 - (5 - i) := by omega
    rw [hindex, padded_getElem? hs (by omega), padded_getElem? ht (by omega), h (5 - i) (by omega)]
  · rw [List.getElem?_eq_none (by rw [padded_length hs]; omega),
      List.getElem?_eq_none (by rw [padded_length ht]; omega)]

theorem shownAt_alphabet {str : List Char} (h : ∀ c ∈ str, Supported c ∨ c = ' ') (p : Nat) :
    shownAt str p ∈ alphabet := by
  by_cases hp : p < min str.length 6
  · exact mem_alphabet (h _ (List.mem_of_getElem? (shownAt_eq hp)))
  · rw [shownAt_space (by omega)]
    exact mem_alphabet (Or.inr rfl)

/-- **Images can be read.** Two texts that look the same differ in leading spaces at most. -/
theorem eq_of_sameSegments {d e : HT1621B} {s t : List Char} {f g : Bool} (hs : s.length ≤ 6)
    (ht : t.length ≤ 6) (hsup : ∀ c ∈ s, Supported c ∨ c = ' ') (htup : ∀ c ∈ t, Supported c ∨ c = ' ')
    (h : SameSegments (d.showString s f).vram (e.showString t g).vram) :
    s.dropWhile (· = ' ') = t.dropWhile (· = ' ') := by
  have hshown : ∀ p, p < 6 → shownAt s p = shownAt t p := by
    intro p hp
    apply glyph_injective (shownAt_alphabet hsup p) (shownAt_alphabet htup p)
    intro k hlow hhigh
    rw [← showString_reads d s f hp k hlow hhigh, ← showString_reads e t g hp k hlow hhigh]
    exact h p hp k hlow hhigh
  rw [← padded_dropWhile s, ← padded_dropWhile t, padded_ext hs ht hshown]

/-- **A string and its image.** `str` holds the characters before the NUL. -/
theorem showString_image (d : HT1621B) (str : List Char) (flushNow : Bool) :
    (∀ p, p < min str.length 6 → ∃ c, str[min str.length 6 - 1 - p]? = some c ∧
      (Supported c → Reads (d.showString str flushNow).vram p c) ∧
      (¬ Supported c → SegmentsOff (d.showString str flushNow).vram p)) ∧
    (∀ p, min str.length 6 ≤ p → p < 6 → SegmentsOff (d.showString str flushNow).vram p) ∧
    (∀ p, 1 ≤ p → p < 6 → dotLit (d.showString str flushNow).vram p = false) ∧
    (∀ (e : HT1621B) (t : List Char) (g : Bool), str.length ≤ 6 → t.length ≤ 6 →
      (∀ c ∈ str, Supported c ∨ c = ' ') → (∀ c ∈ t, Supported c ∨ c = ' ') →
      SameSegments (d.showString str flushNow).vram (e.showString t g).vram →
      str.dropWhile (· = ' ') = t.dropWhile (· = ' ')) := by
  refine ⟨?_, ?_, ?_, ?_⟩
  · intro p hp
    have hreads := showString_reads d str flushNow (p := p) (by omega)
    exact ⟨shownAt str p, shownAt_eq hp, fun _ => hreads,
      fun hsup => segmentsOff_of_reads (row_of_unsupported hsup) hreads⟩
  · intro p hfrom hp
    exact showString_blank d str flushNow hfrom hp
  · intro p hlow hhigh
    exact showString_dots d str flushNow hlow hhigh
  · intro e t g hs ht hsup htup h
    exact eq_of_sameSegments hs ht hsup htup h

end HT1621B
end Thermostat
