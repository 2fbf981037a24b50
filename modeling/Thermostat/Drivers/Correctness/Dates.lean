import Thermostat.Drivers.Correctness.Panel
import Thermostat.Drivers.Correctness.Redraw
import Thermostat.Drivers.Correctness.StringImage

/-!
# `Drivers.Correctness.Dates` — the date on the display

`ShowDate` draws six digits and two dots on a blank image. `ShowsDate` is what a reader of the display makes
of an image: the digits of a date, the dots between them, and no icon.

- `showDigits_spec`: a row of digits, drawn from right to left.
- `showsDate_unique`: no image shows two dates.
- **`showDate_image`**: so the image shows the date that `ShowDate` was given, and no other, whatever was on
  the display before. Where day and month are out of range, nothing is drawn.
-/

namespace Thermostat

namespace HT1621B

/-! ## One digit -/

/-- The cell of a dot. -/
theorem dotLit_eq (v : Bytes 32) {p : Nat} (hlow : 1 ≤ p) (hhigh : p < 6) :
    dotLit v p = decide (v.rd (cell p 3) &&& 2 ≠ 0) := by
  unfold dotLit
  rw [dots_eq hlow hhigh]

/-- The third cell of a digit has no bit of the dot. -/
theorem drawRow_dot (d : HT1621B) {p n : Nat} (hn : n ≤ 9) (hlow : 1 ≤ p) (hhigh : p < 6) :
    dotLit (d.drawRow (fun _ => True) (digits n) p).vram p = false := by
  obtain ⟨seg, hfind⟩ := digits_cells (k := 3) hn (by omega) (by omega)
  have hrow : (d.drawRow (fun _ => True) (digits n) p).vram.rd (cell p 3) = seg.val := by
    rw [drawRow_own _ d (digits_isRow n) (by omega), hfind]
    exact if_pos trivial
  have haddr : seg.addr = 3 := by simpa using List.find?_some hfind
  have hoff : seg.val &&& 2 = 0 := by
    have hval := ((digits_isRow n).2 seg (List.mem_of_find?_eq_some hfind)).2.2
    rw [← hval, haddr, UInt8.and_assoc]
    exact UInt8.and_zero
  rw [dotLit_eq _ hlow hhigh, hrow, hoff]
  rfl

theorem showDot_lit (d : HT1621B) {p : Nat} (hlow : 1 ≤ p) (hhigh : p < 6) :
    dotLit (d.showDot p true false).vram p = true := by
  rw [showDot_on, if_pos ⟨hlow, hhigh⟩, dotLit_eq _ hlow hhigh, Bytes.rd_wr_same _ (cell_lt (by omega))]
  exact decide_eq_true (or_dot_lit _)

/-- A digit sets the dot of its position as it is told. -/
theorem showDigit_dot (d : HT1621B) {p n : Nat} (hn : n ≤ 9) (hlow : 1 ≤ p) (hhigh : p < 6)
    (withDot flushNow : Bool) : dotLit (d.showDigit p n withDot flushNow).vram p = withDot := by
  have hgood : ¬ (p ≥ 6 ∨ n > 9) := by omega
  have hrow : (digits n).foldl (fun d seg => d.setData (seg.addr + (5 - p) * 4) seg.val .replace) d
      = d.drawRow (fun _ => True) (digits n) p := by
    unfold drawRow
    simp only [if_true]
  unfold showDigit
  rw [if_neg hgood, digits_takeWhile, flushIf_vram, hrow]
  cases withDot with
  | true =>
      rw [if_pos ⟨rfl, by omega⟩]
      exact showDot_lit _ hlow hhigh
  | false =>
      rw [if_neg (fun h => Bool.false_ne_true h.1)]
      exact drawRow_dot d hn hlow hhigh

theorem showDigit_other (d : HT1621B) {p q n k : Nat} (hp : p < 6) (hn : n ≤ 9) (withDot flushNow : Bool)
    (hq : q < 6) (hne : q ≠ p) (hlow : 1 ≤ k) (hhigh : k ≤ 4) :
    (d.showDigit p n withDot flushNow).vram.rd (cell q k) = d.vram.rd (cell q k) :=
  draw_other d (.digit ⟨p, hp⟩ ⟨n, Nat.lt_succ_of_le hn⟩ withDot flushNow) hq hne hlow hhigh

/-! ## A row of digits -/

/-- The loop of `ShowDate`, from position `i` on. -/
def showDigits (d : HT1621B) (ns : List Nat) (i : Nat) : HT1621B :=
  (ns.zipIdx i).foldl (fun d digit => d.showDigit digit.2 digit.1 (digit.2 = 2 ∨ digit.2 = 4) false) d

theorem showDigits_cons (d : HT1621B) (n : Nat) (ns : List Nat) (i : Nat) :
    d.showDigits (n :: ns) i = (d.showDigit i n (i = 2 ∨ i = 4) false).showDigits ns (i + 1) := rfl

section Digits

variable {ns : List Nat} {i : Nat}

/-- The loop leaves the positions behind it alone. -/
theorem showDigits_behind (hns : ∀ n ∈ ns, n ≤ 9) (hfits : i + ns.length ≤ 6) (d : HT1621B) {q k : Nat}
    (hq : q < i) (hlow : 1 ≤ k) (hhigh : k ≤ 4) :
    (d.showDigits ns i).vram.rd (cell q k) = d.vram.rd (cell q k) := by
  induction ns generalizing i d with
  | nil => rfl
  | cons n ns ih =>
      obtain ⟨hn, hrest⟩ := List.forall_mem_cons.mp hns
      rw [List.length_cons] at hfits
      rw [showDigits_cons, ih hrest (by omega) _ (by omega),
        showDigit_other d (by omega) hn _ _ (by omega) (by omega) hlow hhigh]

/-- The loop shows its digits, and the dots that belong to them. -/
theorem showDigits_spec (hns : ∀ n ∈ ns, n ≤ 9) (hfits : i + ns.length ≤ 6) (d : HT1621B) {q n : Nat}
    (hq : i ≤ q) (hn : ns[q - i]? = some n) : Reads (d.showDigits ns i).vram q (Nat.digitChar n) ∧
      (1 ≤ q → dotLit (d.showDigits ns i).vram q = decide (q = 2 ∨ q = 4)) := by
  induction ns generalizing i d with
  | nil => cases hn
  | cons m ns ih =>
      obtain ⟨hm, hrest⟩ := List.forall_mem_cons.mp hns
      rw [List.length_cons] at hfits
      rw [showDigits_cons]
      by_cases hhere : q = i
      · subst hhere
        rw [Nat.sub_self, List.getElem?_cons_zero, Option.some.injEq] at hn
        subst hn
        -- what is drawn here is behind the rest of the loop
        have hbehind := fun (k : Nat) (hlow : 1 ≤ k) (hhigh : k ≤ 4) =>
          showDigits_behind hrest (i := q + 1) (by omega) (d.showDigit q m (q = 2 ∨ q = 4) false)
            (Nat.lt_succ_self q) hlow hhigh
        constructor
        · intro k hlow hhigh
          rw [hbehind k hlow hhigh]
          exact showDigit_reads d ⟨q, by omega⟩ ⟨m, Nat.lt_succ_of_le hm⟩ _ _ k hlow hhigh
        · intro hlow
          rw [dotLit_eq _ hlow (by omega), hbehind 3 (by omega) (by omega), ← dotLit_eq _ hlow (by omega)]
          exact showDigit_dot d hm hlow (by omega) _ _
      · have hindex : q - i = (q - (i + 1)) + 1 := by omega
        rw [hindex, List.getElem?_cons_succ] at hn
        exact ih hrest (by omega) _ (by omega) hn

/-- The loop lights no icon. -/
theorem showDigits_icons (d : HT1621B) (h : ∀ icon ∈ icons, d.vram.rd icon.addr &&& icon.val = 0) :
    ∀ icon ∈ icons, (d.showDigits ns i).vram.rd icon.addr &&& icon.val = 0 := by
  induction ns generalizing i d with
  | nil => exact h
  | cons n ns ih =>
      rw [showDigits_cons]
      apply ih
      intro icon hicon
      rcases icons_cases hicon with houtside | rfl
      · rw [showDigit_outside d i n _ _ houtside]
        exact h icon hicon
      · -- the `k` is off, and a digit at its position would turn it off
        have hmark := showDigit_mark d i n (i = 2 ∨ i = 4) false
        rw [show d.mark = 0 from h ⟨0x17, 2⟩ hicon, ite_self] at hmark
        exact hmark

end Digits

/-! ## Dates -/

theorem fullClear_rd (d : HT1621B) {a : Nat} (ha : a < 32) : (d.fullClear false).vram.rd a = 0 := by
  unfold fullClear
  rw [flushIf_vram, rewrite_rd (fun _ _ => 0) List.nodup_range ha, if_pos (List.mem_range.mpr ha)]

/-- A reader of the display sees the date `DD.MM.YY`, and nothing else. -/
structure ShowsDate (v : Bytes 32) (day month year : Nat) : Prop where
  digits : ∀ (p : Nat) (n : Nat), (dateDigits day month year)[p]? = some n → Reads v p (Nat.digitChar n)
  dots : ∀ p, 1 ≤ p → p < 6 → dotLit v p = decide (p = 2 ∨ p = 4)
  icons : ∀ icon ∈ icons, v.rd icon.addr &&& icon.val = 0

theorem dateDigits_le {day month year : Nat} (hday : day < 100) (hmonth : month < 100) (hyear : year < 100) :
    ∀ n ∈ dateDigits day month year, n ≤ 9 := by
  intro n hn
  unfold dateDigits at hn
  simp only [List.mem_cons, List.not_mem_nil, or_false] at hn
  omega

theorem icons_lt {icon : Segment} (h : icon ∈ icons) : icon.addr < 32 := by
  rcases icons_cases h with houtside | rfl
  · exact houtside.1
  · decide

theorem showDigits_showsDate (d : HT1621B) {day month year : Nat} (hday : day < 100) (hmonth : month < 100)
    (hyear : year < 100) : ShowsDate ((d.fullClear false).showDigits (dateDigits day month year) 0).vram
      day month year := by
  have hdigits := dateDigits_le hday hmonth hyear
  have hfits : 0 + (dateDigits day month year).length ≤ 6 := by
    unfold dateDigits
    simp
  refine ⟨?_, ?_, ?_⟩
  · intro p n hn
    exact (showDigits_spec hdigits hfits _ (Nat.zero_le p) hn).1
  · intro p hlow hhigh
    have hsome : p - 0 < (dateDigits day month year).length := hhigh
    exact (showDigits_spec hdigits hfits _ (Nat.zero_le p) (List.getElem?_eq_getElem hsome)).2 hlow
  · apply showDigits_icons
    intro icon hicon
    rw [fullClear_rd d (icons_lt hicon)]
    exact UInt8.zero_and

/-- No two digits look alike. -/
theorem digitChar_of_reads {v : Bytes 32} {p m n : Nat} (hm : m ≤ 9) (hn : n ≤ 9)
    (hreads : Reads v p (Nat.digitChar m)) (hreads' : Reads v p (Nat.digitChar n)) : m = n := by
  have hall : ∀ k : Fin 10, Nat.digitChar k ∈ alphabet := by decide
  have hinj : ∀ k l : Fin 10, Nat.digitChar k = Nat.digitChar l → k = l := by decide
  have hchar : Nat.digitChar m = Nat.digitChar n := by
    apply glyph_injective (hall ⟨m, by omega⟩) (hall ⟨n, by omega⟩)
    intro k hlow hhigh
    rw [← hreads k hlow hhigh, ← hreads' k hlow hhigh]
  exact congrArg Fin.val (hinj ⟨m, by omega⟩ ⟨n, by omega⟩ hchar)

/-- **A date can be read back.** -/
theorem showsDate_unique {v : Bytes 32} {day month year day' month' year' : Nat}
    (hbound : day < 100 ∧ month < 100 ∧ year < 100) (hbound' : day' < 100 ∧ month' < 100 ∧ year' < 100)
    (h : ShowsDate v day month year) (h' : ShowsDate v day' month' year') :
    day = day' ∧ month = month' ∧ year = year' := by
  have hdigit : ∀ p m n : Nat, (dateDigits day month year)[p]? = some m →
      (dateDigits day' month' year')[p]? = some n → m = n := by
    intro p m n hm hn
    exact digitChar_of_reads
      (dateDigits_le hbound.1 hbound.2.1 hbound.2.2 m (List.mem_of_getElem? hm))
      (dateDigits_le hbound'.1 hbound'.2.1 hbound'.2.2 n (List.mem_of_getElem? hn))
      (h.digits p m hm) (h'.digits p n hn)
  have hyear₀ := hdigit 0 _ _ rfl rfl
  have hyear₁ := hdigit 1 _ _ rfl rfl
  have hmonth₀ := hdigit 2 _ _ rfl rfl
  have hmonth₁ := hdigit 3 _ _ rfl rfl
  have hday₀ := hdigit 4 _ _ rfl rfl
  have hday₁ := hdigit 5 _ _ rfl rfl
  omega

/-- **What `ShowDate` shows**, whatever was on the display. -/
theorem showDate_image (d : HT1621B) (day month year : UInt8) (flushNow : Bool) :
    (¬ IsDate day month → d.showDate day month year flushNow = d) ∧
    (IsDate day month → ∀ day' month' year' : Nat, day' < 100 → month' < 100 → year' < 100 →
      (ShowsDate (d.showDate day month year flushNow).vram day' month' year' ↔
        day' = day.toNat % 100 ∧ month' = month.toNat % 100 ∧ year' = year.toNat % 100)) := by
  unfold showDate
  constructor
  · intro hno
    exact if_pos (not_not.mp (mt isDate_iff.mpr hno))
  · intro hdate day' month' year' hday' hmonth' hyear'
    have hday := Nat.mod_lt day.toNat (show 100 > 0 by omega)
    have hmonth := Nat.mod_lt month.toNat (show 100 > 0 by omega)
    have hyear := Nat.mod_lt year.toNat (show 100 > 0 by omega)
    have hshows := showDigits_showsDate d hday hmonth hyear
    unfold showDigits at hshows
    rw [if_neg (isDate_iff.mp hdate), flushIf_vram]
    constructor
    · intro hother
      exact showsDate_unique ⟨hday', hmonth', hyear'⟩ ⟨hday, hmonth, hyear⟩ hother hshows
    · rintro ⟨rfl, rfl, rfl⟩
      exact hshows

end HT1621B
end Thermostat
