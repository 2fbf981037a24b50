import Thermostat.Drivers.Correctness.Numerals

/-!
# `Drivers.Correctness.Icons` — text and icons on one display

Eight bits of the image are icons. Seven of them lie in cells that no text function writes. The eighth, the
`k`, shares cell `0x17` with the third cell of position 0: `ClearSegArea` and the dots spare it, but a digit
or letter that is drawn there replaces the whole cell.

- `exec_outside`, `exec_mark`: what one call does to the cells of the icons.
- **`icons_kept_iff`**: a sequence of calls leaves the icons alone exactly when the `k` is off or no call
  draws over it.
-/

namespace Thermostat

namespace HT1621B

/-- The bits of the eight icons. -/
def icons : List Segment := [specials 0, specials 1, specials 2, specials 3] ++ chargeLevels

/-- A call of one of the text functions. -/
inductive TextCall where
  | clearSegArea (flushNow : Bool)
  | showDigit (position digit : UInt8) (withDot flushNow : Bool)
  | showLetter (position : UInt8) (c : Char) (flushNow : Bool)
  | showString (str : List Char) (flushNow : Bool)
  | showInt (value : Int32) (flushNow : Bool)
  | showDot (position : UInt8) (enable flushNow : Bool)

/-- Execute a call; `none` where the source has no defined behaviour. -/
def TextCall.exec (d : HT1621B) : TextCall → Option HT1621B
  | .clearSegArea flushNow                     => some (d.clearSegArea flushNow)
  | .showDigit position digit withDot flushNow =>
      some (d.showDigit position.toNat digit.toNat withDot flushNow)
  | .showLetter position c flushNow            => some (d.showLetter position.toNat c flushNow)
  | .showString str flushNow                   => some (d.showString str flushNow)
  | .showInt value flushNow                    => d.showInt value.toInt flushNow
  | .showDot position enable flushNow          => some (d.showDot position.toNat enable flushNow)

/-- Execute one call after the other. -/
def execAll (d : HT1621B) : List TextCall → Option HT1621B
  | []            => some d
  | call :: calls => (call.exec d).bind (fun d => execAll d calls)

/-- `ShowInt` is only called with numbers that fit into its buffer. -/
def TextCall.Defined : TextCall → Prop
  | .showInt value _ => -999999 ≤ value.toInt ∧ value.toInt ≤ 9999999
  | _                => True

/-- The row writes the third cell; `w` selects the segments that are written. -/
def hasThird (w : Segment → Bool) (segs : List Segment) : Bool :=
  segs.any (fun seg => seg.addr = 3 && w seg)

/-- The call draws into the third cell of position 0: a digit, or a letter that has a segment there. -/
def TextCall.overMark : TextCall → Bool
  | .clearSegArea _              => false
  | .showDigit position digit _ _ => position.toNat = 0 ∧ digit.toNat ≤ 9
  | .showLetter position c _     => position.toNat = 0 ∧ hasThird (fun seg => seg.val ≠ 0) ((letters c).getD [])
  | .showString str _            =>
      ((str.take 6).getLast?).any (fun c => hasThird (fun seg => written c seg) (row c))
  | .showInt value _             => Presentable value.toInt
  | .showDot _ _ _               => false

/-! ## One call -/

/-- The cell lies outside of the segment area. -/
def Outside (a : Nat) : Prop := a < 32 ∧ ¬ (1 ≤ a ∧ a ≤ 24)

/-- The bit of the `k`. -/
def mark (d : HT1621B) : UInt8 := d.vram.rd 0x17 &&& 2

theorem setData_other (d : HT1621B) {a b : Nat} (h : a ≠ b) (x : UInt8) (mode : WriteMode) :
    (d.setData a x mode).vram.rd b = d.vram.rd b := by
  unfold setData
  split_ifs
  · rfl
  · cases mode <;> exact Bytes.rd_wr_ne _ h _

section Rows

variable {segs : List Segment} {p : Nat} (w : Segment → Prop) [DecidablePred w]

/-- A row drawn at a position. -/
def drawRow (d : HT1621B) (segs : List Segment) (p : Nat) : HT1621B :=
  segs.foldl (fun d seg => if w seg then d.setData (seg.addr + (5 - p) * 4) seg.val .replace else d) d

theorem drawRow_outside (d : HT1621B) (hrow : IsRow segs) {a : Nat} (ha : Outside a) :
    (d.drawRow w segs p).vram.rd a = d.vram.rd a := by
  have hnone : segs.find? (fun seg => seg.addr + (5 - p) * 4 = a) = none := by
    rw [List.find?_eq_none]
    intro seg hseg haddr
    obtain ⟨hlow, hhigh, -⟩ := hrow.2 seg hseg
    have heq := of_decide_eq_true haddr
    unfold Outside at ha
    omega
  unfold drawRow
  rw [write_rd w ha.1 hrow.1, hnone]

theorem hasThird_iff (hrow : IsRow segs) {seg : Segment} (hseg : seg ∈ segs) (hthird : seg.addr = 3) :
    hasThird (fun seg => w seg) segs = true ↔ w seg := by
  unfold hasThird
  rw [List.any_eq_true]
  constructor
  · rintro ⟨other, hother, hboth⟩
    rw [Bool.and_eq_true, decide_eq_true_iff, decide_eq_true_iff] at hboth
    have hsame : other = seg :=
      List.inj_on_of_nodup_map hrow.1 hother hseg (hboth.1.trans hthird.symm)
    exact hsame ▸ hboth.2
  · intro hw
    refine ⟨seg, hseg, ?_⟩
    rw [decide_eq_true hthird, Bool.true_and]
    exact decide_eq_true hw

theorem drawRow_mark (d : HT1621B) (hrow : IsRow segs) :
    (d.drawRow w segs p).mark
      = if p = 0 ∧ hasThird (fun seg => w seg) segs = true then 0 else d.mark := by
  unfold mark drawRow
  rw [write_rd w (by omega) hrow.1]
  cases hfind : segs.find? (fun seg => seg.addr + (5 - p) * 4 = 0x17) with
  | none =>
      have hnot : ¬ (p = 0 ∧ hasThird (fun seg => w seg) segs = true) := by
        rintro ⟨hzero, hany⟩
        obtain ⟨seg, hseg, hboth⟩ := List.any_eq_true.mp hany
        have hother := List.find?_eq_none.mp hfind seg hseg
        rw [Bool.and_eq_true, decide_eq_true_iff] at hboth
        rw [decide_eq_true_iff] at hother
        omega
      rw [if_neg hnot]
  | some seg =>
      have haddr : seg.addr + (5 - p) * 4 = 0x17 := by simpa using List.find?_some hfind
      have hmem := List.mem_of_find?_eq_some hfind
      obtain ⟨hlow, hhigh, hval⟩ := hrow.2 seg hmem
      have hthird : seg.addr = 3 := by omega
      by_cases hw : w seg
      · -- the new value has no bit of the icon
        rw [if_pos ⟨by omega, (hasThird_iff w hrow hmem hthird).mpr hw⟩]
        simp only [if_pos hw]
        rw [← hval, hthird, UInt8.and_assoc]
        exact UInt8.and_zero
      · rw [if_neg (fun h => hw ((hasThird_iff w hrow hmem hthird).mp h.2))]
        simp only [if_neg hw]

end Rows

/-- Every digit has an entry for the third cell. -/
theorem digits_hasThird {n : Nat} (hn : n ≤ 9) : hasThird (fun _ => true) (digits n) = true := by
  obtain ⟨seg, hfind⟩ := digits_cells (k := 3) hn (by omega) (by omega)
  have hthird := List.find?_some hfind
  exact List.any_eq_true.mpr ⟨seg, List.mem_of_find?_eq_some hfind, by rw [hthird]; rfl⟩

/-! The functions, one by one. -/

theorem clearSegArea_vram (d : HT1621B) (flushNow : Bool) :
    (d.clearSegArea flushNow).vram = (d.clearSegArea false).vram := by
  unfold clearSegArea
  rw [flushIf_vram, flushIf_vram]

theorem clearSegArea_outside (d : HT1621B) (flushNow : Bool) {a : Nat} (ha : Outside a) :
    (d.clearSegArea flushNow).vram.rd a = d.vram.rd a := by
  rw [clearSegArea_vram, clearSegArea_rd d ha.1, if_neg ha.2]

theorem clearSegArea_mark (d : HT1621B) (flushNow : Bool) : (d.clearSegArea flushNow).mark = d.mark := by
  unfold mark
  rw [clearSegArea_vram, clearSegArea_rd d (by omega), if_pos (by omega)]
  unfold wiped
  rw [if_pos rfl, UInt8.and_assoc]
  rfl

/-- A dot lies in the area, and not in the cell of the `k`. -/
theorem showDot_cases (d : HT1621B) (p : Nat) (enable flushNow : Bool) :
    (d.showDot p enable flushNow).vram = d.vram ∨ ∃ q, 1 ≤ q ∧ q < 6 ∧
      (d.showDot p enable flushNow).vram
        = (d.setData (cell q 3) 2 (if enable then .setBit else .clearBit)).vram := by
  unfold showDot
  by_cases hp : p = 0 ∨ p ≥ 6
  · exact Or.inl (by rw [if_pos hp])
  · refine Or.inr ⟨p, by omega, by omega, ?_⟩
    rw [if_neg hp, flushIf_vram, dots_eq (by omega) (by omega)]

theorem showDot_outside (d : HT1621B) (p : Nat) (enable flushNow : Bool) {a : Nat} (ha : Outside a) :
    (d.showDot p enable flushNow).vram.rd a = d.vram.rd a := by
  rcases showDot_cases d p enable flushNow with h | ⟨q, hlow, hhigh, h⟩
  · rw [h]
  · have hne : cell q 3 ≠ a := by
      unfold cell Outside at *
      omega
    rw [h, setData_other d hne]

theorem showDot_mark (d : HT1621B) (p : Nat) (enable flushNow : Bool) :
    (d.showDot p enable flushNow).mark = d.mark := by
  unfold mark
  rcases showDot_cases d p enable flushNow with h | ⟨q, hlow, hhigh, h⟩
  · rw [h]
  · have hne : cell q 3 ≠ 0x17 := by
      unfold cell
      omega
    rw [h, setData_other d hne]

/-- A digit is a row, and a dot beside it. -/
theorem showDigit_cases (d : HT1621B) (p n : Nat) (withDot flushNow : Bool) :
    (¬ (p < 6 ∧ n ≤ 9) ∧ d.showDigit p n withDot flushNow = d) ∨ (p < 6 ∧ n ≤ 9) ∧ ∃ dotted : Bool,
      (d.showDigit p n withDot flushNow).vram
        = (if dotted then (d.drawRow (fun _ => True) (digits n) p).showDot p true false
          else d.drawRow (fun _ => True) (digits n) p).vram := by
  unfold showDigit
  by_cases hbad : p ≥ 6 ∨ n > 9
  · exact Or.inl ⟨by omega, if_pos hbad⟩
  · refine Or.inr ⟨by omega, withDot ∧ p > 0, ?_⟩
    rw [if_neg hbad, digits_takeWhile, flushIf_vram]
    simp only [drawRow, if_true, decide_eq_true_eq]

theorem showDigit_outside (d : HT1621B) (p n : Nat) (withDot flushNow : Bool) {a : Nat} (ha : Outside a) :
    (d.showDigit p n withDot flushNow).vram.rd a = d.vram.rd a := by
  rcases showDigit_cases d p n withDot flushNow with ⟨-, h⟩ | ⟨-, dotted, h⟩
  · rw [h]
  · rw [h]
    cases dotted with
    | false => exact drawRow_outside _ d (digits_isRow n) ha
    | true =>
        rw [if_pos rfl, showDot_outside _ _ _ _ ha]
        exact drawRow_outside _ d (digits_isRow n) ha

theorem showDigit_mark (d : HT1621B) (p n : Nat) (withDot flushNow : Bool) :
    (d.showDigit p n withDot flushNow).mark = if p = 0 ∧ n ≤ 9 then 0 else d.mark := by
  rcases showDigit_cases d p n withDot flushNow with ⟨hbad, h⟩ | ⟨⟨hp, hn⟩, dotted, h⟩
  · rw [h, if_neg (by omega)]
  · have hrow : (d.drawRow (fun _ => True) (digits n) p).mark = if p = 0 ∧ n ≤ 9 then 0 else d.mark := by
      rw [drawRow_mark _ d (digits_isRow n)]
      simp only [decide_true, digits_hasThird hn, hn]
    have hmark : (d.showDigit p n withDot flushNow).mark = (d.drawRow (fun _ => True) (digits n) p).mark := by
      unfold mark
      rw [h]
      cases dotted with
      | false => rfl
      | true => exact showDot_mark _ p true false
    rw [hmark, hrow]

/-- A letter is a row without its empty cells; other characters draw nothing. -/
theorem showLetter_vram (d : HT1621B) (p : Nat) (c : Char) (flushNow : Bool) :
    (d.showLetter p c flushNow).vram
      = (if p < 6 then d.drawRow (fun seg => seg.val ≠ 0) ((letters c).getD []) p else d).vram := by
  unfold showLetter
  by_cases hp : p ≥ 6
  · rw [if_pos hp, if_neg (by omega)]
  · rw [if_neg hp, if_pos (by omega)]
    cases letters c with
    | none => rfl
    | some segs => exact flushIf_vram _ _

theorem showLetter_outside (d : HT1621B) (p : Nat) (c : Char) (flushNow : Bool) {a : Nat} (ha : Outside a) :
    (d.showLetter p c flushNow).vram.rd a = d.vram.rd a := by
  rw [showLetter_vram]
  split_ifs
  · exact drawRow_outside _ d (letters_isRow c) ha
  · rfl

theorem showLetter_mark (d : HT1621B) (p : Nat) (c : Char) (flushNow : Bool) :
    (d.showLetter p c flushNow).mark
      = if p = 0 ∧ hasThird (fun seg => seg.val ≠ 0) ((letters c).getD []) = true then 0 else d.mark := by
  have hmark := drawRow_mark (p := p) (fun seg => seg.val ≠ 0) d (letters_isRow c)
  unfold mark at *
  rw [showLetter_vram]
  by_cases hp : p < 6
  · rw [if_pos hp, hmark]
  · rw [if_neg hp, if_neg (by omega)]

theorem showChar_row (d : HT1621B) {p : Nat} (hp : p < 6) (c : Char) :
    d.showChar p c = d.drawRow (written c) (row c) p := showChar_eq d hp c

theorem showChars_outside (d : HT1621B) {cs : List Char} {i : Nat} (hfits : i + cs.length ≤ 6) {a : Nat}
    (ha : Outside a) : (d.showChars cs i).vram.rd a = d.vram.rd a := by
  induction cs generalizing i d with
  | nil => rfl
  | cons c cs ih =>
      rw [List.length_cons] at hfits
      rw [showChars_cons, ih _ (by omega), showChar_row d (by omega)]
      exact drawRow_outside _ d (row_isRow c) ha

/-- Only the character at position 0 can draw over the `k`. -/
theorem showChars_mark (d : HT1621B) (cs : List Char) {i : Nat} (hfits : i + cs.length ≤ 6) :
    (d.showChars cs i).mark
      = if i = 0 ∧ cs.head?.any (fun c => hasThird (fun seg => written c seg) (row c)) = true then 0
        else d.mark := by
  induction cs generalizing i d with
  | nil => exact (if_neg (fun h => absurd h.2 Bool.false_ne_true)).symm
  | cons c cs ih =>
      rw [List.length_cons] at hfits
      rw [showChars_cons, ih _ (by omega), if_neg (by omega), showChar_row d (by omega),
        drawRow_mark _ d (row_isRow c)]
      rfl

theorem showString_outside (d : HT1621B) (str : List Char) (flushNow : Bool) {a : Nat} (ha : Outside a) :
    (d.showString str flushNow).vram.rd a = d.vram.rd a := by
  have hfits : 0 + (str.take 6).reverse.length ≤ 6 := by
    rw [List.length_reverse, List.length_take]
    omega
  rw [showString_vram]
  exact (showChars_outside _ hfits ha).trans (clearSegArea_outside d false ha)

theorem showString_mark (d : HT1621B) (str : List Char) (flushNow : Bool) :
    (d.showString str flushNow).mark
      = if (str.take 6).getLast?.any (fun c => hasThird (fun seg => written c seg) (row c)) = true then 0
        else d.mark := by
  have hfits : 0 + (str.take 6).reverse.length ≤ 6 := by
    rw [List.length_reverse, List.length_take]
    omega
  have hchars := showChars_mark (d.clearSegArea false) _ hfits
  rw [List.head?_reverse, clearSegArea_mark] at hchars
  simp only [true_and] at hchars
  unfold mark at *
  rw [showString_vram]
  exact hchars

theorem digit_hasThird {c : Char} (hc : '0' ≤ c ∧ c ≤ '9') :
    hasThird (fun seg => written c seg) (row c) = true := by
  have hrow : row c = digits (c.toNat - '0'.toNat) := if_pos hc
  have hall : (fun seg => decide (written c seg)) = (fun _ => true) := by
    funext seg
    exact decide_eq_true (Or.inl hc)
  rw [hrow, hall]
  exact digits_hasThird (digit_le hc)

theorem drawSign_other (d : HT1621B) (value : Int) {a : Nat} (ha : value < 0 → cell (digitCount value) 2 ≠ a) :
    (d.drawSign value).vram.rd a = d.vram.rd a := by
  unfold drawSign
  split_ifs with hneg
  · exact setData_other d (ha hneg) _ _
  · rfl

/-- The dashes of an overflow lie in the second cells. -/
theorem dashes_other (d : HT1621B) {a : Nat} (ha : ∀ i, i < 6 → i * 4 + 2 ≠ a) :
    ((List.range 6).foldl (fun d i => d.setData (i * 4 + 2) 1 .replace) d).vram.rd a = d.vram.rd a := by
  have hmap := fill_rd ((List.range 6).map (fun i => i * 4 + 2)) (by simp; omega) 1 d a
  have hmem : a ∉ (List.range 6).map (fun i => i * 4 + 2) := by
    rw [List.mem_map]
    rintro ⟨i, hi, heq⟩
    exact ha i (List.mem_range.mp hi) heq
  rw [List.foldl_map, if_neg hmem] at hmap
  exact hmap

theorem showInt_outside {d d' : HT1621B} {value : Int} {flushNow : Bool}
    (hbuf : -999999 ≤ value ∧ value ≤ 9999999) (h : d.showInt value flushNow = some d') {a : Nat}
    (ha : Outside a) : d'.vram.rd a = d.vram.rd a := by
  by_cases hfit : Presentable value
  · obtain ⟨hlength, hsix, -⟩ := digits_length hfit
    have hsign : value < 0 → cell (digitCount value) 2 ≠ a := by
      intro _
      unfold cell Outside at *
      omega
    rw [showInt_presentable d hfit, Option.some.injEq] at h
    rw [← h, flushIf_vram, drawSign_other _ value hsign]
    exact showChars_outside d (by omega) ha
  · rw [showInt_dashes d hfit hbuf, Option.some.injEq] at h
    rw [← h, flushIf_vram]
    apply dashes_other
    intro i hi
    unfold Outside at ha
    omega

theorem showInt_mark {d d' : HT1621B} {value : Int} {flushNow : Bool}
    (hbuf : -999999 ≤ value ∧ value ≤ 9999999) (h : d.showInt value flushNow = some d') :
    d'.mark = if Presentable value then 0 else d.mark := by
  by_cases hfit : Presentable value
  · obtain ⟨hlength, hsix, -⟩ := digits_length hfit
    have hsign : value < 0 → cell (digitCount value) 2 ≠ 0x17 := by
      intro _
      unfold cell
      omega
    -- the units digit goes to position 0
    have hunits : (Nat.toDigits 10 value.natAbs).reverse.head?.any
        (fun c => hasThird (fun seg => written c seg) (row c)) = true := by
      cases hcs : (Nat.toDigits 10 value.natAbs).reverse with
      | nil => exact absurd (List.reverse_eq_nil_iff.mp hcs) Nat.toDigits_ne_nil
      | cons c cs =>
          have hmem : c ∈ Nat.toDigits 10 value.natAbs := by
            rw [← List.mem_reverse, hcs]
            exact List.mem_cons_self
          exact digit_hasThird (isDigit_of_mem hmem)
    have hchars := showChars_mark d (Nat.toDigits 10 value.natAbs).reverse (i := 0) (by omega)
    rw [if_pos ⟨rfl, hunits⟩] at hchars
    rw [showInt_presentable d hfit, Option.some.injEq] at h
    unfold mark at *
    rw [← h, flushIf_vram, drawSign_other _ value hsign, if_pos hfit]
    exact hchars
  · rw [showInt_dashes d hfit hbuf, Option.some.injEq] at h
    unfold mark
    rw [← h, flushIf_vram, if_neg hfit, dashes_other]
    intro i hi
    omega

/-! ## Sequences of calls -/

theorem exec_defined (d : HT1621B) (call : TextCall) : (∃ d', call.exec d = some d') ↔ call.Defined := by
  cases call with
  | clearSegArea flushNow => exact ⟨fun _ => trivial, fun _ => ⟨_, rfl⟩⟩
  | showDigit position digit withDot flushNow => exact ⟨fun _ => trivial, fun _ => ⟨_, rfl⟩⟩
  | showLetter position c flushNow => exact ⟨fun _ => trivial, fun _ => ⟨_, rfl⟩⟩
  | showString str flushNow => exact ⟨fun _ => trivial, fun _ => ⟨_, rfl⟩⟩
  | showDot position enable flushNow => exact ⟨fun _ => trivial, fun _ => ⟨_, rfl⟩⟩
  | showInt value flushNow =>
      constructor
      · rintro ⟨d', h⟩
        have hint : -2147483648 ≤ value.toInt ∧ value.toInt ≤ 2147483647 := by
          have hlo := value.le_toInt
          have hhi := value.toInt_lt
          omega
        apply (itoaSimple_fits_iff hint).mp
        exact showInt_some h
      · intro hbuf
        exact showInt_defined hbuf d flushNow

theorem exec_outside {d d' : HT1621B} {call : TextCall} (h : call.exec d = some d') {a : Nat}
    (ha : Outside a) : d'.vram.rd a = d.vram.rd a := by
  have hdefined := (exec_defined d call).mp ⟨d', h⟩
  cases call with
  | clearSegArea flushNow =>
      obtain rfl := Option.some.inj h
      exact clearSegArea_outside d flushNow ha
  | showDigit position digit withDot flushNow =>
      obtain rfl := Option.some.inj h
      exact showDigit_outside d _ _ withDot flushNow ha
  | showLetter position c flushNow =>
      obtain rfl := Option.some.inj h
      exact showLetter_outside d _ c flushNow ha
  | showString str flushNow =>
      obtain rfl := Option.some.inj h
      exact showString_outside d str flushNow ha
  | showInt value flushNow => exact showInt_outside hdefined h ha
  | showDot position enable flushNow =>
      obtain rfl := Option.some.inj h
      exact showDot_outside d _ enable flushNow ha

theorem exec_mark {d d' : HT1621B} {call : TextCall} (h : call.exec d = some d') :
    d'.mark = if call.overMark = true then 0 else d.mark := by
  have hdefined := (exec_defined d call).mp ⟨d', h⟩
  unfold TextCall.overMark
  cases call with
  | clearSegArea flushNow =>
      obtain rfl := Option.some.inj h
      exact clearSegArea_mark d flushNow
  | showDigit position digit withDot flushNow =>
      obtain rfl := Option.some.inj h
      simpa using showDigit_mark d position.toNat digit.toNat withDot flushNow
  | showLetter position c flushNow =>
      obtain rfl := Option.some.inj h
      simpa using showLetter_mark d position.toNat c flushNow
  | showString str flushNow =>
      obtain rfl := Option.some.inj h
      exact showString_mark d str flushNow
  | showInt value flushNow => simpa using showInt_mark hdefined h
  | showDot position enable flushNow =>
      obtain rfl := Option.some.inj h
      exact showDot_mark d _ enable flushNow

/-- **What a sequence of calls does**: nothing outside of the area, and the `k` goes out as soon as one call
    draws over it. -/
theorem execAll_spec {d d' : HT1621B} {calls : List TextCall} (h : execAll d calls = some d') :
    (∀ a, Outside a → d'.vram.rd a = d.vram.rd a) ∧
    d'.mark = if ∃ call ∈ calls, call.overMark = true then 0 else d.mark := by
  induction calls generalizing d with
  | nil =>
      obtain rfl := Option.some.inj h
      exact ⟨fun _ _ => rfl, by simp⟩
  | cons call calls ih =>
      obtain ⟨e, hcall, hrest⟩ := Option.bind_eq_some_iff.mp h
      obtain ⟨houtside, hmark⟩ := ih hrest
      refine ⟨fun a ha => (houtside a ha).trans (exec_outside hcall ha), ?_⟩
      rw [hmark, exec_mark hcall]
      by_cases hhead : call.overMark = true
      · simp [hhead]
      · simp [hhead]

theorem execAll_defined (d : HT1621B) (calls : List TextCall) :
    (∃ d', execAll d calls = some d') ↔ ∀ call ∈ calls, call.Defined := by
  induction calls generalizing d with
  | nil => simp [execAll]
  | cons call calls ih =>
      rw [List.forall_mem_cons, ← exec_defined d call]
      constructor
      · rintro ⟨d', h⟩
        obtain ⟨e, hcall, hrest⟩ := Option.bind_eq_some_iff.mp h
        exact ⟨⟨e, hcall⟩, (ih e).mp ⟨d', hrest⟩⟩
      · rintro ⟨⟨e, hcall⟩, hrest⟩
        obtain ⟨d', h⟩ := (ih e).mpr hrest
        exact ⟨d', Option.bind_eq_some_iff.mpr ⟨e, hcall, h⟩⟩

/-- The icons of the two images are the same. -/
def SameIcons (v w : Bytes 32) : Prop := ∀ icon ∈ icons, v.rd icon.addr &&& icon.val = w.rd icon.addr &&& icon.val

/-- Seven icons lie outside of the segment area. -/
theorem icons_cases {icon : Segment} (h : icon ∈ icons) : Outside icon.addr ∨ icon = ⟨0x17, 2⟩ := by
  unfold icons specials chargeLevels at h
  simp only [List.mem_append, List.mem_cons, List.not_mem_nil, or_false] at h
  rcases h with (rfl | rfl | rfl | rfl) | rfl | rfl | rfl | rfl <;> simp [Outside]

theorem sameIcons_iff {d d' : HT1621B} (h : ∀ a, Outside a → d'.vram.rd a = d.vram.rd a) :
    SameIcons d'.vram d.vram ↔ d'.mark = d.mark := by
  constructor
  · intro hsame
    exact hsame ⟨0x17, 2⟩ (by simp [icons, specials])
  · intro hmark icon hicon
    rcases icons_cases hicon with houtside | rfl
    · rw [h icon.addr houtside]
    · exact hmark

/-- **When text leaves the icons alone**: no number overruns its buffer, and the `k` is off or nothing is
    drawn over it. -/
theorem icons_kept_iff (d : HT1621B) (calls : List TextCall) :
    (∃ d', execAll d calls = some d' ∧ SameIcons d'.vram d.vram) ↔
      (∀ call ∈ calls, call.Defined) ∧
      (d.vram.rd 0x17 &&& 2 = 0 ∨ ∀ call ∈ calls, call.overMark = false) := by
  rw [← execAll_defined d calls]
  have hkept : ∀ {d'}, execAll d calls = some d' →
      (SameIcons d'.vram d.vram ↔ d.mark = 0 ∨ ∀ call ∈ calls, call.overMark = false) := by
    intro d' h
    obtain ⟨houtside, hmark⟩ := execAll_spec h
    rw [sameIcons_iff houtside, hmark]
    by_cases hover : ∃ call ∈ calls, call.overMark = true
    · obtain ⟨call, hcall, htrue⟩ := hover
      rw [if_pos ⟨call, hcall, htrue⟩]
      constructor
      · intro hzero
        exact Or.inl hzero.symm
      · rintro (hzero | hnone)
        · exact hzero.symm
        · exact absurd htrue (by rw [hnone call hcall]; exact Bool.false_ne_true)
    · rw [if_neg hover]
      refine ⟨fun _ => Or.inr ?_, fun _ => rfl⟩
      intro call hcall
      exact Bool.eq_false_iff.mpr (fun htrue => hover ⟨call, hcall, htrue⟩)
  constructor
  · rintro ⟨d', h, hsame⟩
    exact ⟨⟨d', h⟩, (hkept h).mp hsame⟩
  · rintro ⟨⟨d', h⟩, hcond⟩
    exact ⟨d', h, (hkept h).mpr hcond⟩

/-- A digit at position 0 turns the `k` off. -/
theorem icons_not_kept : ¬ ∃ d', execAll ((⟨Bytes.zeros 32, []⟩ : HT1621B).showSpecial 2 true false)
      [.showDigit 0 7 false false] = some d' ∧
    SameIcons d'.vram ((⟨Bytes.zeros 32, []⟩ : HT1621B).showSpecial 2 true false).vram := by
  rintro ⟨d', h, hsame⟩
  obtain ⟨houtside, hmark⟩ := execAll_spec h
  rw [sameIcons_iff houtside, hmark, if_pos ⟨_, List.mem_cons_self, rfl⟩] at hsame
  exact absurd hsame (by decide)

/-! ## Switching icons -/

theorem or_and_self (x y : UInt8) : (x ||| y) &&& y = y := by
  apply UInt8.toBitVec_inj.mp
  ext i hi
  simp only [UInt8.toBitVec_and, UInt8.toBitVec_or, BitVec.getElem_and, BitVec.getElem_or]
  cases y.toBitVec[i] <;> simp

theorem not_and_self (x y : UInt8) : (x &&& ~~~y) &&& y = 0 := by
  apply UInt8.toBitVec_inj.mp
  ext i hi
  simp

theorem not_and_of_disjoint {x y : UInt8} (h : x &&& y = 0) : ~~~x &&& y = y := by
  apply UInt8.toBitVec_inj.mp
  ext i hi
  have hbit : (x.toBitVec &&& y.toBitVec)[i] = false := by
    rw [← UInt8.toBitVec_and, h]
    simp
  simp only [UInt8.toBitVec_and, UInt8.toBitVec_not, BitVec.getElem_and, BitVec.getElem_not] at hbit ⊢
  cases hy : y.toBitVec[i] <;> simp_all

/-- The two elements share no bit of a cell. -/
def Apart (s t : Segment) : Prop := s.addr ≠ t.addr ∨ s.val &&& t.val = 0

instance (s t : Segment) : Decidable (Apart s t) := inferInstanceAs (Decidable (_ ∨ _))

/-- Turn an element on or off. -/
def switch (d : HT1621B) (seg : Segment) (on : Bool) : HT1621B :=
  d.setData seg.addr seg.val (if on then .setBit else .clearBit)

theorem switch_same (d : HT1621B) {seg : Segment} (h : seg.addr < 32) (on : Bool) :
    (d.switch seg on).vram.rd seg.addr &&& seg.val = if on then seg.val else 0 := by
  unfold switch setData
  rw [if_neg (by omega)]
  cases on with
  | true =>
      show (d.vram.wr seg.addr (d.vram.rd seg.addr ||| seg.val)).rd seg.addr &&& seg.val = seg.val
      rw [Bytes.rd_wr_same _ h, or_and_self]
  | false =>
      show (d.vram.wr seg.addr (d.vram.rd seg.addr &&& ~~~seg.val)).rd seg.addr &&& seg.val = 0
      rw [Bytes.rd_wr_same _ h, not_and_self]

theorem switch_apart (d : HT1621B) {s t : Segment} (h : Apart s t) (on : Bool) :
    (d.switch s on).vram.rd t.addr &&& t.val = d.vram.rd t.addr &&& t.val := by
  by_cases haddr : s.addr = t.addr
  · have hbits : s.val &&& t.val = 0 := h.resolve_left (not_not.mpr haddr)
    unfold switch setData
    by_cases hbound : s.addr ≥ 32
    · rw [if_pos hbound]
    · rw [if_neg hbound]
      cases on with
      | true =>
          show (d.vram.wr s.addr (d.vram.rd s.addr ||| s.val)).rd t.addr &&& t.val = _
          rw [← haddr, Bytes.rd_wr_same _ (by omega), or_and_distrib, hbits]
          exact UInt8.or_zero
      | false =>
          show (d.vram.wr s.addr (d.vram.rd s.addr &&& ~~~s.val)).rd t.addr &&& t.val = _
          rw [← haddr, Bytes.rd_wr_same _ (by omega), UInt8.and_assoc, not_and_of_disjoint hbits]
  · rw [show (d.switch s on).vram.rd t.addr = d.vram.rd t.addr from setData_other d haddr _ _]

theorem switches_apart {segs : List (Segment × Nat)} (on : Nat → Bool) {t : Segment}
    (h : ∀ s ∈ segs, Apart s.1 t) (d : HT1621B) :
    (segs.foldl (fun d s => d.switch s.1 (on s.2)) d).vram.rd t.addr &&& t.val = d.vram.rd t.addr &&& t.val := by
  induction segs generalizing d with
  | nil => rfl
  | cons s segs ih =>
      rw [List.foldl_cons, ih (fun s' hs' => h s' (List.mem_cons_of_mem s hs')),
        switch_apart d (h s List.mem_cons_self)]

/-- Elements that share no bits can be switched one after the other. -/
theorem switches_rd {segs : List (Segment × Nat)} (on : Nat → Bool)
    (hapart : segs.Pairwise (fun s t => Apart t.1 s.1)) (hbound : ∀ s ∈ segs, s.1.addr < 32) (d : HT1621B)
    {t : Segment × Nat} (ht : t ∈ segs) :
    (segs.foldl (fun d s => d.switch s.1 (on s.2)) d).vram.rd t.1.addr &&& t.1.val
      = if on t.2 then t.1.val else 0 := by
  induction segs generalizing d with
  | nil => cases ht
  | cons s segs ih =>
      rw [List.pairwise_cons] at hapart
      rw [List.foldl_cons]
      rcases List.mem_cons.mp ht with rfl | hin
      · rw [switches_apart on hapart.1, switch_same d (hbound t List.mem_cons_self)]
      · exact ih hapart.2 (fun s' hs' => hbound s' (List.mem_cons_of_mem s hs')) _ hin

theorem showSpecial_rd (d : HT1621B) {type : Nat} (htype : type ≤ 3) (enable flushNow : Bool) :
    (d.showSpecial type enable flushNow).vram.rd (specials type).addr &&& (specials type).val
      = if enable then (specials type).val else 0 := by
  have hbound : (specials type).addr < 32 := by
    unfold specials
    split <;> decide
  unfold showSpecial
  rw [if_neg (by omega), flushIf_vram]
  exact switch_same d hbound enable

/-- The battery shows the levels up to the given one. -/
theorem showChargeLevel_rd (d : HT1621B) (level : Nat) (flushNow : Bool) {i : Nat} {icon : Segment}
    (h : (icon, i) ∈ chargeLevels.zipIdx) :
    (d.showChargeLevel level flushNow).vram.rd icon.addr &&& icon.val = if i ≤ level then icon.val else 0 := by
  have hapart : chargeLevels.zipIdx.Pairwise (fun s t => Apart t.1 s.1) := by decide
  have hbound : ∀ s ∈ chargeLevels.zipIdx, s.1.addr < 32 ∧ s.2 ≤ 3 := by decide
  have hlevel : i ≤ (if level > 3 then 3 else level) ↔ i ≤ level := by
    have hi := (hbound _ h).2
    simp only at hi
    split_ifs <;> omega
  have hswitch := switches_rd (fun i => decide (i ≤ if level > 3 then 3 else level)) hapart
    (fun s hs => (hbound s hs).1) d h
  simp only [decide_eq_true_eq, hlevel] at hswitch
  unfold showChargeLevel
  rw [flushIf_vram]
  simpa [switch] using hswitch

/-- **An icon that has been set stays** while text is drawn that does not go over the `k`. -/
theorem execAll_sameIcons {d d' : HT1621B} {calls : List TextCall} (h : execAll d calls = some d')
    (hover : ∀ call ∈ calls, call.overMark = false) : SameIcons d'.vram d.vram := by
  obtain ⟨houtside, hmark⟩ := execAll_spec h
  have hnone : ¬ ∃ call ∈ calls, call.overMark = true := by
    rintro ⟨call, hcall, htrue⟩
    rw [hover call hcall] at htrue
    exact Bool.false_ne_true htrue
  rw [sameIcons_iff houtside, hmark, if_neg hnone]

theorem showSpecial_stays {d d' : HT1621B} {type : Nat} (htype : type ≤ 3) {enable flushNow : Bool}
    {calls : List TextCall} (h : execAll (d.showSpecial type enable flushNow) calls = some d')
    (hover : ∀ call ∈ calls, call.overMark = false) :
    d'.vram.rd (specials type).addr &&& (specials type).val = if enable then (specials type).val else 0 := by
  have hmem : specials type ∈ icons := by
    have hcases : type = 0 ∨ type = 1 ∨ type = 2 ∨ type = 3 := by omega
    rcases hcases with rfl | rfl | rfl | rfl <;> simp [icons]
  rw [execAll_sameIcons h hover _ hmem]
  exact showSpecial_rd d htype enable flushNow

theorem showChargeLevel_stays {d d' : HT1621B} {level : Nat} {flushNow : Bool} {calls : List TextCall}
    (h : execAll (d.showChargeLevel level flushNow) calls = some d')
    (hover : ∀ call ∈ calls, call.overMark = false) {i : Nat} {icon : Segment}
    (hicon : (icon, i) ∈ chargeLevels.zipIdx) :
    d'.vram.rd icon.addr &&& icon.val = if i ≤ level then icon.val else 0 := by
  have hmem : icon ∈ icons := List.mem_append_right _ (List.fst_mem_of_mem_zipIdx hicon)
  rw [execAll_sameIcons h hover _ hmem]
  exact showChargeLevel_rd d level flushNow hicon

end HT1621B
end Thermostat
