import Mathlib
import Thermostat.Drivers.Correctness.Numerals
import Thermostat.Drivers.UsartDriver

/-!
# `Drivers.Correctness.SerialNumber` — a number on the serial port

`write_int` collects the characters of a number, the last one first, in a string that has room for seven, and
turns them round in a second one. So it writes the last seven characters of the numeral
(`writeInt_items`).

**`writeInt_faithful_iff`**: the numeral goes out, and reads back as the number, exactly when it has at most
seven characters.
-/

namespace Thermostat

namespace UsartDriver

open HT1621B (numeral numeral_reverse mem_numeral numeral_length_le_seven)

variable {txBuffSize rxBuffSize : Nat}

/-- The bytes of a text. -/
def bytesOf (text : List Char) : List UInt8 := text.map (fun c => UInt8.ofNat c.toNat)

/-- The text that bytes stand for. -/
def textOf (bytes : List UInt8) : String := String.ofList (bytes.map (fun byte => Char.ofNat byte.toNat))

/-- The numeral of the number goes into the transmit buffer, and reads back as the number. -/
def WritesNumber (u : UsartDriver txBuffSize rxBuffSize) (value : Int) : Prop :=
  ∃ u' bytes, u.writeInt value = some u' ∧ u'.txBuf.items = u.txBuf.items ++ bytes ∧
    bytes = bytesOf (numeral value) ∧ (textOf bytes).toInt? = some value

/-! ## The numeral, read back -/

theorem numeral_eq_repr (value : Int) : numeral value = value.repr.toList := by
  unfold numeral
  rw [Int.repr_eq_if]
  by_cases hneg : value < 0
  · have habs : (-value).toNat = value.natAbs := by omega
    rw [if_pos hneg, if_neg (by omega), habs, String.toList_append, Nat.toList_repr]
    rfl
  · have habs : value.toNat = value.natAbs := by omega
    rw [if_neg hneg, if_pos (by omega), habs, Nat.toList_repr]

/-- The numeral is made of characters that fit into a byte. -/
theorem numeral_char_lt {value : Int} {c : Char} (hc : c ∈ numeral value) : c.toNat < 256 := by
  rcases mem_numeral hc with rfl | hdigit
  · decide
  · have hupper : c.toNat ≤ '9'.toNat := hdigit.2
    exact Nat.lt_of_le_of_lt hupper (by decide)

theorem textOf_bytesOf {text : List Char} (h : ∀ c ∈ text, c.toNat < 256) :
    textOf (bytesOf text) = String.ofList text := by
  have hback : text.map (fun c => Char.ofNat (UInt8.ofNat c.toNat).toNat) = text.map id := by
    apply List.map_congr_left
    intro c hc
    rw [UInt8.toNat_ofNat', Nat.mod_eq_of_lt (h c hc), Char.ofNat_toNat]
    rfl
  rw [List.map_id] at hback
  unfold textOf bytesOf
  rw [List.map_map]
  exact congrArg String.ofList hback

theorem numeral_reads (value : Int) : (textOf (bytesOf (numeral value))).toInt? = some value := by
  rw [textOf_bytesOf (fun c hc => numeral_char_lt hc), numeral_eq_repr, String.ofList_toList]
  exact Int.toInt?_repr value

/-! ## The two strings -/

theorem pushDigits_eq (tmp : EtlString 7) {n : Nat} (hn : 0 < n) :
    pushDigits tmp n = (bytesOf (Nat.toDigits 10 n).reverse).foldl EtlString.pushBack tmp := by
  induction n using Nat.strong_induction_on generalizing tmp with
  | _ n ih =>
    have hdigit : '0'.toNat + n % 10 = (Nat.digitChar (n % 10)).toNat :=
      (Nat.toNat_digitChar_of_lt_ten (Nat.mod_lt n (by omega))).symm
    rw [pushDigits, if_neg (by omega), hdigit, Nat.toDigits_eq_if (by omega)]
    by_cases hsmall : n < 10
    · have hrest : n / 10 = 0 := by omega
      rw [if_pos hsmall, hrest, Nat.mod_eq_of_lt hsmall, pushDigits, if_pos rfl]
      rfl
    · rw [if_neg hsmall, List.reverse_append, ih (n / 10) (by omega) _ (by omega)]
      rfl

/-- The characters are collected backwards, and at most seven of them. -/
theorem intTmp_items {value : Int} (hvalue : value ≠ 0) :
    (intTmp value).items = (bytesOf (numeral value).reverse).take 7 := by
  have htmp : intTmp value = (bytesOf (numeral value).reverse).foldl EtlString.pushBack .empty := by
    unfold intTmp
    rw [pushDigits_eq _ (by omega), numeral_reverse]
    unfold bytesOf
    rw [List.map_append, List.foldl_append]
    split_ifs <;> rfl
  rw [htmp]
  exact EtlString.foldl_pushBack_items .empty _

theorem intBuf_items (value : Int) :
    (intBuf value).items = ((bytesOf (numeral value).reverse).take 7).reverse := by
  by_cases hzero : value = 0
  · subst hzero
    rfl
  · have hlength : ((bytesOf (numeral value).reverse).take 7).reverse.length ≤ 7 := by
      rw [List.length_reverse]
      exact List.length_take_le _ _
    unfold intBuf
    rw [if_neg hzero, EtlString.foldl_pushBack_items, intTmp_items hzero]
    exact List.take_of_length_le hlength

/-! ## The transmit buffer -/

/-- As much of the string goes in as there is room for. -/
theorem writeEtlStr_items (u : UsartDriver txBuffSize rxBuffSize) (s : List UInt8) :
    (u.writeEtlStr s).1.txBuf.items = (u.txBuf.items ++ s).take txBuffSize := by
  induction s generalizing u with
  | nil =>
      rw [List.append_nil]
      exact (List.take_of_length_le u.txBuf.bound).symm
  | cons c s ih =>
      unfold writeEtlStr txEnqueueByte
      by_cases hfull : u.txBuf.full = true
      · have hlength : u.txBuf.items.length = txBuffSize := Fifo.full_iff.mp hfull
        rw [if_pos hfull, List.take_left' hlength]
        rfl
      · rw [if_neg hfull]
        simp only [if_true]
        rw [ih, Fifo.push_items (Fifo.not_full_iff.mp (by simpa using hfull)), List.append_assoc]
        rfl

theorem bytesOf_length (text : List Char) : (bytesOf text).length = text.length := List.length_map _

/-- **What `write_int` writes**: the last seven characters of the numeral. -/
theorem writeInt_items (u : UsartDriver txBuffSize rxBuffSize) {value : Int} (hlo : -2147483648 < value)
    (hroom : u.txBuf.items.length + (numeral value).length ≤ txBuffSize) :
    ∃ u', u.writeInt value = some u' ∧
      u'.txBuf.items = u.txBuf.items ++ ((bytesOf (numeral value).reverse).take 7).reverse := by
  have hlength : ((bytesOf (numeral value).reverse).take 7).reverse.length ≤ (numeral value).length := by
    rw [List.length_reverse, List.length_take, bytesOf_length, List.length_reverse]
    omega
  unfold writeInt
  rw [if_neg (by omega)]
  refine ⟨_, rfl, ?_⟩
  rw [writeEtlStr_items, intBuf_items]
  apply List.take_of_length_le
  rw [List.length_append]
  omega

/-- A longer numeral loses its front. -/
theorem not_writesNumber {u : UsartDriver txBuffSize rxBuffSize} {value : Int} (hlo : -2147483648 < value)
    (hroom : u.txBuf.items.length + (numeral value).length ≤ txBuffSize)
    (hlong : 7 < (numeral value).length) : ¬ u.WritesNumber value := by
  rintro ⟨u', bytes, hwrite, hitems, hbytes, -⟩
  obtain ⟨u'', hsame, hseven⟩ := u.writeInt_items hlo hroom
  rw [hwrite, Option.some.injEq] at hsame
  rw [← hsame, hitems, List.append_cancel_left_eq] at hseven
  have hlength := congrArg List.length hseven
  rw [hbytes, List.length_reverse, List.length_take, bytesOf_length, bytesOf_length,
    List.length_reverse] at hlength
  omega

/-- **When `write_int` is faithful**: the numeral has at most seven characters. -/
theorem writeInt_faithful_iff (u : UsartDriver txBuffSize rxBuffSize) (value : Int32)
    (hroom : u.txBuf.items.length + (numeral value.toInt).length ≤ txBuffSize) :
    u.WritesNumber value.toInt ↔ -999999 ≤ value.toInt ∧ value.toInt ≤ 9999999 := by
  rw [← numeral_length_le_seven]
  constructor
  · intro h
    by_contra hlong
    by_cases hmin : value.toInt = -2147483648
    · obtain ⟨u', bytes, hwrite, -⟩ := h
      rw [hmin] at hwrite
      cases hwrite
    · have hlo : -2147483648 < value.toInt := by
        have := value.le_toInt
        omega
      exact not_writesNumber hlo hroom (by omega) h
  · intro hlength
    have hrange := (numeral_length_le_seven value.toInt).mp hlength
    obtain ⟨u', hwrite, hitems⟩ := u.writeInt_items (by omega) hroom
    have hwhole : ((bytesOf (numeral value.toInt).reverse).take 7).reverse
        = bytesOf (numeral value.toInt) := by
      have hfits : (bytesOf (numeral value.toInt).reverse).length ≤ 7 := by
        rw [bytesOf_length, List.length_reverse]
        exact hlength
      rw [List.take_of_length_le hfits]
      unfold bytesOf
      rw [List.map_reverse, List.reverse_reverse]
    rw [hwhole] at hitems
    exact ⟨u', bytesOf (numeral value.toInt), hwrite, hitems, rfl, numeral_reads value.toInt⟩

theorem writeInt_faithful_iff_minus_forty_two :
    (init : UsartDriver 64 64).txBuf.items.length + (numeral (-42 : Int32).toInt).length ≤ 64 ∧
    ((init : UsartDriver 64 64).WritesNumber (-42 : Int32).toInt ↔
      -999999 ≤ (-42 : Int32).toInt ∧ (-42 : Int32).toInt ≤ 9999999) :=
  ⟨by decide, writeInt_faithful_iff init (-42) (by decide)⟩

/-- 12345678 goes out as 2345678, and -1000000 without its sign. -/
theorem writeInt_cut :
    (∃ u', (init : UsartDriver 64 64).writeInt 12345678 = some u' ∧
      u'.txBuf.items = bytesOf ['2', '3', '4', '5', '6', '7', '8']) ∧
    ¬ (init : UsartDriver 64 64).WritesNumber 12345678 ∧
    (∃ u', (init : UsartDriver 64 64).writeInt (-1000000) = some u' ∧
      u'.txBuf.items = bytesOf ['1', '0', '0', '0', '0', '0', '0']) ∧
    ¬ (init : UsartDriver 64 64).WritesNumber (-1000000) := by
  have hlo : (-2147483648 : Int) < 12345678 := by omega
  have hroom : (init : UsartDriver 64 64).txBuf.items.length + (numeral 12345678).length ≤ 64 := by decide
  have hlong : 7 < (numeral 12345678).length := by decide
  have hlo' : (-2147483648 : Int) < -1000000 := by omega
  have hroom' : (init : UsartDriver 64 64).txBuf.items.length + (numeral (-1000000)).length ≤ 64 := by decide
  have hlong' : 7 < (numeral (-1000000)).length := by decide
  exact ⟨writeInt_items init hlo hroom, not_writesNumber hlo hroom hlong,
    writeInt_items init hlo' hroom', not_writesNumber hlo' hroom' hlong'⟩

end UsartDriver
end Thermostat
