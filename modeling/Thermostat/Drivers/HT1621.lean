import Thermostat.Lib.Bytes

/-!
# `Drivers.HT1621` — the LCD driver

`HT1621B` (`ht1621.cpp`): a 32-byte image `vram` that the drawing functions edit, and the three pins over
which commands and, by `flush`, the image are bit-banged. `line` is a history variable: every level the
driver has written to a pin, oldest first. No driver function reads it.
-/

namespace Thermostat

/-- One lit element: an image cell and the bits to put there. -/
structure Segment where
  addr : Nat
  val : UInt8
deriving DecidableEq, Repr

inductive WriteMode where
  | replace
  | setBit
  | clearBit
deriving DecidableEq, Repr

/-- The chip-select, write-strobe and data pins. -/
inductive Pin where
  | cs
  | write
  | data
deriving DecidableEq, Repr

structure HT1621B where
  vram : Bytes 32
  line : List (Pin × Bool)
deriving DecidableEq, Repr

namespace HT1621B

/-! ## Glyph tables -/

/-- `m_digits`. -/
def digits : Nat → List Segment
  | 0 => [⟨1, 3⟩, ⟨2, 2⟩, ⟨3, 1⟩, ⟨4, 3⟩]
  | 1 => [⟨1, 0⟩, ⟨2, 0⟩, ⟨3, 1⟩, ⟨4, 2⟩]
  | 2 => [⟨1, 2⟩, ⟨2, 3⟩, ⟨3, 0⟩, ⟨4, 3⟩]
  | 3 => [⟨1, 0⟩, ⟨2, 3⟩, ⟨3, 1⟩, ⟨4, 3⟩]
  | 4 => [⟨1, 1⟩, ⟨2, 1⟩, ⟨3, 1⟩, ⟨4, 2⟩]
  | 5 => [⟨1, 1⟩, ⟨2, 3⟩, ⟨3, 1⟩, ⟨4, 1⟩]
  | 6 => [⟨1, 3⟩, ⟨2, 3⟩, ⟨3, 1⟩, ⟨4, 1⟩]
  | 7 => [⟨1, 0⟩, ⟨2, 0⟩, ⟨3, 1⟩, ⟨4, 3⟩]
  | 8 => [⟨1, 3⟩, ⟨2, 3⟩, ⟨3, 1⟩, ⟨4, 3⟩]
  | 9 => [⟨1, 1⟩, ⟨2, 3⟩, ⟨3, 1⟩, ⟨4, 3⟩]
  | _ => []

/-- The row of `m_letters` that `ShowLetter` selects for a character. -/
def letters : Char → Option (List Segment)
  | 'A' => some [⟨1, 3⟩, ⟨2, 1⟩, ⟨3, 1⟩, ⟨4, 3⟩]
  | 'b' => some [⟨1, 3⟩, ⟨2, 3⟩, ⟨3, 1⟩, ⟨4, 0⟩]
  | 'C' => some [⟨1, 3⟩, ⟨2, 2⟩, ⟨3, 0⟩, ⟨4, 1⟩]
  | 'd' => some [⟨1, 2⟩, ⟨2, 3⟩, ⟨3, 1⟩, ⟨4, 2⟩]
  | 'E' => some [⟨1, 3⟩, ⟨2, 3⟩, ⟨3, 0⟩, ⟨4, 1⟩]
  | 'F' => some [⟨1, 3⟩, ⟨2, 1⟩, ⟨3, 0⟩, ⟨4, 1⟩]
  | 'G' => some [⟨1, 3⟩, ⟨2, 2⟩, ⟨3, 1⟩, ⟨4, 1⟩]
  | 'h' => some [⟨1, 3⟩, ⟨2, 1⟩, ⟨3, 1⟩, ⟨4, 0⟩]
  | 'I' => some [⟨1, 3⟩, ⟨2, 0⟩, ⟨3, 0⟩, ⟨4, 0⟩]
  | 'J' => some [⟨1, 0⟩, ⟨2, 2⟩, ⟨3, 1⟩, ⟨4, 2⟩]
  | 'L' => some [⟨1, 3⟩, ⟨2, 2⟩, ⟨3, 0⟩, ⟨4, 0⟩]
  | 'n' => some [⟨1, 2⟩, ⟨2, 1⟩, ⟨3, 1⟩, ⟨4, 0⟩]
  | 'o' => some [⟨1, 2⟩, ⟨2, 3⟩, ⟨3, 1⟩, ⟨4, 0⟩]
  | 'P' => some [⟨1, 3⟩, ⟨2, 1⟩, ⟨3, 0⟩, ⟨4, 3⟩]
  | 'r' => some [⟨1, 2⟩, ⟨2, 1⟩, ⟨3, 0⟩, ⟨4, 0⟩]
  | 't' => some [⟨1, 3⟩, ⟨2, 3⟩, ⟨3, 0⟩, ⟨4, 0⟩]
  | 'U' => some [⟨1, 3⟩, ⟨2, 2⟩, ⟨3, 1⟩, ⟨4, 2⟩]
  | 'X' => some [⟨1, 3⟩, ⟨2, 1⟩, ⟨3, 1⟩, ⟨4, 2⟩]
  | '-' => some [⟨1, 0⟩, ⟨2, 1⟩, ⟨3, 0⟩, ⟨4, 0⟩]
  | '_' => some [⟨1, 0⟩, ⟨2, 2⟩, ⟨3, 0⟩, ⟨4, 0⟩]
  | _ => none

/-- `m_dots`: the decimal point of position `p` is entry `5 - p`. -/
def dots : Nat → Segment
  | 0 => ⟨0x03, 0x02⟩
  | 1 => ⟨0x07, 0x02⟩
  | 2 => ⟨0x0B, 0x02⟩
  | 3 => ⟨0x0F, 0x02⟩
  | _ => ⟨0x13, 0x02⟩

/-- `m_chargeLevels`, in the order in which the battery fills. -/
def chargeLevels : List Segment := [⟨0x1A, 1⟩, ⟨0x1B, 2⟩, ⟨0x1B, 1⟩, ⟨0x1A, 2⟩]

/-- `m_specials`: the marks `->0<-`, `NET`, `k` and `g`. -/
def specials : Nat → Segment
  | 0 => ⟨0x00, 0x01⟩
  | 1 => ⟨0x00, 0x02⟩
  | 2 => ⟨0x17, 0x02⟩
  | _ => ⟨0x19, 0x02⟩

/-! ## The serial line -/

def drive (d : HT1621B) (p : Pin) (level : Bool) : HT1621B :=
  { d with line := d.line ++ [(p, level)] }

/-- Put a bit on the data pin and pulse the write strobe low. -/
def writeBit (d : HT1621B) (bit : Bool) : HT1621B :=
  ((d.drive .data bit).drive .write false).drive .write true

/-- The address loop of `WriteData`: `k` bits, most significant first. -/
def writeAddress (d : HT1621B) : Nat → UInt8 → HT1621B
  | 0,     _       => d
  | k + 1, address => writeAddress (d.writeBit (address &&& 0x80 == 0x80)) k (address <<< 1)

/-- The data loop of `WriteData`: `k` bits, least significant first. -/
def writeNibble (d : HT1621B) : Nat → UInt8 → HT1621B
  | 0,     _    => d
  | k + 1, data => writeNibble (d.writeBit (data &&& 0x01 != 0)) k (data >>> 1)

def writeData (d : HT1621B) (address data : UInt8) : HT1621B :=
  if address ≥ 32 then d
  else
    let d := (d.drive .cs true).drive .cs false
    let d := ((d.writeBit true).writeBit false).writeBit true
    let d := d.writeAddress 6 (address <<< 2)
    let d := d.writeNibble 4 data
    d.drive .cs true

/-- Send the whole image. -/
def flush (d : HT1621B) : HT1621B :=
  (List.range 32).foldl (fun d i => d.writeData (UInt8.ofNat i) (d.vram.rd i)) d

/-! ## Commands -/

/-- The control commands of the display controller. -/
inductive Commands where
  | sysDis
  | sysEn
  | lcdOff
  | lcdOn
  | rc256K
  | bias12
  | bias13
deriving DecidableEq, Repr

def Commands.code : Commands → UInt8
  | .sysDis => 0
  | .sysEn  => 1
  | .lcdOff => 2
  | .lcdOn  => 3
  | .rc256K => 0x18
  | .bias12 => 0x28
  | .bias13 => 0x29

/-- The loop over the command's bits is the one of `WriteData`'s address. -/
def writeCommand (d : HT1621B) (cmd : Commands) : HT1621B :=
  let d := (d.drive .cs true).drive .cs false
  let d := ((d.writeBit true).writeBit false).writeBit false
  let d := d.writeAddress 8 cmd.code
  (d.writeBit false).drive .cs true

/-! ## Drawing -/

def setData (d : HT1621B) (address : Nat) (data : UInt8) (mode : WriteMode) : HT1621B :=
  if address ≥ 32 then d
  else match mode with
    | .replace  => { d with vram := d.vram.wr address data }
    | .setBit   => { d with vram := d.vram.wr address (d.vram.rd address ||| data) }
    | .clearBit => { d with vram := d.vram.wr address (d.vram.rd address &&& ~~~data) }

def flushIf (d : HT1621B) (flushNow : Bool) : HT1621B := if flushNow then d.flush else d

/-- Blank the whole image. -/
def fullClear (d : HT1621B) (flushNow : Bool) : HT1621B :=
  let d := (List.range 32).foldl (fun d i => { d with vram := d.vram.wr i 0 }) d
  d.flushIf flushNow

/-- Light every bit of the image. -/
def showFull (d : HT1621B) (flushNow : Bool) : HT1621B :=
  let d := (List.range 32).foldl (fun d i => { d with vram := d.vram.wr i 0xFF }) d
  d.flushIf flushNow

/-- `Init`. The delays between the commands leave the pins alone. -/
def init (d : HT1621B) : HT1621B :=
  let d := d.writeCommand .rc256K
  let d := d.writeCommand .bias12
  let d := d.writeCommand .sysEn
  let d := d.writeCommand .lcdOn
  d.fullClear true

/-- The constructor; the pins have become outputs before. -/
def new : HT1621B := init ⟨Bytes.zeros 32, []⟩

/-- Blank the 24 segment cells; cell `0x17` only loses its segment bit. -/
def clearSegArea (d : HT1621B) (flushNow : Bool) : HT1621B :=
  let d := (List.range' 1 24).foldl (fun d i =>
    if i = 0x17 then { d with vram := d.vram.wr i (d.vram.rd i &&& ~~~0b01) }
    else { d with vram := d.vram.wr i 0 }) d
  d.flushIf flushNow

def showDot (d : HT1621B) (position : Nat) (enable flushNow : Bool) : HT1621B :=
  if position = 0 ∨ position ≥ 6 then d
  else
    let dot := dots (5 - position)
    (d.setData dot.addr dot.val (if enable then .setBit else .clearBit)).flushIf flushNow

def showDigit (d : HT1621B) (position digit : Nat) (withDot flushNow : Bool) : HT1621B :=
  if position ≥ 6 ∨ digit > 9 then d
  else
    let base := (5 - position) * 4
    let segs := (digits digit).takeWhile (fun seg => seg.addr ≠ 0)
    let d := segs.foldl (fun d seg => d.setData (seg.addr + base) seg.val .replace) d
    let d := if withDot ∧ position > 0 then d.showDot position true false else d
    d.flushIf flushNow

/-- Only the non-empty segments of the letter are written. -/
def showLetter (d : HT1621B) (position : Nat) (c : Char) (flushNow : Bool) : HT1621B :=
  if position ≥ 6 then d
  else
    let base := (5 - position) * 4
    match letters c with
    | none => d
    | some segs =>
        let d := segs.foldl (fun d seg =>
          if seg.val ≠ 0 then d.setData (seg.addr + base) seg.val .replace else d) d
        d.flushIf flushNow

/-- The body of `ShowString`'s loop: the character for position `i`. -/
def showChar (d : HT1621B) (i : Nat) (c : Char) : HT1621B :=
  if '0' ≤ c ∧ c ≤ '9' then d.showDigit i (c.toNat - '0'.toNat) false false
  else d.showLetter i c false

/-- Draw a string right-aligned, its last character at position 0. -/
def showString (d : HT1621B) (str : List Char) (flushNow : Bool) : HT1621B :=
  let d := d.clearSegArea false
  let shown := str.take 6
  let d := shown.reverse.zipIdx.foldl (fun d ci => d.showChar ci.2 ci.1) d
  d.flushIf flushNow

/-! ## Numbers -/

/-- The `do` loop of `itoa_simple`: what `tmp`, with room for `k` more characters, takes of a number that
    is not negative. The last digit comes first. -/
def tmpDigits : Nat → Nat → List Char
  | 0,     _     => []
  | k + 1, value =>
      Char.ofNat ('0'.toNat + value % 10) :: if value / 10 = 0 then [] else tmpDigits k (value / 10)

/-- What `itoa_simple` writes, the final NUL included; `none` where the negation leaves `int`. -/
def itoaSimple (value : Int) : Option (List Char) :=
  if value < 0 ∧ -value > 2147483647 then none
  else
    let sign := if value < 0 then ['-'] else []
    some (sign ++ (tmpDigits 12 value.natAbs).reverse ++ ['\x00'])

/-- `none` where the source has no defined behaviour: `itoa_simple` overflows, or writes past the 8 bytes
    of `buf`. -/
def showInt (d : HT1621B) (value : Int) (flushNow : Bool) : Option HT1621B :=
  match itoaSimple value with
  | none => none
  | some buf =>
      if buf.length > 8 then none
      else
        let start := if value < 0 then 1 else 0
        let len := (buf.takeWhile (· ≠ '\x00')).length
        let lDigits := len - start
        if (¬ value < 0 ∧ lDigits > 6) ∨ (value < 0 ∧ lDigits > 5) then
          -- too long: a dash at every position
          let d := (List.range 6).foldl (fun d i => d.setData (i * 4 + 2) 1 .replace) d
          some (d.flushIf flushNow)
        else
          let drawn := ((buf.take len).drop start).reverse.take 6
          let d := drawn.zipIdx.foldl
            (fun d ci => d.showDigit ci.2 (ci.1.toNat - '0'.toNat) false false) d
          let pos := drawn.length
          let d := if value < 0 ∧ pos < 6 then d.setData ((5 - pos) * 4 + 2) 1 .replace else d
          some (d.flushIf flushNow)

/-! ## Dates -/

/-- The digits of a date, that of position 0 first. -/
def dateDigits (day month year : Nat) : List Nat :=
  [year % 10, year / 10, month % 10, month / 10, day % 10, day / 10]

/-- Show a date as `DD.MM.YY`, on an image that is otherwise blank; one that is no date is not shown. -/
def showDate (d : HT1621B) (day month year : UInt8) (flushNow : Bool) : HT1621B :=
  let day := day.toNat % 100
  let month := month.toNat % 100
  let year := year.toNat % 100
  if (day = 0 ∨ day > 31) ∨ (month = 0 ∨ month > 12) then d
  else
    let d := d.fullClear false
    let d := (dateDigits day month year).zipIdx.foldl (fun d digit =>
      d.showDigit digit.2 digit.1 (digit.2 = 2 ∨ digit.2 = 4) false) d
    d.flushIf flushNow

/-! ## Icons -/

def showSpecial (d : HT1621B) (type : Nat) (enable flushNow : Bool) : HT1621B :=
  if type > 3 then d
  else
    let special := specials type
    (d.setData special.addr special.val (if enable then .setBit else .clearBit)).flushIf flushNow

/-- The battery, filled up to `level`. -/
def showChargeLevel (d : HT1621B) (level : Nat) (flushNow : Bool) : HT1621B :=
  let level := if level > 3 then 3 else level
  let d := chargeLevels.zipIdx.foldl (fun d seg =>
    d.setData seg.1.addr seg.1.val (if seg.2 ≤ level then .setBit else .clearBit)) d
  d.flushIf flushNow

end HT1621B
end Thermostat
