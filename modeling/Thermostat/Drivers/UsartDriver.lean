import Thermostat.Lib.Bytes
import Thermostat.Lib.Fifo

/-!
# `Drivers.UsartDriver` — the interrupt-driven serial port

`UsartDriver` of `UsartDriver.hpp`, with the sizes of its two buffers, and the registers of `USART1`
that it uses. Two things happen in the hardware by themselves: a byte arrives (`arrive`), and the
transmitter takes the byte it was given (`transmitted`).

`sent` is a history variable: the bytes written to `TDR`, oldest first. No function of the driver reads
it.
-/

namespace Thermostat

/-- The flags `TXE`, `RXNE` and `ORE` of `ISR`, the receive register, and the bit `TXEIE` of `CR1`. -/
structure Usart1 where
  txe : Bool
  rxne : Bool
  ore : Bool
  rdr : UInt8
  txeie : Bool
  sent : List UInt8
deriving DecidableEq, Repr

namespace Usart1

/-- A byte arrives. If the last one has not been read, it is lost. -/
def arrive (u : Usart1) (byte : UInt8) : Usart1 :=
  if u.rxne then { u with ore := true } else { u with rdr := byte, rxne := true }

/-- The transmitter takes the byte in `TDR`. -/
def transmitted (u : Usart1) : Usart1 := { u with txe := true }

/-- Reading `RDR` clears `RXNE`. -/
def readRdr (u : Usart1) : Usart1 := { u with rxne := false }

def writeTdr (u : Usart1) (byte : UInt8) : Usart1 := { u with txe := false, sent := u.sent ++ [byte] }

end Usart1

/-- `etl::string<n>`: at most `n` characters, of eight bits each. -/
abbrev EtlString (n : Nat) := Fifo UInt8 n

namespace EtlString

variable {n : Nat}

/-- A full string drops the character. -/
def pushBack (s : EtlString n) (c : UInt8) : EtlString n := (s.offer c).1

def clear (_ : EtlString n) : EtlString n := .empty

theorem pushBack_items {s : EtlString n} (h : s.items.length < n) (c : UInt8) :
    (s.pushBack c).items = s.items ++ [c] := by
  have hfull : ¬ s.full = true := Bool.eq_false_iff.mp (Fifo.not_full_iff.mpr h)
  unfold pushBack Fifo.offer
  rw [if_neg hfull, Fifo.push_items h]

/-- Characters go in until the string is full. -/
theorem foldl_pushBack_items (s : EtlString n) (cs : List UInt8) :
    (cs.foldl pushBack s).items = (s.items ++ cs).take n := Fifo.foldl_offer_items s cs

end EtlString

structure UsartDriver (txBuffSize rxBuffSize : Nat) where
  txBuf : Fifo UInt8 txBuffSize
  rxBuf : Fifo UInt8 rxBuffSize
  rxOverrunCount : UInt32
  usart1 : Usart1
deriving DecidableEq, Repr

namespace UsartDriver

variable {txBuffSize rxBuffSize : Nat}

/-- The driver after `Init`, nothing received or sent yet. -/
def init : UsartDriver txBuffSize rxBuffSize := ⟨.empty, .empty, 0, ⟨true, false, false, 0, false, []⟩⟩

/-! ## Transmission -/

def txEnqueueByte (u : UsartDriver txBuffSize rxBuffSize) (byte : UInt8) :
    UsartDriver txBuffSize rxBuffSize × Bool :=
  if u.txBuf.full then (u, false)
  else ({ u with txBuf := u.txBuf.push byte, usart1 := { u.usart1 with txeie := true } }, true)

/-- Write the characters up to a `NUL` or to a full buffer; the number is how many went in. -/
def writeStr (u : UsartDriver txBuffSize rxBuffSize) :
    List Char → UsartDriver txBuffSize rxBuffSize × Nat
  | [] => (u, 0)
  | c :: s =>
      if c.toNat = 0 then (u, 0)
      else
        let (u, taken) := u.txEnqueueByte (UInt8.ofNat c.toNat)
        if taken then
          let (u, count) := writeStr u s
          (u, count + 1)
        else (u, 0)

/-- The overload for `etl::string`. No character ends it early. -/
def writeEtlStr (u : UsartDriver txBuffSize rxBuffSize) :
    List UInt8 → UsartDriver txBuffSize rxBuffSize × Nat
  | [] => (u, 0)
  | c :: s =>
      let (u, taken) := u.txEnqueueByte c
      if taken then
        let (u, count) := writeEtlStr u s
        (u, count + 1)
      else (u, 0)

/-- The digit loop of `write_int`: the last digit comes first. -/
def pushDigits (tmp : EtlString 7) (uvalue : Nat) : EtlString 7 :=
  if uvalue = 0 then tmp
  else pushDigits (tmp.pushBack (UInt8.ofNat ('0'.toNat + uvalue % 10))) (uvalue / 10)
termination_by uvalue

/-- `tmp` of `write_int`: the number backwards. -/
def intTmp (value : Int) : EtlString 7 :=
  let tmp := pushDigits .empty value.natAbs
  if value < 0 then tmp.pushBack (UInt8.ofNat '-'.toNat) else tmp

/-- `buf` of `write_int`. -/
def intBuf (value : Int) : EtlString 7 :=
  let buf : EtlString 7 := .empty
  if value = 0 then buf.pushBack (UInt8.ofNat '0'.toNat)
  else (intTmp value).items.reverse.foldl EtlString.pushBack buf

/-- `none` where the negation leaves `int`, which is undefined. -/
def writeInt (u : UsartDriver txBuffSize rxBuffSize) (value : Int) :
    Option (UsartDriver txBuffSize rxBuffSize) :=
  if value < 0 ∧ -value > 2147483647 then none else some (u.writeEtlStr (intBuf value).items).1

/-! ## The interrupt handler -/

def handleTxe (u : UsartDriver txBuffSize rxBuffSize) : UsartDriver txBuffSize rxBuffSize :=
  if u.usart1.txe then
    match u.txBuf.front with
    | some byte => { u with usart1 := u.usart1.writeTdr byte, txBuf := u.txBuf.pop }
    | none => { u with usart1 := { u.usart1 with txeie := false } }
  else u

def handleRx (u : UsartDriver txBuffSize rxBuffSize) : UsartDriver txBuffSize rxBuffSize :=
  if u.usart1.ore then
    -- the byte read here is thrown away, and the read leaves `ORE` set
    { u with usart1 := u.usart1.readRdr, rxOverrunCount := u.rxOverrunCount + 1 }
  else if u.usart1.rxne then
    let byte := u.usart1.rdr
    let u := { u with usart1 := u.usart1.readRdr }
    if u.rxBuf.full then { u with rxOverrunCount := u.rxOverrunCount + 1 }
    else { u with rxBuf := u.rxBuf.push byte }
  else u

def handleIRQ (u : UsartDriver txBuffSize rxBuffSize) : UsartDriver txBuffSize rxBuffSize :=
  u.handleTxe.handleRx

/-! ## Reception -/

def available (u : UsartDriver txBuffSize rxBuffSize) : Nat := u.rxBuf.items.length

def hasData (u : UsartDriver txBuffSize rxBuffSize) : Bool := !u.rxBuf.items.isEmpty

/-- The oldest byte received, if there is one. -/
def read (u : UsartDriver txBuffSize rxBuffSize) : UsartDriver txBuffSize rxBuffSize × Option UInt8 :=
  match u.rxBuf.front with
  | none => (u, none)
  | some byte => ({ u with rxBuf := u.rxBuf.pop }, some byte)

/-- The oldest byte received, or `-1`. -/
def readByte (u : UsartDriver txBuffSize rxBuffSize) : UsartDriver txBuffSize rxBuffSize × Int :=
  match u.rxBuf.front with
  | none => (u, -1)
  | some byte => ({ u with rxBuf := u.rxBuf.pop }, byte.toNat)

/-- The loop of `read_str` for an `etl::string`. It goes by the size of the string. -/
def readEtlStrLoop {n : Nat} (u : UsartDriver txBuffSize rxBuffSize) (str : EtlString n) (terminator : UInt8)
    (count : Nat) : UsartDriver txBuffSize rxBuffSize × EtlString n × Nat :=
  match hfront : u.rxBuf.front with
  | none => (u, str, count)
  | some byte =>
      if str.items.length < n - 1 then
        let u' := { u with rxBuf := u.rxBuf.pop }
        let str := str.pushBack byte
        if byte = terminator then (u', str, count + 1) else readEtlStrLoop u' str terminator (count + 1)
      else (u, str, count)
termination_by u.rxBuf.items.length
decreasing_by
  rw [Fifo.front_pop hfront]
  exact Nat.lt_succ_self _

/-- Read into an `etl::string<n>`, up to a terminator; the number is how many bytes were read. -/
def readEtlStr {n : Nat} (u : UsartDriver txBuffSize rxBuffSize) (str : EtlString n) (terminator : UInt8) :
    UsartDriver txBuffSize rxBuffSize × EtlString n × Nat := u.readEtlStrLoop str.clear terminator 0

/-- The loop of `read_str` for a C string. It goes by the number of bytes read. -/
def readStrLoop {size : Nat} (u : UsartDriver txBuffSize rxBuffSize) (buffer : Bytes size)
    (maxRead : Nat) (terminator : UInt8) (count : Nat) :
    UsartDriver txBuffSize rxBuffSize × Bytes size × Nat :=
  match hfront : u.rxBuf.front with
  | none => (u, buffer, count)
  | some byte =>
      if count < maxRead then
        let u' := { u with rxBuf := u.rxBuf.pop }
        let buffer := buffer.wr count byte
        if byte = terminator then (u', buffer, count + 1)
        else readStrLoop u' buffer maxRead terminator (count + 1)
      else (u, buffer, count)
termination_by u.rxBuf.items.length
decreasing_by
  rw [Fifo.front_pop hfront]
  exact Nat.lt_succ_self _

/-- The overload for a C string. `buffer` is the memory that the pointer shows to, `none` for the null
    pointer; `bufferSize` is the part of it that the driver may use. -/
def readStr {size : Nat} (u : UsartDriver txBuffSize rxBuffSize) (buffer : Option (Bytes size))
    (bufferSize : Nat) (terminator : UInt8) :
    UsartDriver txBuffSize rxBuffSize × Option (Bytes size) × Nat :=
  match buffer with
  | none => (u, none, 0)
  | some memory =>
      if bufferSize = 0 then (u, some memory, 0)
      else
        let (u, memory, count) := u.readStrLoop memory (bufferSize - 1) terminator 0
        (u, some (memory.wr count 0), count)

def getRxOverrunCount (u : UsartDriver txBuffSize rxBuffSize) : UInt32 := u.rxOverrunCount

def resetRxOverrunCount (u : UsartDriver txBuffSize rxBuffSize) : UsartDriver txBuffSize rxBuffSize :=
  { u with rxOverrunCount := 0 }

theorem hasData_cons {u : UsartDriver txBuffSize rxBuffSize} {byte : UInt8} {bytes : List UInt8}
    (h : u.rxBuf.items = byte :: bytes) : u.hasData = true := by
  simp [hasData, h]

theorem hasData_nil {u : UsartDriver txBuffSize rxBuffSize} (h : u.rxBuf.items = []) :
    u.hasData = false := by
  simp [hasData, h]

theorem readByte_cons {u : UsartDriver txBuffSize rxBuffSize} {byte : UInt8} {bytes : List UInt8}
    (h : u.rxBuf.items = byte :: bytes) :
    u.readByte = ({ u with rxBuf := u.rxBuf.pop }, (byte.toNat : Int)) := by
  have hfront : u.rxBuf.front = some byte := by simp [Fifo.front, h]
  simp only [readByte, hfront]

end UsartDriver
end Thermostat
