import Thermostat.Lib.Bytes
import Thermostat.Lib.Word

/-!
# `Drivers.DS18B20` — the temperature sensor on a timer and two DMA channels

`DS18B20` of `ds18b20.hpp`/`ds18b20.cpp`, with the registers it programs. The union of the context is a
block of 72 bytes that `edge`, `pulse` and `scratchpad` read in their own widths. The bus is reached
through TIM1 and its DMA channels only, so what the hardware does between two polls comes down to two
operations: `capture` (channel 3 stores a captured edge) and `expire` (the one-pulse timer ends).

`log` is a history variable: the captures that channel 3 has stored since it was armed last, oldest first.
No function of the driver reads it.
-/

namespace Thermostat

namespace DS18B20

inductive FsmStates where
  | idle
  | start
  | convert
  | wait
  | continue_
  | request
  | read
  | decode
  | error
deriving DecidableEq, Repr

/-- The actions of the transition table. -/
inductive Action where
  | idle
  | start
  | convertOk
  | convertFail
  | wait
  | continue_
  | requestOk
  | requestFail
  | read
  | decode
deriving DecidableEq, Repr

inductive Effect where
  /-- An action of the table was executed. -/
  | action (a : Action)
  /-- `CR1` was written with `OPM` and `CEN` set. -/
  | startTimer
  /-- `ds18b20_temp_ready` was called. -/
  | tempReady (temp : Int)
  /-- `decode_temperature` divided by zero. -/
  | divideByZero
deriving DecidableEq, Repr

/-! ## Constants -/

def resetPulseMin : UInt16 := 480
def resetPulseMax : UInt16 := 540
/-- `RESET_PULSE_MIN + POSITIVE_WIDTH_MIN + NEGATIVE_WIDTH_MIN`. -/
def presencePulseMin : UInt16 := 480 + 15 + 60
/-- `RESET_PULSE_MAX + POSITIVE_WIDTH_MAX + NEGATIVE_WIDTH_MAX`. -/
def presencePulseMax : UInt16 := 540 + 60 + 240
def resetTimeout : Nat := 960
def resetPulseDuration : Nat := 480
def crc8Poly : UInt8 := 0x8C
def crc8Bytes : Nat := 8
def captureBufSize : Nat := 2
def scratchpadLen : Nat := 9
def bitsPerByte : Nat := 8
def scratchpadBits : Nat := 72
def shortPulseMax : UInt8 := 0x0A
def dmaTransfers : Nat := 16
def onePulse : UInt8 := 1
def zeroPulse : UInt8 := 60

def tempErrorGeneric : Int := -32768
def tempErrorNoSensor : Int := -32767
def tempErrorCrcFail : Int := -32766

/-! Register bits. -/

def cr1Opm : UInt32 := 0x8
def cr1Cen : UInt32 := 0x1
def dierCc2de : UInt32 := 0x400
def dierCc4de : UInt32 := 0x1000
def ccerCc1e : UInt32 := 0x1
def ccerCc2e : UInt32 := 0x10
/-- PWM mode 2 on channel 1, without and with preload; input capture with the longest filter on channel 2. -/
def ccmr1Oc1m : UInt32 := 0x10 ||| 0x20 ||| 0x40
def ccmr1Oc1pe : UInt32 := 0x8
def ccmr1Capture : UInt32 := 0x200 ||| 0x1000 ||| 0x2000 ||| 0x4000
def dmaEn : UInt32 := 0x1
def dmaDir : UInt32 := 0x10
def dmaMinc : UInt32 := 0x80
def dmaPsize0 : UInt32 := 0x100
def dmaMsize0 : UInt32 := 0x400

/-! ## Commands -/

def bitToPulse (byte : UInt8) (bit : Nat) : UInt8 :=
  if byte.toNat.testBit bit then onePulse else zeroPulse

def byteToPulses (byte : UInt8) : List UInt8 := (List.range 8).map (bitToPulse byte)

/-- The pulses of all bytes, and a final `0`. -/
def makeCommand (bytes : List UInt8) : List UInt8 := bytes.flatMap byteToPulses ++ [0]

def convCmd : List UInt8 := makeCommand [0xCC, 0x44]
def readCmd : List UInt8 := makeCommand [0xCC, 0xBE]

/-! ## Hardware -/

structure Tim1 where
  arr : Nat
  rcr : Nat
  ccr1 : Nat
  ccr4 : Nat
  ccmr1 : UInt32
  ccer : UInt32
  dier : UInt32
  cr1 : UInt32
  uif : Bool
deriving DecidableEq, Repr

/-- `CCR`, `CNDTR`, and the number of elements moved since the channel was configured. -/
structure DmaChannel where
  ccr : UInt32
  cndtr : Nat
  moved : Nat
deriving DecidableEq, Repr

end DS18B20

open DS18B20 in
/-- `command` is what channel 4 was last given to transmit. -/
structure DS18B20 where
  mem : Bytes 72
  current : FsmStates
  family : UInt8
  tim : Tim1
  dma3 : DmaChannel
  dma4 : DmaChannel
  command : List UInt8
  led : Bool
  log : List UInt16

namespace DS18B20

/-- The object as the linker lays it out, with `init` done: its update event has left `UIF` set. -/
def init : DS18B20 where
  mem := Bytes.zeros 72
  current := .idle
  family := 0x28
  tim := ⟨0, 0, 0, 0, 0, 0, 0, 0, true⟩
  dma3 := ⟨0, 0, 0⟩
  dma4 := ⟨0, 0, 0⟩
  command := []
  led := false
  log := []

/-- The one-pulse timer is running. -/
def running (d : DS18B20) : Bool := d.tim.cr1 &&& cr1Cen ≠ 0

/-- Channel 3 takes the next capture: requested by the timer, enabled, and not at its end. -/
def listening (d : DS18B20) : Bool :=
  d.tim.dier &&& dierCc2de ≠ 0 ∧ d.dma3.ccr &&& dmaEn ≠ 0 ∧ 0 < d.dma3.cndtr

/-- An edge is captured. Channel 3 stores half-words or, without `MSIZE_0`, the low bytes. -/
def capture (d : DS18B20) (v : UInt16) : DS18B20 :=
  if d.listening then
    { d with
      mem :=
        if d.dma3.ccr &&& dmaMsize0 ≠ 0 then d.mem.wr16 d.dma3.moved v
        else d.mem.wr d.dma3.moved (UInt8.ofNat v.toNat)
      dma3 := { d.dma3 with cndtr := d.dma3.cndtr - 1, moved := d.dma3.moved + 1 }
      log := d.log ++ [v] }
  else d

/-- The running timer reaches its end: it stops and sets the update flag. -/
def expire (d : DS18B20) : DS18B20 :=
  if d.running then { d with tim := { d.tim with cr1 := d.tim.cr1 &&& ~~~ cr1Cen, uif := true } } else d

/-! ## Reading the union -/

def edge (d : DS18B20) (i : Nat) : UInt16 := d.mem.rd16 i

def checkPresence (d : DS18B20) : Bool :=
  d.edge 0 ≥ resetPulseMin ∧ d.edge 0 ≤ resetPulseMax ∧
  d.edge 1 ≥ presencePulseMin ∧ d.edge 1 ≤ presencePulseMax

/-- One bit of `decode_scratchpad`: pulse number `8 * byte + bit` decides a bit of the byte in place. -/
def decodeBit (m : Bytes 72) (byte bit : Nat) : Bytes 72 :=
  if m.rd (byte * bitsPerByte + bit) ≤ shortPulseMax then
    m.wr byte (m.rd byte ||| UInt8.ofNat (1 <<< bit))
  else m.wr byte (m.rd byte &&& ~~~ UInt8.ofNat (1 <<< bit))

def decodeScratchpad (m : Bytes 72) : Bytes 72 :=
  (List.range scratchpadLen).foldl (fun m byte =>
    (List.range bitsPerByte).foldl (fun m bit => decodeBit m byte bit) m) m

/-- One bit of the CRC: the register and the rest of the byte. -/
def crcBit (s : UInt8 × UInt8) : UInt8 × UInt8 :=
  let mix := (s.1 ^^^ s.2) &&& 1
  let crc := s.1 >>> 1
  (if mix ≠ 0 then crc ^^^ crc8Poly else crc, s.2 >>> 1)

def crcByte (crc inByte : UInt8) : UInt8 := (Nat.iterate crcBit 8 (crc, inByte)).1

def checkScratchpadCrc (m : Bytes 72) : UInt8 :=
  (List.range crc8Bytes).foldl (fun crc i => crcByte crc (m.rd i)) 0

def detectSensorType (m : Bytes 72) : UInt8 := if m.rd 4 = 0xFF then 0x10 else 0x28

/-- The temperature register, as the signed number it is. -/
def rawTemperature (m : Bytes 72) : Int :=
  Word.int16 ((m.rd 1).toNat * 256 + (m.rd 0).toNat)

/-- `none` where the source divides by zero. -/
def decodeTemperature (family : UInt8) (m : Bytes 72) : Option Int :=
  let raw := rawTemperature m
  if family = 0x10 then
    let cntRem : Int := (m.rd 6).toNat
    let cntPerC : Int := (m.rd 7).toNat
    let coarse := raw / 2 * 10
    if cntPerC = 0 then none
    else
      let fine := ((cntPerC - cntRem) * 10).tdiv cntPerC
      some (Word.int16 (coarse - 2 + fine))
  else some (Word.int16 (raw * 10 / 16))

/-! ## Programming the hardware -/

/-- Force an update event and clear the flag it sets. -/
def forceUpdateEvent (d : DS18B20) : DS18B20 := { d with tim := { d.tim with uif := false } }

def onePulseMode (d : DS18B20) : DS18B20 := { d with tim := { d.tim with cr1 := cr1Opm ||| cr1Cen } }

def startTimer (d : DS18B20) (arr rcr : Nat) : DS18B20 × List Effect :=
  let d := { d with tim := { d.tim with arr := arr, rcr := rcr } }
  let d := d.forceUpdateEvent
  (d.onePulseMode, [.startTimer])

def waitConversion (d : DS18B20) : DS18B20 × List Effect := d.startTimer 62500 11
def startCyclePause (d : DS18B20) : DS18B20 × List Effect := d.startTimer 62500 3

def resetBus (d : DS18B20) : DS18B20 × List Effect :=
  let d := { d with
    tim := { d.tim with
      arr := resetTimeout
      ccr1 := resetPulseDuration
      ccmr1 := ccmr1Oc1m ||| ccmr1Oc1pe ||| ccmr1Capture
      ccer := ccerCc1e ||| ccerCc2e
      rcr := 0 }
    dma3 := ⟨dmaMinc ||| dmaPsize0 ||| dmaMsize0 ||| dmaEn, captureBufSize, 0⟩
    log := [] }
  let d := d.forceUpdateEvent
  let d := { d with tim := { d.tim with ccr1 := 0, dier := dierCc2de } }
  (d.onePulseMode, [.startTimer])

def sendCommand (d : DS18B20) (cmd : List UInt8) : DS18B20 × List Effect :=
  let d := { d with
    tim := { d.tim with
      rcr := dmaTransfers - 1
      arr := onePulse.toNat + zeroPulse.toNat + 1
      ccr1 := (cmd.headD 0).toNat
      ccr4 := onePulse.toNat + zeroPulse.toNat
      ccmr1 := ccmr1Oc1m
      ccer := ccerCc1e
      dier := dierCc4de } }
  let d := d.forceUpdateEvent
  let d := { d with
    dma4 := ⟨dmaDir ||| dmaMinc ||| dmaPsize0 ||| dmaEn, dmaTransfers, 0⟩
    command := cmd.tail }
  (d.onePulseMode, [.startTimer])

def readData (d : DS18B20) : DS18B20 × List Effect :=
  let d := { d with
    tim := { d.tim with
      rcr := scratchpadBits - 1
      arr := onePulse.toNat + zeroPulse.toNat + 1
      ccr1 := onePulse.toNat
      ccmr1 := ccmr1Oc1m ||| ccmr1Oc1pe ||| ccmr1Capture
      ccer := ccerCc1e ||| ccerCc2e
      dier := dierCc2de } }
  let d := d.forceUpdateEvent
  let d := { d with
    tim := { d.tim with ccr1 := 0 }
    dma3 := ⟨dmaMinc ||| dmaPsize0 ||| dmaEn, scratchpadBits, 0⟩
    log := [] }
  (d.onePulseMode, [.startTimer])

/-! ## The actions -/

def ledControl (d : DS18B20) (on : Bool) : DS18B20 := { d with led := on }

/-- Fill the first eight bytes of the union. -/
def fillUnion (m : Bytes 72) : Bytes 72 := (List.range 8).foldl (fun m i => m.wr i 0xFF) m

def actionIdle (d : DS18B20) : DS18B20 × List Effect := ({ d with mem := fillUnion d.mem }, [])

def actionStart (d : DS18B20) : DS18B20 × List Effect := (d.ledControl true).resetBus

def actionConvertOk (d : DS18B20) : DS18B20 × List Effect := d.sendCommand convCmd

def actionConvertFail (d : DS18B20) : DS18B20 × List Effect :=
  let (d, es) := d.startCyclePause
  (d, .tempReady tempErrorNoSensor :: es)

def actionWait (d : DS18B20) : DS18B20 × List Effect := d.waitConversion

def actionContinue (d : DS18B20) : DS18B20 × List Effect := d.resetBus

def actionRequestOk (d : DS18B20) : DS18B20 × List Effect := d.sendCommand readCmd

def actionRequestFail (d : DS18B20) : DS18B20 × List Effect :=
  let (d, es) := d.startCyclePause
  (d, .tempReady tempErrorNoSensor :: es)

def actionRead (d : DS18B20) : DS18B20 × List Effect := d.readData

/-- What `action_decode` reports for a decoded scratchpad. -/
def decodeReport (family : UInt8) (scratchpad : Bytes 72) : Effect :=
  if scratchpad.rd 8 = checkScratchpadCrc scratchpad then
    match decodeTemperature family scratchpad with
    | some temp => .tempReady temp
    | none => .divideByZero
  else .tempReady tempErrorCrcFail

def actionDecode (d : DS18B20) : DS18B20 × List Effect :=
  let d := { d with mem := decodeScratchpad d.mem }
  let d := { d with family := detectSensorType d.mem }
  let d := d.ledControl false
  let report := decodeReport d.family d.mem
  let (d, es) := d.startCyclePause
  (d, report :: es)

def Action.perform : Action → DS18B20 → DS18B20 × List Effect
  | .idle,        d => d.actionIdle
  | .start,       d => d.actionStart
  | .convertOk,   d => d.actionConvertOk
  | .convertFail, d => d.actionConvertFail
  | .wait,        d => d.actionWait
  | .continue_,   d => d.actionContinue
  | .requestOk,   d => d.actionRequestOk
  | .requestFail, d => d.actionRequestFail
  | .read,        d => d.actionRead
  | .decode,      d => d.actionDecode

/-! ## The transition table -/

inductive Guard where
  | checkPresenceOk
  | checkPresenceFail
deriving DecidableEq, Repr

def Guard.holds : Guard → DS18B20 → Bool
  | .checkPresenceOk,   d => d.checkPresence
  | .checkPresenceFail, d => !d.checkPresence

/-- A row of the table; a missing guard always holds. -/
structure Transition where
  state : FsmStates
  guard : Option Guard
  action : Action
  next : FsmStates
deriving DecidableEq, Repr

def transitions : List Transition := [
  ⟨.idle,      none,                    .idle,        .start⟩,
  ⟨.start,     none,                    .start,       .convert⟩,
  ⟨.convert,   some .checkPresenceOk,   .convertOk,   .wait⟩,
  ⟨.convert,   some .checkPresenceFail, .convertFail, .idle⟩,
  ⟨.wait,      none,                    .wait,        .continue_⟩,
  ⟨.continue_, none,                    .continue_,   .request⟩,
  ⟨.request,   some .checkPresenceOk,   .requestOk,   .read⟩,
  ⟨.request,   some .checkPresenceFail, .requestFail, .idle⟩,
  ⟨.read,      none,                    .read,        .decode⟩,
  ⟨.decode,    none,                    .decode,      .idle⟩ ]

/-- The row is for the current state, and its guard holds. -/
def Transition.applies (t : Transition) (d : DS18B20) : Bool :=
  t.state = d.current ∧ t.guard.all (fun g => g.holds d)

/-- Execute the action of a row and move to its next state. -/
def Transition.take (t : Transition) (d : DS18B20) : DS18B20 × List Effect :=
  let (d, es) := t.action.perform d
  ({ d with current := t.next }, .action t.action :: es)

/-- The result of scanning the table: the driver, the effects, and the two flags of `poll`. -/
structure Scan where
  driver : DS18B20
  effects : List Effect
  transitionFound : Bool
  needFallthrough : Bool

/-- The first loop of `poll`. It goes on behind a row that leads to `START`, in the state that row has
    set. -/
def scan (d : DS18B20) : List Transition → Scan
  | [] => ⟨d, [], false, false⟩
  | t :: ts =>
      if t.applies d then
        let (d, es) := t.take d
        if t.next = .start then
          -- no `break`: the rows behind this one are looked at with the state `START`
          let rest := scan d ts
          ⟨rest.driver, es ++ rest.effects, true, true⟩
        else ⟨d, es, true, false⟩
      else scan d ts

/-- The second loop of `poll`, for a `START` that the first one has left behind. -/
def fallThrough (d : DS18B20) : List Transition → DS18B20 × List Effect
  | [] => (d, [])
  | t :: ts =>
      if t.state = .start ∧ t.guard.all (fun g => g.holds d) then t.take d else fallThrough d ts

def poll (d : DS18B20) : DS18B20 × List Effect :=
  if d.tim.uif then
    let d := { d with tim := { d.tim with uif := false } }
    let s := scan d transitions
    let (d, es) :=
      if s.needFallthrough ∧ s.driver.current = .start then
        let (d, es) := fallThrough s.driver transitions
        (d, s.effects ++ es)
      else (s.driver, s.effects)
    if s.transitionFound then (d, es)
    -- no row applies: report, and start over
    else ({ d with current := .idle }, es ++ [.tempReady tempErrorGeneric])
  else (d, [])

/-! ## The driver as a machine -/

/-- What can happen to the driver: the hardware acts, or the main loop polls. -/
inductive Input where
  | capture (v : UInt16)
  | expire
  | poll
deriving DecidableEq, Repr

def step (d : DS18B20) : Input → DS18B20 × List Effect
  | .capture v => (d.capture v, [])
  | .expire    => (d.expire, [])
  | .poll      => d.poll

end DS18B20
end Thermostat
