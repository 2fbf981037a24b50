import Thermostat.Drivers.DS18B20
import Thermostat.Lib.OneWire

/-!
# `Drivers.BusTimer` — what the sensor's timer does on the bus

The functions of `ds18b20.cpp` that program TIM1 and its DMA channels, write by write, and the timer that these
writes are for. Channel 1 pulls the bus low while the counter is below its compare value. With the preload bit a
write to `CCR1` waits for the next update event; without it, it takes effect at once. Channel 4 asks the DMA for the
next value of `CCR1` when the counter reaches `CCR4`. The counter runs at 1 MHz.

`Drivers.DS18B20` keeps the values written last. `Write.apply` says how they come about, and **`perform_writes`**
that the actions of the driver are these writes.
-/

namespace Thermostat
namespace DS18B20

/-! ## Writes -/

inductive Write where
  | arr (v : Nat)
  | rcr (v : Nat)
  | ccr1 (v : Nat)
  | ccr4 (v : Nat)
  | ccmr1 (v : UInt32)
  | ccer (v : UInt32)
  | dier (v : UInt32)
  | cr1 (v : UInt32)
  /-- `ForceUpdateEvent`. -/
  | update
  /-- Channel 3 is switched off, pointed at a buffer of the union, and switched on. -/
  | channel3 (ccr : UInt32) (cndtr : Nat)
  /-- Channel 4 is switched off, pointed at the rest of a command, and switched on. -/
  | channel4 (ccr : UInt32) (cndtr : Nat) (command : List UInt8)
deriving DecidableEq, Repr

def startTimerWrites (arr rcr : Nat) : List Write := [.arr arr, .rcr rcr, .update, .cr1 (cr1Opm ||| cr1Cen)]

def resetBusWrites : List Write :=
  [ .arr resetTimeout,
    .ccr1 resetPulseDuration,
    .ccmr1 (ccmr1Oc1m ||| ccmr1Oc1pe ||| ccmr1Capture),
    .ccer (ccerCc1e ||| ccerCc2e),
    .rcr 0,
    .channel3 (dmaMinc ||| dmaPsize0 ||| dmaMsize0 ||| dmaEn) captureBufSize,
    .update,
    .ccr1 0,
    .dier dierCc2de,
    .cr1 (cr1Opm ||| cr1Cen) ]

def sendCommandWrites (cmd : List UInt8) : List Write :=
  [ .rcr (dmaTransfers - 1),
    .arr (onePulse.toNat + zeroPulse.toNat + 1),
    .ccr1 (cmd.headD 0).toNat,
    .ccr4 (onePulse.toNat + zeroPulse.toNat),
    .ccmr1 ccmr1Oc1m,
    .ccer ccerCc1e,
    .dier dierCc4de,
    .update,
    .channel4 (dmaDir ||| dmaMinc ||| dmaPsize0 ||| dmaEn) dmaTransfers cmd.tail,
    .cr1 (cr1Opm ||| cr1Cen) ]

def readDataWrites : List Write :=
  [ .rcr (scratchpadBits - 1),
    .arr (onePulse.toNat + zeroPulse.toNat + 1),
    .ccr1 onePulse.toNat,
    .ccmr1 (ccmr1Oc1m ||| ccmr1Oc1pe ||| ccmr1Capture),
    .ccer (ccerCc1e ||| ccerCc2e),
    .dier dierCc2de,
    .update,
    .ccr1 0,
    .channel3 (dmaMinc ||| dmaPsize0 ||| dmaEn) scratchpadBits,
    .cr1 (cr1Opm ||| cr1Cen) ]

def Action.writes : Action → List Write
  | .idle                                  => []
  | .start | .continue_                    => resetBusWrites
  | .convertOk                             => sendCommandWrites convCmd
  | .requestOk                             => sendCommandWrites readCmd
  | .wait                                  => startTimerWrites 62500 11
  | .read                                  => readDataWrites
  | .convertFail | .requestFail | .decode => startTimerWrites 62500 3

/-- The driver's record of the registers. -/
def Write.apply (d : DS18B20) : Write → DS18B20
  | .arr v              => { d with tim := { d.tim with arr := v } }
  | .rcr v              => { d with tim := { d.tim with rcr := v } }
  | .ccr1 v             => { d with tim := { d.tim with ccr1 := v } }
  | .ccr4 v             => { d with tim := { d.tim with ccr4 := v } }
  | .ccmr1 v            => { d with tim := { d.tim with ccmr1 := v } }
  | .ccer v             => { d with tim := { d.tim with ccer := v } }
  | .dier v             => { d with tim := { d.tim with dier := v } }
  | .cr1 v              => { d with tim := { d.tim with cr1 := v } }
  | .update             => d.forceUpdateEvent
  | .channel3 ccr n     => { d with dma3 := ⟨ccr, n, 0⟩, log := [] }
  | .channel4 ccr n cmd => { d with dma4 := ⟨ccr, n, 0⟩, command := cmd }

theorem startTimer_writes (d : DS18B20) (arr rcr : Nat) :
    (d.startTimer arr rcr).1 = (startTimerWrites arr rcr).foldl Write.apply d := by
  simp only [startTimer, startTimerWrites, List.foldl_cons, List.foldl_nil, Write.apply, onePulseMode,
    forceUpdateEvent]

theorem resetBus_writes (d : DS18B20) : d.resetBus.1 = resetBusWrites.foldl Write.apply d := by
  simp only [resetBus, resetBusWrites, List.foldl_cons, List.foldl_nil, Write.apply, onePulseMode, forceUpdateEvent]

theorem sendCommand_writes (d : DS18B20) (cmd : List UInt8) :
    (d.sendCommand cmd).1 = (sendCommandWrites cmd).foldl Write.apply d := by
  simp only [sendCommand, sendCommandWrites, List.foldl_cons, List.foldl_nil, Write.apply, onePulseMode,
    forceUpdateEvent]

theorem readData_writes (d : DS18B20) : d.readData.1 = readDataWrites.foldl Write.apply d := by
  simp only [readData, readDataWrites, List.foldl_cons, List.foldl_nil, Write.apply, onePulseMode, forceUpdateEvent]

/-- **The actions are their writes.** What they do besides, to the memory, the LED and the family, comes first. -/
theorem perform_writes (a : Action) (d : DS18B20) : ∃ mem led family,
    (a.perform d).1 = a.writes.foldl Write.apply { d with mem := mem, led := led, family := family } := by
  cases a with
  | idle => exact ⟨fillUnion d.mem, d.led, d.family, rfl⟩
  | start => exact ⟨d.mem, true, d.family, resetBus_writes _⟩
  | convertOk => exact ⟨d.mem, d.led, d.family, sendCommand_writes d convCmd⟩
  | convertFail => exact ⟨d.mem, d.led, d.family, startTimer_writes d 62500 3⟩
  | wait => exact ⟨d.mem, d.led, d.family, startTimer_writes d 62500 11⟩
  | continue_ => exact ⟨d.mem, d.led, d.family, resetBus_writes d⟩
  | requestOk => exact ⟨d.mem, d.led, d.family, sendCommand_writes d readCmd⟩
  | requestFail => exact ⟨d.mem, d.led, d.family, startTimer_writes d 62500 3⟩
  | read => exact ⟨d.mem, d.led, d.family, readData_writes d⟩
  | decode =>
    refine ⟨decodeScratchpad d.mem, false, detectSensorType (decodeScratchpad d.mem), ?_⟩
    simp only [Action.perform, actionDecode, ledControl, startCyclePause, startTimer_writes]
    rfl

/-! ## The timer -/

/-- `ccr1` was written last and `active` is compared; `left` repetitions follow the period that begins. `feed` is
    what channel 4 has still to move. -/
structure BusTimer where
  arr : Nat
  rcr : Nat
  ccr1 : Nat
  ccr4 : Nat
  ccmr1 : UInt32
  dier : UInt32
  active : Nat
  left : Nat
  feed : List UInt8
  running : Bool
deriving DecidableEq, Repr

namespace BusTimer

/-- After a reset and `init`. -/
def boot : BusTimer := ⟨0xFFFF, 0, 0, 0, 0, 0, 0, 0, [], false⟩

/-- `CCR1` is preloaded. -/
def preload (t : BusTimer) : Bool := t.ccmr1 &&& ccmr1Oc1pe ≠ 0

def writeCcr1 (t : BusTimer) (v : Nat) : BusTimer :=
  { t with ccr1 := v, active := if t.preload then t.active else v }

def write (t : BusTimer) : Write → BusTimer
  | .arr v              => { t with arr := v }
  | .rcr v              => { t with rcr := v }
  | .ccr1 v             => t.writeCcr1 v
  | .ccr4 v             => { t with ccr4 := v }
  | .ccmr1 v            => { t with ccmr1 := v }
  | .dier v             => { t with dier := v }
  | .cr1 v              => { t with running := v &&& cr1Cen ≠ 0 }
  | .update             => { t with active := t.ccr1, left := t.rcr }
  | .channel4 ccr n cmd => { t with feed := if ccr &&& dmaEn ≠ 0 then cmd.take n else [] }
  | .ccer _ | .channel3 _ _ => t

/-- What channel 4 moves in this period. -/
def next (t : BusTimer) : Option UInt8 :=
  if t.dier &&& dierCc4de ≠ 0 ∧ t.ccr4 ≤ t.arr then t.feed.head? else none

/-- One period: when the bus is pulled low, by the counter, and the timer at the end. -/
def period (t : BusTimer) : List Bool × BusTimer :=
  match t.next with
  | none   => ((List.range (t.arr + 1)).map fun count => decide (count < t.active), t)
  | some v =>
    let t' := { t with feed := t.feed.tail }.writeCcr1 v.toNat
    ((List.range (t.arr + 1)).map fun count => decide (count < if count < t.ccr4 then t.active else t'.active), t')

def periods (t : BusTimer) : Nat → List Bool × BusTimer
  | 0     => ([], t)
  | n + 1 => (t.period.1 ++ (t.period.2.periods n).1, (t.period.2.periods n).2)

/-- One-pulse mode: all periods, and the update event that stops the timer. The pulses on the bus. -/
def shot (t : BusTimer) : List Nat × BusTimer :=
  let (wave, t) := t.periods (t.left + 1)
  (OneWire.pulses wave, { t with active := t.ccr1, running := false })

/-- In microseconds. -/
def duration (t : BusTimer) : Nat := (t.left + 1) * (t.arr + 1)

end BusTimer
end DS18B20
end Thermostat
