import Thermostat.Lib.Fifo

/-!
# `Drivers.TwiDriver` — the interrupt-driven I2C master

`TwiDriver` of `TwiDriver.hpp`/`TwiDriver.cpp`: a queue of requests, one request in progress, and three
entry points (`submit`, `irq`, `tick_1ms`) that share one context. Each entry point returns the new driver
and what it made visible: register writes, buffer accesses, callbacks.

A request carries the bytes behind its `tx` pointer; where its `rx` pointer leads is not modelled, the
writes through it are effects. `finished` marks the point in `finish` where the state returns to `Idle`.
-/

namespace Thermostat

namespace TwiDriver

/-- `tx i` is the byte `i` places after the `tx` pointer; a missing callback is the null pointer. -/
structure Request where
  address : UInt8
  tx : Nat → UInt8
  txLen : UInt8
  rxLen : UInt8
  callback : Option Nat

inductive State where
  | idle
  | start
  | tx
  | rx
  | stop
  | error
deriving DecidableEq, Repr

structure Context where
  state : State
  req : Request
  txPos : UInt8
  rxPos : UInt8
  timeout : UInt16

/-- The fields of a word written to `CR2`. -/
structure Cr2 where
  sadd : Nat
  nbytes : UInt8
  rdWrn : Bool
  start : Bool
deriving DecidableEq, Repr

/-- The interrupt flags that `irq` reads from `ISR`. -/
structure Isr where
  nackf : Bool
  berr : Bool
  txis : Bool
  rxne : Bool
deriving DecidableEq, Repr

inductive Effect where
  /-- `submit` returned `ok` for this request. -/
  | submitted (r : Request) (ok : Bool)
  /-- The request was taken from the queue into the context. -/
  | taken (r : Request)
  /-- A word was written to `CR2`. -/
  | cr2 (w : Cr2)
  /-- `STOP` was set in `CR2`. -/
  | stop
  /-- `tx[i]`, which is `b`, was written to `TXDR`. -/
  | txRead (i : UInt8) (b : UInt8)
  /-- `RXDR`, which was `b`, was stored into `rx[i]`. -/
  | rxWrite (i : UInt8) (b : UInt8)
  | callback (r : Request) (ok : Bool)
  | finished (r : Request)

def timeoutMs : UInt16 := 100
def queueSize : Nat := 4

/-- The request of a driver that has not served any. -/
def Request.zero : Request := ⟨0, fun _ => 0, 0, 0, none⟩

end TwiDriver

open TwiDriver in
structure TwiDriver where
  ctx : Context
  queue : Fifo Request queueSize

namespace TwiDriver

/-- The driver after start-up. -/
def fresh : TwiDriver := ⟨⟨.idle, .zero, 0, 0, 0⟩, Fifo.empty⟩

def setState (d : TwiDriver) (st : State) : TwiDriver := { d with ctx := { d.ctx with state := st } }

/-! ## Starting a transaction -/

/-- The word that starts the first transfer of a request. -/
def startWord (r : Request) : Cr2 where
  sadd := r.address.toNat * 2
  -- the length is that of the write, if there is one; the direction is that of the read, if there is one
  nbytes := if r.txLen ≠ 0 then r.txLen else r.rxLen
  rdWrn := r.rxLen ≠ 0
  start := true

/-- The word that starts the read transfer after a write transfer. -/
def restartWord (r : Request) : Cr2 where
  sadd := r.address.toNat * 2
  nbytes := r.rxLen
  rdWrn := true
  start := true

def startNext (d : TwiDriver) : TwiDriver × List Effect :=
  match d.queue.front with
  | none => (d, [])
  | some r =>
      ({ ctx := ⟨.start, r, 0, 0, timeoutMs⟩, queue := d.queue.pop }, [.taken r, .cr2 (startWord r)])

def submit (d : TwiDriver) (r : Request) : TwiDriver × List Effect :=
  if d.queue.full then (d, [.submitted r false])
  else
    let d := { d with queue := d.queue.push r }
    if d.ctx.state = .idle then
      let (d, es) := d.startNext
      (d, .submitted r true :: es)
    else (d, [.submitted r true])

/-- The requests that a callback submits, one after the other. -/
def submitAll (d : TwiDriver) : List Request → TwiDriver × List Effect
  | [] => (d, [])
  | r :: rs =>
      let (d, es) := d.submit r
      let (d, es') := d.submitAll rs
      (d, es ++ es')

/-! ## The interrupt -/

/-- `nested` are the requests that the callback submits, if there is a callback. -/
def finish (d : TwiDriver) (ok : Bool) (nested : List Request) : TwiDriver × List Effect :=
  let r := d.ctx.req
  let (d, es) :=
    match r.callback with
    | none => (d, [])
    | some _ =>
        -- the state is still `Stop` or `Error`: what the callback submits is only queued
        let (d, es) := d.submitAll nested
        (d, Effect.callback r ok :: es)
  let (d, es') := (d.setState .idle).startNext
  (d, es ++ Effect.finished r :: es')

/-- The `Tx` case. -/
def irqTx (d : TwiDriver) (isr : Isr) : TwiDriver × List Effect :=
  if isr.txis then
    let i := d.ctx.txPos
    let e := Effect.txRead i (d.ctx.req.tx i.toNat)
    let d := { d with ctx := { d.ctx with txPos := i + 1 } }
    if d.ctx.txPos ≥ d.ctx.req.txLen then
      if d.ctx.req.rxLen ≠ 0 then
        ({ d with ctx := { d.ctx with state := .start, timeout := timeoutMs } },
          [e, .cr2 (restartWord d.ctx.req)])
      else (d.setState .stop, [e])
    else (d, [e])
  else (d, [])

/-- The `Rx` case; `rxdr` is the byte in the receive register. -/
def irqRx (d : TwiDriver) (isr : Isr) (rxdr : UInt8) : TwiDriver × List Effect :=
  if isr.rxne then
    let i := d.ctx.rxPos
    let d := { d with ctx := { d.ctx with rxPos := i + 1 } }
    if d.ctx.rxPos ≥ d.ctx.req.rxLen then (d.setState .stop, [.rxWrite i rxdr])
    else (d, [.rxWrite i rxdr])
  else (d, [])

/-- The `Stop` and `Error` cases. -/
def irqEnd (d : TwiDriver) (ok : Bool) (nested : List Request) : TwiDriver × List Effect :=
  let (d, es) := d.finish ok nested
  (d, .stop :: es)

/-- The default case, for `Start` and for `Idle`. -/
def irqDefault (d : TwiDriver) (isr : Isr) : TwiDriver × List Effect :=
  if isr.txis then (d.setState .tx, [])
  else if isr.rxne then (d.setState .rx, [])
  else (d, [])

def irq (d : TwiDriver) (isr : Isr) (rxdr : UInt8) (nested : List Request) :
    TwiDriver × List Effect :=
  -- the error flags come before the state, and overrule `Idle` too
  let d := if isr.nackf ∨ isr.berr then d.setState .error else d
  match d.ctx.state with
  | .tx    => d.irqTx isr
  | .rx    => d.irqRx isr rxdr
  | .stop  => d.irqEnd true nested
  | .error => d.irqEnd false nested
  | .idle | .start => d.irqDefault isr

/-! ## The timeout -/

def tick1ms (d : TwiDriver) : TwiDriver :=
  if d.ctx.state = .idle then d
  else if d.ctx.timeout > 0 then
    let d := { d with ctx := { d.ctx with timeout := d.ctx.timeout - 1 } }
    if d.ctx.timeout = 0 then d.setState .error else d
  else d

/-! ## The driver as a machine -/

/-- What can happen to the driver, in any order. -/
inductive Input where
  | submit (r : Request)
  | irq (isr : Isr) (rxdr : UInt8) (nested : List Request)
  | tick

def step (d : TwiDriver) : Input → TwiDriver × List Effect
  | .submit r              => d.submit r
  | .irq isr rxdr nested   => d.irq isr rxdr nested
  | .tick                  => (d.tick1ms, [])

end TwiDriver
end Thermostat
