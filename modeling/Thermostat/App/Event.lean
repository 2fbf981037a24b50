import Thermostat.Config
import Thermostat.Lib.Fifo

/-!
# `App.Event` — events and the event queue

`EventType`, `Event` and `EventQueue` of `Event.hpp`. The queue is a bounded FIFO that refuses when
full.
-/

namespace Thermostat

/-- The events the controller can handle; `any` only occurs in transition tables. -/
inductive EventType where
  | none
  | buttonS1
  | buttonS2
  | buttonS3
  | buttonS4
  | temperatureReady
  | tick100ms
  | displayTimeout
  | any
deriving DecidableEq, Repr

/-- `value` is the button code, or the temperature in tenths of a degree. -/
structure Event where
  type : EventType
  value : Int
deriving DecidableEq, Repr

abbrev EventQueue := Fifo Event Config.eventQueueMaxSize

namespace EventQueue

/-- Enqueue unless full; the flag is the source's return value. -/
def push (q : EventQueue) (ev : Event) : EventQueue × Bool := q.offer ev

/-- Dequeue the oldest event. -/
def pop (q : EventQueue) : EventQueue × Option Event :=
  match q.front with
  | Option.none => (q, Option.none)
  | some ev => (Fifo.pop q, some ev)

end EventQueue
end Thermostat
