import Thermostat.Lib.Word

/-!
# `Utils.Button` — a debounced key

`Button<DebounceMs, HoldMs>` of `Button.hpp`, with the template's parameters. The pin is pulled up: a
pressed key reads low.
-/

namespace Thermostat

/-- `Button::Event`, named apart from the application's `Event`. -/
inductive ButtonEvent where
  | none
  | pressed
  | released
  | held
deriving DecidableEq, Repr

structure Button (debounceMs holdMs : UInt16) where
  rawState : Bool
  stableState : Bool
  lastChange : UInt32
  holdDeadline : UInt32
deriving DecidableEq, Repr

namespace Button

variable {debounceMs holdMs : UInt16}

def new : Button debounceMs holdMs := ⟨false, false, 0, 0⟩

def timeReached (now deadline : UInt32) : Bool := Word.reached now deadline

def hasElapsed (now since duration : UInt32) : Bool := Word.elapsed now since duration

/-- One sample of the pin, at the tick count `now`. -/
def tick (b : Button debounceMs holdMs) (now : UInt32) (level : Bool) :
    Button debounceMs holdMs × ButtonEvent :=
  let rawPressed := !level
  let b : Button debounceMs holdMs :=
    if rawPressed ≠ b.rawState then { b with rawState := rawPressed, lastChange := now } else b
  if b.rawState ≠ b.stableState then
    if hasElapsed now b.lastChange debounceMs.toUInt32 then
      let b : Button debounceMs holdMs := { b with stableState := b.rawState }
      if b.stableState then ({ b with holdDeadline := now + holdMs.toUInt32 }, .pressed)
      else ({ b with holdDeadline := 0 }, .released)
    else (b, .none)
  -- a deadline of 0 means that none is set, even where the clock has wrapped to it
  else if b.stableState ∧ holdMs > 0 ∧ b.holdDeadline ≠ 0 ∧ timeReached now b.holdDeadline then
    ({ b with holdDeadline := now + holdMs.toUInt32 }, .held)
  else (b, .none)

end Button
end Thermostat
