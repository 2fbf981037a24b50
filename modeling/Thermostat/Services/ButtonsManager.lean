import Thermostat.App.Event
import Thermostat.Utils.Button

/-!
# `Services.ButtonsManager` — the four keys and their codes

`ButtonsManager` of `ButtonsManager.hpp`. The source pushes its events into the queue as it goes and
looks neither at the queue nor at the result of a push, so `poll` returns them instead, in the order of
the pushes.

The codes of a key event: `0` press, `1` hold, `2` release, `3` double click, `9` and `10` the short and
the long combination of S1 and S2.
-/

namespace Thermostat

open Config

/-- `Button<>`: the template's default debounce and hold times. -/
abbrev Key := Button 30 100

/-- What one call of `handle` reads: the clock, and then `tick`'s own clock and pin readings. -/
structure KeySample where
  now : UInt32
  tick : UInt32
  level : Bool
deriving DecidableEq, Repr

/-- What `checkCombination` reads: the clock, and the pins of S1 and S2 once more. -/
structure ComboSample where
  now : UInt32
  levelS1 : Bool
  levelS2 : Bool
deriving DecidableEq, Repr

/-- The readings of one `poll`. -/
structure KeyReadings where
  s1 : KeySample
  s2 : KeySample
  s3 : KeySample
  s4 : KeySample
  combo : ComboSample
deriving DecidableEq, Repr

/-- `comboStart` is the static variable of `checkCombination`. -/
structure ButtonsManager where
  lastRelease : Vector UInt32 4
  btnS1 : Key
  btnS2 : Key
  btnS3 : Key
  btnS4 : Key
  comboStart : UInt32
deriving DecidableEq, Repr

namespace ButtonsManager

def new : ButtonsManager := ⟨Vector.replicate 4 0, .new, .new, .new, .new, 0⟩

/-- Sample one key; the results are the key, its `lastRelease` entry and its events. -/
def handle (b : Key) (type : EventType) (lastR : UInt32) (r : KeySample) : Key × UInt32 × List Event :=
  let (b, e) := b.tick r.tick r.level
  -- a press clears the entry, so that a double click is measured from tick 0
  match e with
  | .pressed  => (b, 0, [⟨type, 0⟩])
  | .held     => (b, lastR, [⟨type, 1⟩])
  | .released =>
      (b, r.now, ⟨type, 2⟩ :: if r.now - lastR ≤ buttonsDoubleClickGapMs then [⟨type, 3⟩] else [])
  | .none     => (b, lastR, [])

/-- The results are `comboStart` and the events. -/
def checkCombination (comboStart : UInt32) (r : ComboSample) : UInt32 × List Event :=
  let s1 := !r.levelS1
  let s2 := !r.levelS2
  let now := r.now
  -- 0 stands for no combination; one that starts at tick 0 starts again at the next poll
  if s1 ∧ s2 then
    let comboStart := if comboStart = 0 then now else comboStart
    if now - comboStart > buttonsComboLongThresholdMs then (0, [⟨.buttonS1, 10⟩]) else (comboStart, [])
  else
    (0, if comboStart ≠ 0 ∧ now - comboStart < buttonsComboLongThresholdMs then [⟨.buttonS1, 9⟩] else [])

def poll (m : ButtonsManager) (r : KeyReadings) : ButtonsManager × List Event :=
  let (btnS1, last1, es1) := handle m.btnS1 .buttonS1 (m.lastRelease.get 0) r.s1
  let (btnS2, last2, es2) := handle m.btnS2 .buttonS2 (m.lastRelease.get 1) r.s2
  let (btnS3, last3, es3) := handle m.btnS3 .buttonS3 (m.lastRelease.get 2) r.s3
  let (btnS4, last4, es4) := handle m.btnS4 .buttonS4 (m.lastRelease.get 3) r.s4
  let (comboStart, es5) := checkCombination m.comboStart r.combo
  (⟨#v[last1, last2, last3, last4], btnS1, btnS2, btnS3, btnS4, comboStart⟩,
    es1 ++ es2 ++ es3 ++ es4 ++ es5)

end ButtonsManager
end Thermostat
