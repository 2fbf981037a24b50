import Thermostat.Lib.Trace
import Thermostat.Services.Correctness.Heating

/-!
# `Services.Correctness.Runs` — the controller as a machine

The entry points of the controller as the inputs of one machine, with what a step makes visible: where
the present heater power can come from. The machine's reachable states satisfy two invariants that every
later result uses:

- `Driven`: the power commanded last is the kept power, cut to `0..1000`;
- `Heating.Sound`: the core's power is in range, its regulator carries the tuning it was built with, and
  in the error mode it is off and the regulator empty.
-/

namespace Thermostat

open Config

/-! ## Inputs and origins -/

namespace Controller

/-- The calls the main loop makes once the controller is initialised. -/
inductive Input where
  | event (e : Event) (now : UInt32)
  | poll (now : UInt32)
deriving DecidableEq, Repr

inductive Call where
  | input (i : Input)
  | init (now : UInt32)
deriving DecidableEq, Repr

/-- What can have set the heater power: a sample, a setpoint change, or an initialisation. -/
inductive Origin where
  | sample (value : Int)
  | setpoint
  | init
deriving DecidableEq, Repr

/-- The origin that an action for `e` is. -/
def Action.origin (e : Event) : Action → Option Origin
  | .temperatureSample => some (.sample e.value)
  | .decreaseSetpoint | .increaseSetpoint => some .setpoint
  | .pidTick | .beep => none

/-- The origin that an event is, by the action of the row it fires. -/
def originOf (s : Controller) (e : Event) : Option Origin := (s.firedAction e).bind (·.origin e)

/-- One call; the effects are the origins. -/
def feed (s : Controller) : Input → Controller × List Origin
  | .event e now => (s.processEvent e now, (s.originOf e).toList)
  | .poll now    => (s.poll now, [])

def call (s : Controller) : Call → Controller × List Origin
  | .input i  => s.feed i
  | .init now => (s.init now, [.init])

/-- The controllers that calls can lead to, from a fresh one that has a heater. -/
def Reachable (s : Controller) : Prop :=
  ∃ display beep heater calls,
    s = (Trace.run call (Controller.new display beep (some heater)) calls).1

/-- The power commanded last; `0` when none was. -/
def lastPower (s : Controller) : Int := s.heaterLog.headD 0

/-- The origin of an event, read off the core. -/
theorem originOf_eq (s : Controller) (e : Event) :
    s.originOf e = (s.heating.action e).bind (·.origin e) := by
  unfold originOf firedAction
  by_cases htick : e.type = .tick100ms
  · have hnone : s.heating.action e = none := by simp [Heating.action, htick]
    rw [hnone, firedRow_tick s e htick]
    split_ifs <;> rfl
  · have hrow := congrArg (Option.map Prod.fst) (firedRow_eq s e htick)
    simp only [Option.map_map] at hrow
    rw [show (s.firedRow e).map (·.action) = s.heating.action e from by
      rw [← Option.map_id' (x := s.heating.action e)]; exact hrow]

end Controller

/-! ## The machine on the core -/

namespace Heating

/-- One input, seen by the core. -/
def feed (h : Heating) : Controller.Input → Heating
  | .event e now => h.event e now
  | .poll now    => h.poll now

end Heating

namespace Controller

/-- **`feed` refines the core.** -/
theorem feed_heating (s : Controller) (i : Input) : (s.feed i).1.heating = s.heating.feed i := by
  cases i with
  | event e now => exact heating_processEvent s e now
  | poll now => exact heating_poll s now

end Controller

/-! ## The outputs follow the kept power -/

namespace Controller

/-- The heater is there, and the power commanded last is the kept power cut to its range. -/
def Driven (s : Controller) : Prop :=
  s.heater.isSome = true ∧ s.lastPower = Word.clamp s.heaterPower 0 1000

theorem driven_new (display : Option HT1621B) (beep : Option BeepManager) (heater : PwmDriver) :
    Driven (Controller.new display beep (some heater)) := ⟨rfl, rfl⟩

/-- Driving the outputs establishes `Driven`; in the error mode because applying it clears the power. -/
theorem applyState_driven {s : Controller} (hheater : s.heater.isSome = true) (st : State)
    (now : UInt32) : Driven (s.applyState st now) := by
  obtain ⟨h, hh⟩ := Option.isSome_iff_exists.mp hheater
  unfold applyState updateOutputsFor Driven lastPower
  -- the outputs get 0 in the error mode, and so does the kept power; else the kept power, cut
  by_cases herr : st = .error
  · simp [herr, hh, Word.clamp]
  · by_cases hprev : s.state = .error <;> simp [herr, hprev, hh, Word.clamp]

theorem displayCurrentTemperature_driven {s : Controller} (h : Driven s) :
    Driven s.displayCurrentTemperature := by
  obtain ⟨d, hd⟩ := displayCurrentTemperature_eq s
  rw [hd]
  exact h

theorem updateHeld_driven {s : Controller} (e : Event) (h : Driven s) : Driven (s.updateHeld e) := by
  unfold updateHeld
  split_ifs <;> exact h

@[simp] theorem storeSample_heater (s : Controller) (e : Event) :
    (s.storeSample e).heater = s.heater := by
  obtain ⟨_, _, h⟩ := storeSample_eq s e
  rw [h]

@[simp] theorem regulate_heater (s : Controller) (now : UInt32) :
    (s.regulate now).heater = s.heater := by
  obtain ⟨_, _, h⟩ := regulate_eq s now
  rw [h]

@[simp] theorem afterSetpointChange_heater (s : Controller) (now : UInt32) :
    (afterSetpointChange s now).1.heater = s.heater := by
  obtain ⟨_, h⟩ := afterSetpointChange_eq s now
  rw [h]

@[simp] theorem updateOutputsFor_heater (s : Controller) (st : State) :
    (s.updateOutputsFor st).heater.isSome = s.heater.isSome := by
  unfold updateOutputsFor
  cases hh : s.heater with
  | none => simp [hh]
  | some d => rfl

@[simp] theorem actionBeep_heater (s : Controller) (e : Event) (now : UInt32) :
    (s.actionBeep e now).1.heater = s.heater := by
  obtain ⟨_, h⟩ := actionBeep_eq s e now
  rw [h]

/-- No action takes the heater away. -/
theorem perform_heater (a : Action) (s : Controller) (e : Event) (now : UInt32)
    (h : s.heater.isSome = true) : (a.perform s e now).1.heater.isSome = true := by
  cases a with
  | temperatureSample =>
      show (s.actionTemperatureSample e now).1.heater.isSome = true
      rw [actionTemperatureSample_eq]
      split_ifs
      · show (s.storeSample e).heater.isSome = true
        rw [storeSample_heater]
        exact h
      · show ((s.storeSample e).regulate now).heater.isSome = true
        rw [regulate_heater, storeSample_heater]
        exact h
  | decreaseSetpoint =>
      show (afterSetpointChange _ now).1.heater.isSome = true
      rw [afterSetpointChange_heater]
      exact h
  | increaseSetpoint =>
      show (afterSetpointChange _ now).1.heater.isSome = true
      rw [afterSetpointChange_heater]
      exact h
  | pidTick =>
      show (s.updateOutputsFor s.state).heater.isSome = true
      rw [updateOutputsFor_heater]
      exact h
  | beep =>
      show (s.actionBeep e now).1.heater.isSome = true
      rw [actionBeep_heater]
      exact h

theorem processEvent_driven {s : Controller} (e : Event) (now : UInt32) (h : Driven s) :
    Driven (s.processEvent e now) := by
  by_cases htick : e.type = .tick100ms
  · rw [processEvent_tick s e now htick]
    split_ifs
    · apply applyState_driven
      rw [updateOutputsFor_heater]
      exact h.1
    · exact h
  · have hheld : Driven (s.updateHeld e) := updateHeld_driven e h
    rw [processEvent_action s e now htick]
    cases s.heating.action e with
    | none => exact hheld
    | some a =>
        -- whatever the action did to the power, applying a mode commands it
        have hattached := perform_heater a _ e now hheld.1
        cases a <;> exact applyState_driven hattached _ now

theorem poll_driven {s : Controller} (now : UInt32) (h : Driven s) : Driven (s.poll now) := by
  unfold poll ensureDisplayTimeout
  split_ifs
  · exact h
  · exact applyState_driven (displayCurrentTemperature_driven h).1 _ now
  · exact h

theorem init_driven {s : Controller} (now : UInt32) (h : Driven s) : Driven (s.init now) := by
  rw [init_eq]
  refine displayCurrentTemperature_driven (applyState_driven ?_ _ now)
  exact h.1

theorem feed_driven {s : Controller} (i : Input) (h : Driven s) : Driven (s.feed i).1 := by
  cases i with
  | event e now => exact processEvent_driven e now h
  | poll now => exact poll_driven now h

theorem call_driven {s : Controller} (c : Call) (h : Driven s) : Driven (s.call c).1 := by
  cases c with
  | input i => exact feed_driven i h
  | init now => exact init_driven now h

end Controller

/-! ## The core invariant -/

namespace Heating

/-- The power is in range, the regulator has the tuning it was built with, and the error mode keeps the
    power off and the regulator empty. -/
structure Sound (h : Heating) : Prop where
  tuned : PIDInt.SameTuning h.pid Controller.initialPid
  low : 0 ≤ h.power
  high : h.power ≤ 1000
  quiet : h.inError = true → h.pid = Controller.initialPid ∧ h.power = 0

theorem enter_inError (h : Heating) (err : Bool) (now : UInt32) : (h.enter err now).inError = err := by
  unfold enter
  cases err with
  | true => rfl
  | false => cases hin : h.inError <;> simp [hin]

theorem enter_false_power (h : Heating) (now : UInt32) : (h.enter false now).power = h.power := by
  unfold enter
  rw [if_neg Bool.false_ne_true]
  split_ifs <;> rfl

theorem enter_false_pid (h : Heating) (now : UInt32) : (h.enter false now).pid = h.pid := by
  unfold enter
  rw [if_neg Bool.false_ne_true]
  split_ifs <;> rfl

/-- A reset regulator of the right tuning is the one the controller was built with. -/
theorem reset_eq_initial {p : PIDInt} (h : PIDInt.SameTuning p Controller.initialPid) :
    p.reset = Controller.initialPid := (PIDInt.reset_eq_of_sameTuning h).trans rfl

theorem enter_tuned {h : Heating} (ht : PIDInt.SameTuning h.pid Controller.initialPid) (err : Bool)
    (now : UInt32) : PIDInt.SameTuning (h.enter err now).pid Controller.initialPid := by
  unfold enter
  split_ifs
  · exact PIDInt.reset_sameTuning ht
  · exact ht
  · exact ht

/-- Entering a mode restores the invariant from its first three parts. -/
theorem enter_sound {h : Heating} (ht : PIDInt.SameTuning h.pid Controller.initialPid)
    (hlo : 0 ≤ h.power) (hhi : h.power ≤ 1000) (err : Bool) (now : UInt32) :
    Sound (h.enter err now) := by
  cases err with
  | true =>
      have hoff : (h.enter true now).power = 0 := rfl
      refine ⟨enter_tuned ht true now, by omega, by omega, fun _ => ⟨?_, hoff⟩⟩
      exact reset_eq_initial ht
  | false =>
      have hpower := enter_false_power h now
      refine ⟨enter_tuned ht false now, by omega, by omega, ?_⟩
      rw [enter_inError]
      intro hcontra
      cases hcontra

theorem enter_off_sound {h : Heating} (ht : PIDInt.SameTuning h.pid Controller.initialPid)
    (hoff : h.power = 0) (err : Bool) (now : UInt32) : Sound (h.enter err now) :=
  enter_sound ht (by omega) (by omega) err now

/-- The regulator's output limits are the heater's range. -/
theorem update_range {p : PIDInt} (ht : PIDInt.SameTuning p Controller.initialPid) (sp m : Int)
    (dt : Nat) : 0 ≤ (p.update sp m dt).2 ∧ (p.update sp m dt).2 ≤ 1000 := by
  have hmin : p.outMin = 0 := ht.2.2.2.1
  have hmax : p.outMax = 1000 := ht.2.2.2.2.1
  have hmem := PIDInt.update_mem (p := p) (by omega) (by omega) (by omega) sp m dt
  rw [hmin, hmax] at hmem
  exact hmem

/-- The core a regulator step starts from. -/
theorem restart_tuned {h : Heating} (ht : PIDInt.SameTuning h.pid Controller.initialPid)
    (now : UInt32) :
    PIDInt.SameTuning (if h.inError then h.restart now else h).pid Controller.initialPid := by
  split_ifs
  · exact PIDInt.reset_sameTuning ht
  · exact ht

theorem regulate_tuned {h : Heating} (ht : PIDInt.SameTuning h.pid Controller.initialPid)
    (now : UInt32) : PIDInt.SameTuning (h.regulate now).pid Controller.initialPid :=
  PIDInt.update_sameTuning (restart_tuned ht now) _ _ _

theorem regulate_range {h : Heating} (ht : PIDInt.SameTuning h.pid Controller.initialPid)
    (now : UInt32) : 0 ≤ (h.regulate now).power ∧ (h.regulate now).power ≤ 1000 :=
  update_range (restart_tuned ht now) _ _ _

theorem sample_sound {h : Heating} (hs : Sound h) (v : Int) (now : UInt32) :
    Sound (h.sample v now) := by
  have ht : PIDInt.SameTuning (h.setCurrent v).pid Controller.initialPid := hs.tuned
  unfold sample decideSample
  split_ifs
  · refine enter_off_sound ?_ rfl true now
    exact ht
  · obtain ⟨hlo, hhi⟩ := regulate_range ht now
    exact enter_sound (regulate_tuned ht now) hlo hhi false now

theorem changeSetpoint_sound {h : Heating} (hs : Sound h) (sp : Int) (now : UInt32) :
    Sound (h.changeSetpoint sp now) := by
  refine enter_off_sound ?_ rfl _ now
  exact PIDInt.reset_sameTuning hs.tuned

theorem hold_sound {h : Heating} (hs : Sound h) (e : Event) : Sound (h.hold e) := by
  obtain ⟨ht, hlo, hhi, hq⟩ := hs
  unfold hold
  cases e.type <;> exact ⟨ht, hlo, hhi, hq⟩

theorem event_sound {h : Heating} (hs : Sound h) (e : Event) (now : UInt32) :
    Sound (h.event e now) := by
  have hheld : Sound (h.hold e) := hold_sound hs e
  unfold event
  cases h.action e with
  | none => exact hheld
  | some a =>
      cases a with
      | temperatureSample => exact sample_sound hheld e.value now
      | decreaseSetpoint => exact changeSetpoint_sound hheld _ now
      | increaseSetpoint => exact changeSetpoint_sound hheld _ now
      | pidTick => exact hheld
      | beep => exact enter_sound hheld.tuned hheld.low hheld.high false now

theorem poll_sound {h : Heating} (hs : Sound h) (now : UInt32) : Sound (h.poll now) := by
  unfold poll
  split_ifs
  · have ht : PIDInt.SameTuning { h with showing := false }.pid Controller.initialPid := hs.tuned
    exact enter_sound ht hs.low hs.high _ now
  · exact hs

theorem init_sound {h : Heating} (hs : Sound h) (now : UInt32) : Sound (h.init now) := by
  refine enter_off_sound ?_ rfl false now
  exact PIDInt.reset_sameTuning hs.tuned

end Heating

/-! ## Reachable controllers -/

namespace Controller

theorem sound_new (display : Option HT1621B) (beep : Option BeepManager) (heater : Option PwmDriver) :
    (Controller.new display beep heater).heating.Sound := by
  have hoff : (Controller.new display beep heater).heating.power = 0 := rfl
  refine ⟨PIDInt.SameTuning.refl _, by omega, by omega, ?_⟩
  intro herr
  cases herr

theorem feed_sound {s : Controller} (i : Input) (h : s.heating.Sound) : (s.feed i).1.heating.Sound := by
  cases i with
  | event e now =>
      show (s.processEvent e now).heating.Sound
      rw [heating_processEvent]
      exact Heating.event_sound h e now
  | poll now =>
      show (s.poll now).heating.Sound
      rw [heating_poll]
      exact Heating.poll_sound h now

theorem call_sound {s : Controller} (c : Call) (h : s.heating.Sound) : (s.call c).1.heating.Sound := by
  cases c with
  | input i => exact feed_sound i h
  | init now =>
      show (s.init now).heating.Sound
      rw [heating_init]
      exact Heating.init_sound h now

/-- **Every reachable controller** commands the power it keeps, and its core is sound. -/
theorem reachable_spec {s : Controller} (h : Reachable s) : Driven s ∧ s.heating.Sound := by
  obtain ⟨display, beep, heater, calls, rfl⟩ := h
  refine Trace.run_state_invariant (fun s => Driven s ∧ s.heating.Sound) ?_ ?_ calls
  · intro s c hs
    exact ⟨call_driven c hs.1, call_sound c hs.2⟩
  · exact ⟨driven_new display beep heater, sound_new display beep (some heater)⟩

/-- In range, the cut changes nothing: the command is the kept power itself. -/
theorem lastPower_eq {s : Controller} (hd : Driven s) (hs : s.heating.Sound) :
    s.lastPower = s.heaterPower := by
  rw [hd.2]
  exact Word.clamp_eq_self hs.low hs.high

/-- The power commanded on a sample is the core's. -/
theorem lastPower_sample {s : Controller} (hd : Driven s) (hs : s.heating.Sound) (v : Int) (now : UInt32) :
    (s.processEvent ⟨.temperatureReady, v⟩ now).lastPower = (s.heating.sample v now).power := by
  have hcore : (s.processEvent ⟨.temperatureReady, v⟩ now).heating = s.heating.sample v now := by
    rw [heating_processEvent]
    rfl
  rw [lastPower_eq (processEvent_driven _ now hd) (hcore ▸ Heating.sample_sound hs v now), ← hcore]
  rfl

end Controller
end Thermostat
