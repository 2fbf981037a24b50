import Thermostat.App.Correctness.ControllerRuns
import Thermostat.App.Correctness.Latency
import Thermostat.Drivers.Correctness.PwmArithmetic
import Thermostat.Services.Correctness.Regulation

/-!
# `App.Correctness.HeatSource` — what keeps the heater on

The safety of the heater, stated for the whole application: about the compare register of its timer and the
reports of the sensor, in every run of the main loop.

- **`heater_sourced`**: a non-zero compare value has its source in the sample that was dispatched last. The
  sensor pushed it, and it is not above the setpoint by more than the error delta.
- **`overheat_cut`**: an overheating report switches the heater off within fifteen iterations, and it stays
  off until the sensor reports something cooler.
- **`heater_unmoved`**: nothing but samples and the keys S1 and S2 moves the compare value. In particular a
  sensor that stops reporting leaves it as it is.
-/

namespace Thermostat

open Config

namespace PwmDriver

/-- The power that is set last counts. -/
theorem setPower_setPower (d : PwmDriver) (p q : Int) : (d.setPower p).setPower q = d.setPower q := by
  unfold setPower
  by_cases hchannel : d.channel = 1
  · simp [hchannel]
  · simp [hchannel]

end PwmDriver

/-! ## The compare register follows the command -/

namespace Controller

/-- The heater is the timer `d` with the power commanded last. -/
def Wired (d : PwmDriver) (s : Controller) : Prop := s.heater = some (d.setPower s.lastPower)

variable {d : PwmDriver} {s : Controller}

theorem updateOutputsFor_wired (h : Wired d s) (st : State) : Wired d (s.updateOutputsFor st) := by
  have hheater : s.heater = some (d.setPower s.lastPower) := h
  unfold updateOutputsFor Wired
  simp only [hheater, PwmDriver.setPower_setPower]
  rfl

theorem applyState_wired (h : Wired d s) (st : State) (now : UInt32) : Wired d (s.applyState st now) := by
  unfold applyState
  apply updateOutputsFor_wired
  split_ifs <;> exact h

theorem displayCurrentTemperature_wired (h : Wired d s) : Wired d s.displayCurrentTemperature := by
  obtain ⟨_, hd⟩ := displayCurrentTemperature_eq s
  rw [hd]
  exact h

theorem updateHeld_wired (h : Wired d s) (e : Event) : Wired d (s.updateHeld e) := by
  obtain ⟨_, _, hd⟩ := updateHeld_eq s e
  rw [hd]
  exact h

theorem storeSample_wired (h : Wired d s) (e : Event) : Wired d (s.storeSample e) := by
  obtain ⟨_, _, hd⟩ := storeSample_eq s e
  rw [hd]
  exact h

theorem afterSetpointChange_wired (h : Wired d s) (now : UInt32) : Wired d (afterSetpointChange s now).1 := by
  obtain ⟨_, hd⟩ := afterSetpointChange_eq s now
  rw [hd]
  exact h

theorem perform_wired (h : Wired d s) (a : Action) (e : Event) (now : UInt32) :
    Wired d (a.perform s e now).1 := by
  cases a with
  | temperatureSample =>
      show Wired d (s.actionTemperatureSample e now).1
      have hstored := storeSample_wired h e
      rw [actionTemperatureSample_eq]
      split_ifs
      · exact hstored
      · obtain ⟨_, _, hd⟩ := regulate_eq (s.storeSample e) now
        rw [hd]
        exact hstored
  | decreaseSetpoint =>
      have hmoved : Wired d { s with setpoint := Heating.lowered s.setpoint } := h
      exact afterSetpointChange_wired hmoved now
  | increaseSetpoint =>
      have hmoved : Wired d { s with setpoint := Heating.raised s.setpoint } := h
      exact afterSetpointChange_wired hmoved now
  | pidTick => exact updateOutputsFor_wired h s.state
  | beep =>
      show Wired d (s.actionBeep e now).1
      obtain ⟨_, hd⟩ := actionBeep_eq s e now
      rw [hd]
      exact h

theorem processEvent_wired (h : Wired d s) (e : Event) (now : UInt32) : Wired d (s.processEvent e now) := by
  have hheld := updateHeld_wired h e
  rw [processEvent_eq]
  cases s.firedRow e with
  | none => exact hheld
  | some t =>
      show Wired d (t.fire (s.updateHeld e) e now)
      unfold Transition.fire
      split_ifs
      · exact applyState_wired (perform_wired hheld t.action e now) _ now
      · exact applyState_wired (perform_wired hheld t.action e now) _ now

theorem poll_wired (h : Wired d s) (now : UInt32) : Wired d (s.poll now) := by
  rw [poll_eq]
  split_ifs
  · exact applyState_wired (displayCurrentTemperature_wired h) _ now
  · exact h

end Controller

/-! ## The sample dispatched last -/

/-- `v` is the last sample of the log. -/
def LastSample (log : List Event) (v : Int) : Prop :=
  ∃ before after, log = before ++ ⟨.temperatureReady, v⟩ :: after ∧ ∀ e ∈ after, e.type ≠ .temperatureReady

namespace LastSample

variable {log : List Event} {v : Int}

theorem snoc_sample (log : List Event) (v : Int) : LastSample (log ++ [⟨.temperatureReady, v⟩]) v :=
  ⟨log, [], rfl, fun _ h => absurd h List.not_mem_nil⟩

theorem snoc (h : LastSample log v) {e : Event} (he : e.type ≠ .temperatureReady) :
    LastSample (log ++ [e]) v := by
  obtain ⟨before, after, rfl, hafter⟩ := h
  refine ⟨before, after ++ [e], List.append_assoc _ _ _, ?_⟩
  intro f hf
  rcases List.mem_append.mp hf with hmem | hmem
  · exact hafter f hmem
  · rw [List.mem_singleton.mp hmem]
    exact he

theorem mem (h : LastSample log v) : ⟨.temperatureReady, v⟩ ∈ log := by
  obtain ⟨before, after, rfl, -⟩ := h
  exact List.mem_append_right before List.mem_cons_self

/-- The last sample of a log that has got another event. -/
theorem of_snoc {e : Event} (h : LastSample (log ++ [e]) v) :
    e = ⟨.temperatureReady, v⟩ ∨ e.type ≠ .temperatureReady ∧ LastSample log v := by
  obtain ⟨before, after, hsplit, hafter⟩ := h
  rcases List.eq_nil_or_concat after with rfl | ⟨after, f, rfl⟩
  · exact Or.inl (List.singleton_inj.mp (List.append_inj' hsplit rfl).2)
  · have hsplit' : log ++ [e] = (before ++ ⟨.temperatureReady, v⟩ :: after) ++ [f] := by simpa using hsplit
    obtain ⟨hlog, hlast⟩ := List.append_inj' hsplit' rfl
    obtain rfl := List.singleton_inj.mp hlast
    refine Or.inr ⟨hafter e (by simp), before, after, hlog, ?_⟩
    exact fun d hd => hafter d (by simp [hd])

/-- Behind a sample, the last one is that sample or a later one. -/
theorem of_append {pre post : List Event} {w : Int}
    (h : LastSample (pre ++ ⟨.temperatureReady, w⟩ :: post) v) :
    ⟨.temperatureReady, v⟩ ∈ (⟨.temperatureReady, w⟩ : Event) :: post := by
  obtain ⟨before, after, hsplit, hafter⟩ := h
  rcases List.append_eq_append_iff.mp hsplit with ⟨gap, -, hgap⟩ | ⟨gap, -, hgap⟩
  · rw [hgap]
    exact List.mem_append_right gap List.mem_cons_self
  · cases gap with
    | nil =>
        rw [List.nil_append] at hgap
        rw [← hgap]
        exact List.mem_cons_self
    | cons e gap =>
        -- then the sample `w` would lie behind the last one
        have hmem : (⟨.temperatureReady, w⟩ : Event) ∈ after := by
          rw [(List.cons.inj hgap).2]
          exact List.mem_append_right gap List.mem_cons_self
        exact absurd rfl (hafter _ hmem)

end LastSample

namespace Heating

theorem origin_sample {h : Heating} {e : Event} {v : Int}
    (horigin : (h.action e).bind (·.origin e) = some (.sample v)) : e = ⟨.temperatureReady, v⟩ := by
  obtain ⟨type, w⟩ := e
  cases type with
  | temperatureReady => cases horigin; rfl
  | buttonS1 =>
      rw [action_buttonS1] at horigin
      split_ifs at horigin <;> cases horigin
  | buttonS2 =>
      rw [action_buttonS2] at horigin
      split_ifs at horigin <;> cases horigin
  | _ => cases horigin

theorem origin_none {h : Heating} {e : Event} (horigin : (h.action e).bind (·.origin e) = none) :
    e.type ≠ .temperatureReady := by
  obtain ⟨type, w⟩ := e
  rintro rfl
  cases horigin

/-- A non-zero power has its origin in the last sample of the log. -/
def Traced (h : Heating) (log : List Event) : Prop :=
  ∃ latest, h.Sourced latest ∧ ∀ v, latest = some (.sample v) → LastSample log v

theorem event_traced {h : Heating} {log : List Event} (ht : Traced h log) (e : Event) (now : UInt32) :
    Traced (h.event e now) (log ++ [e]) := by
  obtain ⟨latest, hsourced, hlast⟩ := ht
  refine ⟨_, event_sourced hsourced e now, ?_⟩
  intro v hv
  cases horigin : (h.action e).bind (·.origin e) with
  | some o =>
      rw [horigin] at hv
      obtain rfl : o = .sample v := Option.some.inj hv
      rw [origin_sample horigin]
      exact LastSample.snoc_sample log v
  | none =>
      rw [horigin] at hv
      exact (hlast v hv).snoc (origin_none horigin)

theorem poll_traced {h : Heating} {log : List Event} (ht : Traced h log) (now : UInt32) :
    Traced (h.poll now) log := by
  obtain ⟨latest, hsourced, hlast⟩ := ht
  exact ⟨latest, poll_sourced hsourced now, hlast⟩

theorem Traced.source {h : Heating} {log : List Event} (ht : Traced h log) (hon : h.power ≠ 0) :
    LastSample log h.current ∧ h.tooHot = false := by
  obtain ⟨latest, hsourced, hlast⟩ := ht
  obtain ⟨hlatest, hcool⟩ := hsourced hon
  exact ⟨hlast h.current hlatest, hcool⟩

/-! ## What leaves the power alone -/

/-- The end of the setpoint screen switches off only what is off already. -/
theorem poll_power {h : Heating} {log : List Event} (ht : Traced h log) (now : UInt32) :
    (h.poll now).power = h.power := by
  unfold poll
  split_ifs
  · cases hhot : h.tooHot with
    | true =>
        by_contra hne
        have hon : h.power ≠ 0 := fun hoff => hne hoff.symm
        rw [(ht.source hon).2] at hhot
        cases hhot
    | false => exact enter_false_power _ now
  · rfl

end Heating

namespace App

open Heating (OnGrid)

/-- The heater's timer after `Init`. -/
def heaterTimer : PwmDriver := PwmDriver.init 1 heaterPrescaler heaterArr

/-- What holds of the controller, `log` being the events dispatched so far. -/
structure HeatInv (s : Controller) (log : List Event) : Prop where
  wired : s.Wired heaterTimer
  driven : s.Driven
  sound : s.heating.Sound
  grid : OnGrid s.setpoint
  traced : s.heating.Traced log

theorem heatInv_upheld : Upheld HeatInv where
  beep _ _ _ h := ⟨h.wired, h.driven, h.sound, h.grid, h.traced⟩
  poll s log now h := by
    refine ⟨Controller.poll_wired h.wired now, Controller.feed_driven (.poll now) h.driven,
      Controller.feed_sound (.poll now) h.sound, Controller.feed_onGrid (.poll now) h.grid, ?_⟩
    rw [Controller.heating_poll]
    exact Heating.poll_traced h.traced now
  event s log e now h := by
    refine ⟨Controller.processEvent_wired h.wired e now, Controller.feed_driven (.event e now) h.driven,
      Controller.feed_sound (.event e now) h.sound, Controller.feed_onGrid (.event e now) h.grid, ?_⟩
    rw [Controller.heating_processEvent]
    exact Heating.event_traced h.traced e now

theorem heatInv_boot : HeatInv boot.ctrl [] :=
  ⟨rfl, Controller.driven_new _ _ _, Controller.sound_new _ _ _, Heating.default_onGrid,
    ⟨none, Heating.sourced_of_off rfl _, nofun⟩⟩

theorem run_heatInv (is : List Iteration) :
    HeatInv (Trace.run appLoop boot is).1.ctrl (dispatched (Trace.run appLoop boot is).2) :=
  run_ctrl_invariant heatInv_upheld heatInv_boot is

theorem HeatInv.lastPower {s : Controller} {log : List Event} (h : HeatInv s log) :
    s.lastPower = s.heating.power := Controller.lastPower_eq h.driven h.sound

/-- A non-zero compare value means a non-zero power, and that has its source. -/
theorem HeatInv.source {s : Controller} {log : List Event} (h : HeatInv s log)
    (hon : (heaterTimer.setPower s.lastPower).ccr1 ≠ 0) :
    LastSample log s.current ∧ s.current ≤ s.setpoint + controllerErrorDelta := by
  have hpower : s.heating.power ≠ 0 := by
    intro hoff
    rw [h.lastPower, hoff] at hon
    exact hon rfl
  obtain ⟨hlast, hcool⟩ := h.traced.source hpower
  exact ⟨hlast, Int.not_lt.mp (mt Controller.tooHot_iff.mpr (Bool.eq_false_iff.mp hcool))⟩

/-! ## The results -/

/-- **The heater is on for a measured sample only.** In every run of the main loop the compare value of the
    heater's timer is within its period, and if it is not zero, then the sample that was dispatched last is
    one that the sensor pushed, and it is not above the setpoint by more than the error delta. -/
theorem heater_sourced (is : List Iteration) :
    ∃ d, (Trace.run appLoop boot is).1.ctrl.heater = some d ∧ d.Bounded ∧
      (d.ccr1 ≠ 0 → ∃ v, LastSample (dispatched (Trace.run appLoop boot is).2) v ∧
        .push .sensor ⟨.temperatureReady, v⟩ true ∈ (Trace.run appLoop boot is).2 ∧
        v ≤ (Trace.run appLoop boot is).1.ctrl.setpoint + controllerErrorDelta) := by
  have hinv := run_heatInv is
  refine ⟨_, hinv.wired, PwmDriver.setPower_bounded (PwmDriver.init_bounded 47 999) _, ?_⟩
  intro hon
  obtain ⟨hlast, hcool⟩ := hinv.source hon
  exact ⟨_, hlast, sample_pushed hlast.mem, hcool⟩

/-- If the effect puts a sample into the queue, then it is too hot for every setpoint. -/
def Effect.Hot : Effect → Prop
  | .push _ e true => e.type = .temperatureReady → controllerSetpointMax + controllerErrorDelta < e.value
  | _              => True

instance : DecidablePred Effect.Hot
  | .push _ e true  =>
      inferInstanceAs (Decidable (e.type = .temperatureReady →
        controllerSetpointMax + controllerErrorDelta < e.value))
  | .push _ _ false => isTrue trivial
  | .dispatch _     => isTrue trivial
  | .iwdgReload     => isTrue trivial

/-- The log of a run in which the sensor pushes something: once fifteen more iterations are over, the sample
    is in it, and what came behind the sample was pushed later. -/
theorem sample_logged {pre post : List Iteration} {i : Iteration} {before after : List Effect} {e : Event}
    {ok : Bool} (hpush : (appLoop (Trace.run appLoop boot pre).1 i).2 = before ++ .push .sensor e ok :: after)
    (hlong : 15 ≤ post.length) :
    ∃ ahead served, dispatched (Trace.run appLoop boot (pre ++ i :: post)).2 = ahead ++ e :: served ∧
      served <+: accepted (after ++ (Trace.run appLoop (appLoop (Trace.run appLoop boot pre).1 i).1 post).2) := by
  have hpre := queueInv_run pre
  obtain rfl := sensor_first hpush
  obtain ⟨rfl, hserved⟩ := sample_served hpre.room hpush
  obtain ⟨served, hlog⟩ := hserved post hlong
  have hdispatched : dispatched (Trace.run appLoop boot (pre ++ i :: post)).2
      = accepted (Trace.run appLoop boot pre).2 ++ e :: served := by
    rw [run_split, dispatched_append, ← hlog, hpre.accounted]
    simp only [List.append_assoc, List.singleton_append]
  refine ⟨accepted (Trace.run appLoop boot pre).2, served, hdispatched, ?_⟩
  -- all that was accepted is what was dispatched, and the rest of it is queued
  have hall := (queueInv_run (pre ++ i :: post)).accounted
  rw [hdispatched, run_split, Trace.run_cons, hpush] at hall
  simp only [List.nil_append, accepted_append, accepted_push, List.cons_append, List.append_assoc] at hall
  rw [accepted_append]
  exact ⟨_, (List.cons.inj (List.append_cancel_left hall)).2.symm⟩

/-- **Overheating switches the heater off.** If the sensor pushes a sample that is too hot for every setpoint,
    and from there on such samples only, or none, then after fifteen more iterations the compare value is zero,
    and it stays zero. -/
theorem overheat_cut {pre post : List Iteration} {i : Iteration} {before after : List Effect} {v : Int}
    {ok : Bool}
    (hpush : (appLoop (Trace.run appLoop boot pre).1 i).2
      = before ++ .push .sensor ⟨.temperatureReady, v⟩ ok :: after)
    (hhot : controllerSetpointMax + controllerErrorDelta < v) (hlong : 15 ≤ post.length)
    (hstill : ∀ o ∈ after ++ (Trace.run appLoop (appLoop (Trace.run appLoop boot pre).1 i).1 post).2, o.Hot) :
    ∃ d, (Trace.run appLoop boot (pre ++ i :: post)).1.ctrl.heater = some d ∧ d.ccr1 = 0 := by
  have hinv := run_heatInv (pre ++ i :: post)
  refine ⟨_, hinv.wired, ?_⟩
  by_contra hon
  obtain ⟨hlast, hcool⟩ := hinv.source hon
  obtain ⟨ahead, served, hlog, hserved⟩ := sample_logged hpush hlong
  rw [hlog] at hlast
  -- the last sample is the one of this push, or one that was pushed later
  have hlate : controllerSetpointMax + controllerErrorDelta
      < (Trace.run appLoop boot (pre ++ i :: post)).1.ctrl.current := by
    rcases List.mem_cons.mp hlast.of_append with hsame | hmem
    · have hvalue : (Trace.run appLoop boot (pre ++ i :: post)).1.ctrl.current = v := congrArg Event.value hsame
      rw [hvalue]
      exact hhot
    · obtain ⟨p, hp⟩ := mem_accepted (hserved.subset hmem)
      exact hstill _ hp rfl
  have hmax : (Trace.run appLoop boot (pre ++ i :: post)).1.ctrl.setpoint ≤ controllerSetpointMax :=
    hinv.grid.high
  omega

/-- The frame of a DS18B20 at 110 degrees. -/
def hotFrame : List UInt8 := [0xE0, 0x06, 0x4B, 0x46, 0x7F, 0xFF, 0x0C, 0x10, 0x35]

theorem overheat_cut_flooded :
    ∃ d, (Trace.run appLoop boot (flooded ++ decoding hotFrame :: List.replicate 15 (calm []))).1.ctrl.heater
        = some d ∧ d.ccr1 = 0 := by
  have hpush : (appLoop (Trace.run appLoop boot flooded).1 (decoding hotFrame)).2
      = [] ++ .push .sensor ⟨.temperatureReady, 1100⟩ true :: [.dispatch ⟨.buttonS1, 0⟩, .iwdgReload] := by
    decide +kernel
  exact overheat_cut hpush (by decide) (Nat.le_refl 15) (by decide +kernel)

/-- What the events of `log` leave of a power `p₀`, if they are all idle. -/
structure Kept (log₀ : List Event) (p₀ : Int) (s : Controller) (log : List Event) : Prop where
  heat : HeatInv s (log₀ ++ log)
  kept : (∀ e ∈ log, Heating.Idle e) → s.heating.power = p₀

theorem kept_upheld (log₀ : List Event) (p₀ : Int) : Upheld (Kept log₀ p₀) where
  beep s log b h := ⟨heatInv_upheld.beep s _ b h.heat, h.kept⟩
  poll s log now h := by
    refine ⟨heatInv_upheld.poll s _ now h.heat, ?_⟩
    intro hidle
    rw [Controller.heating_poll, Heating.poll_power h.heat.traced]
    exact h.kept hidle
  event s log e now h := by
    have hheat := heatInv_upheld.event s _ e now h.heat
    rw [List.append_assoc] at hheat
    refine ⟨hheat, ?_⟩
    intro hidle
    rw [Controller.heating_processEvent, Heating.event_idle_power _ (hidle e List.mem_concat_self)]
    exact h.kept fun d hd => hidle d (List.mem_append_left _ hd)

/-- **Nothing but samples, S1 and S2 moves the heater.** As long as no sample is dispatched, and no hold and
    no release of S1 or S2, its timer stays as it is, be it on or off, however long that takes. -/
theorem heater_unmoved (pre : List Iteration) {post : List Iteration}
    (hidle : ∀ e ∈ dispatched (Trace.run appLoop (Trace.run appLoop boot pre).1 post).2, Heating.Idle e) :
    (Trace.run appLoop boot (pre ++ post)).1.ctrl.heater = (Trace.run appLoop boot pre).1.ctrl.heater := by
  have hstart := run_heatInv pre
  have hempty : Kept (dispatched (Trace.run appLoop boot pre).2) (Trace.run appLoop boot pre).1.ctrl.heating.power
      (Trace.run appLoop boot pre).1.ctrl [] := ⟨by rw [List.append_nil]; exact hstart, fun _ => rfl⟩
  have hend := run_ctrl_invariant (kept_upheld _ _) hempty post
  rw [List.nil_append] at hend
  rw [Trace.run_append]
  have hpower := hend.kept hidle
  rw [← hend.heat.lastPower, ← hstart.lastPower] at hpower
  rw [show (Trace.run appLoop _ post).1.ctrl.heater = _ from hend.heat.wired, hpower]
  exact hstart.wired.symm

/-- A measurement of 25 degrees. -/
def warm : List Iteration :=
  [ calm [],
    calm [.capture 500, .capture 600, .expire],
    calm [.expire],
    calm [.expire],
    calm [.capture 500, .capture 600, .expire],
    calm [.expire],
    decoding [0x90, 0x01, 0x4B, 0x46, 0x7F, 0xFF, 0x0F, 0x10, 0x66] ]

/-- The sensor is gone after one measurement, and a key is pressed: the heater stays fully on. -/
theorem heater_unmoved_gone :
    (Trace.run appLoop boot (warm ++ [calm [.expire], typed, calm [.expire], calm [.expire]])).1.ctrl.heater
      = some ⟨1, 47, 999, 999⟩ := by
  rw [heater_unmoved warm (by decide +kernel)]
  decide +kernel

end App
end Thermostat
