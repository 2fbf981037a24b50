import Thermostat.Services.Correctness.Runs

/-!
# `Services.Correctness.InertEvents` — events without a heating meaning

The legacy tick, the buttons S3 and S4, and the codes of S1 and S2 other than press, hold and release are
not meant to influence the heating. `inert_iff` compares two runs that differ by one such event: the powers
commanded on all later samples and setpoint changes agree, whatever follows, unless the event is a button
event taken in the error mode.

- **Where they agree** the event leaves the whole core alone (`Heating.event_inert`), and two controllers
  with the same core command the same powers for ever (`powers_congr`, a bisimulation).
- **Where they differ** the beeper's row ends the error mode without a sample. The regulator step after it
  no longer starts afresh: it integrates over the time since the button event instead of over 1 ms. One
  sample, `1000` s later and slightly below the setpoint, tells the two runs apart
  (`error_button_powers`).
-/

namespace Thermostat

open Config

namespace Controller

/-- A tick, an event of S3 or S4, or a code of S1 or S2 that is no press, hold or release. -/
def NoHeatingMeaning (e : Event) : Prop :=
  match e.type with
  | .tick100ms | .buttonS3 | .buttonS4 => True
  | .buttonS1 | .buttonS2 => e.value ≠ 0 ∧ e.value ≠ 1 ∧ e.value ≠ 2
  | _ => False

/-- One input; the effect is the power commanded, for samples and setpoint changes. -/
def powerStep (s : Controller) (i : Input) : Controller × List Int :=
  ((s.feed i).1, (s.feed i).2.map (fun _ => (s.feed i).1.lastPower))

/-- The powers commanded on the samples and setpoint changes of a run. -/
def powers (s : Controller) (is : List Input) : List Int := (Trace.run powerStep s is).2

end Controller

/-! ## The core under an inert event -/

namespace Heating

theorem hold_inert {h : Heating} {e : Event} (he : Controller.NoHeatingMeaning e) : h.hold e = h := by
  obtain ⟨type, v⟩ := e
  cases type with
  | buttonS1 => simp [hold, he.1, he.2.1]
  | buttonS2 => simp [hold, he.1, he.2.1]
  | _ => rfl

/-- An inert event is dropped or takes a beeper row. -/
theorem action_inert {h : Heating} {e : Event} (he : Controller.NoHeatingMeaning e) :
    h.action e = if e.type = .tick100ms then none else some .beep := by
  obtain ⟨type, v⟩ := e
  cases type with
  | buttonS1 => rw [action_buttonS1]; simp [he.2.1, he.2.2]
  | buttonS2 => rw [action_buttonS2]; simp [he.2.1, he.2.2]
  | none => exact he.elim
  | temperatureReady => exact he.elim
  | displayTimeout => exact he.elim
  | any => exact he.elim
  | tick100ms => rfl
  | buttonS3 => rfl
  | buttonS4 => rfl

theorem event_inert_eq {h : Heating} {e : Event} (he : Controller.NoHeatingMeaning e) (now : UInt32) :
    h.event e now = if e.type = .tick100ms then h else h.enter false now := by
  unfold event
  rw [action_inert he, hold_inert he]
  split_ifs <;> rfl

/-- Outside the error mode an inert event leaves the core alone; inside it only the tick does. -/
theorem event_inert {h : Heating} {e : Event} (he : Controller.NoHeatingMeaning e)
    (hok : h.inError = true → e.type = .tick100ms) (now : UInt32) : h.event e now = h := by
  rw [event_inert_eq he]
  by_cases htick : e.type = .tick100ms
  · rw [if_pos htick]
  · have hmode : h.inError = false := by
      cases hin : h.inError with
      | false => rfl
      | true => exact absurd (hok hin) htick
    rw [if_neg htick]
    simp [enter, hmode]

end Heating

/-! ## Controllers with the same core -/

namespace Controller

/-- Same core, and both command the power they keep. -/
def SameCore (s u : Controller) : Prop := s.heating = u.heating ∧ Driven s ∧ Driven u

theorem SameCore.lastPower {s u : Controller} (h : SameCore s u) : s.lastPower = u.lastPower := by
  obtain ⟨hcore, hs, hu⟩ := h
  have hpower : s.heaterPower = u.heaterPower := congrArg Heating.power hcore
  rw [hs.2, hu.2, hpower]

theorem feed_sameCore {s u : Controller} (h : SameCore s u) (i : Input) :
    SameCore (s.feed i).1 (u.feed i).1 ∧ (s.feed i).2 = (u.feed i).2 := by
  obtain ⟨hcore, hs, hu⟩ := h
  cases i with
  | event e now =>
      refine ⟨⟨?_, feed_driven _ hs, feed_driven _ hu⟩, ?_⟩
      · show (s.processEvent e now).heating = (u.processEvent e now).heating
        rw [heating_processEvent, heating_processEvent, hcore]
      · show (s.originOf e).toList = (u.originOf e).toList
        rw [originOf_eq, originOf_eq, hcore]
  | poll now =>
      refine ⟨⟨?_, feed_driven _ hs, feed_driven _ hu⟩, rfl⟩
      show (s.poll now).heating = (u.poll now).heating
      rw [heating_poll, heating_poll, hcore]

/-- **The core decides.** Controllers with the same core command the same powers for ever. -/
theorem powers_congr {s u : Controller} (h : SameCore s u) (is : List Input) :
    powers s is = powers u is := by
  apply Trace.run_bisim SameCore ?_ h is
  intro s u i hsu
  obtain ⟨hnext, horigin⟩ := feed_sameCore hsu i
  refine ⟨hnext, ?_⟩
  show (s.feed i).2.map _ = (u.feed i).2.map _
  rw [horigin, hnext.lastPower]

/-! ## The run that tells the difference -/

/-- A regulator step sees the two temperatures only through their difference. -/
theorem update_shift (p : PIDInt) (sp d : Int) (dt : Nat) :
    p.update sp (sp - d) dt = p.update d 0 dt := by
  unfold PIDInt.update
  rw [show sp - (sp - d) = d - 0 from by omega]

/-- The power that a sample two tenths below the setpoint asks for, from an empty regulator. -/
theorem initialPid_short : (initialPid.update 2 0 1).2 = 80 := by decide

theorem initialPid_long : (initialPid.update 2 0 1000000).2 = 1000 := by decide

/-- The power after a sample is the core's. -/
theorem powers_sample {s : Controller} (hd : Driven s) (hs : s.heating.Sound) (v : Int) (now : UInt32) :
    powers s [.event ⟨.temperatureReady, v⟩ now] = [(s.heating.sample v now).power] := by
  have horigin : s.originOf ⟨.temperatureReady, v⟩ = some (.sample v) := by rw [originOf_eq]; rfl
  show (s.originOf _).toList.map _ ++ [] = _
  rw [horigin, List.append_nil]
  exact congrArg (· :: []) (lastPower_sample hd hs v now)

/-- The sample that tells the two runs apart: two tenths below the setpoint, 1000 s after `t`. -/
def tellingSample (s : Controller) (t : UInt32) : Input :=
  .event ⟨.temperatureReady, s.setpoint - 2⟩ (t + 1000000)

end Controller

namespace Heating

theorem not_tooHot_below (h : Heating) : (h.setCurrent (h.setpoint - 2)).tooHot = false := by
  have hnot : ¬ h.setpoint - 2 > h.setpoint + controllerErrorDelta := by
    rw [show controllerErrorDelta = 30 from rfl]
    omega
  exact decide_eq_false hnot

/-- From the error mode, the sample restarts the regulator and steps it over 1 ms. -/
theorem sample_from_error {h : Heating} (hs : Sound h) (herr : h.inError = true) (now : UInt32) :
    (h.sample (h.setpoint - 2) now).power = 80 := by
  have hcool := not_tooHot_below h
  have hreset : h.pid.reset = Controller.initialPid := reset_eq_initial hs.tuned
  unfold sample decideSample
  rw [hcool, if_neg Bool.false_ne_true, enter_false_power]
  simp only [regulate, setCurrent, herr, if_true, restart, UInt32.sub_self, hreset,
    Controller.update_shift]
  exact Controller.initialPid_short

/-- With the error mode already left at `t`, it steps the regulator over the time since `t`. -/
theorem sample_after_leaving {h : Heating} (hs : Sound h) (herr : h.inError = true) (t : UInt32) :
    ((h.enter false t).sample (h.setpoint - 2) (t + 1000000)).power = 1000 := by
  have henter : h.enter false t = { h with inError := false, stamp := t } := by simp [enter, herr]
  have hcool := not_tooHot_below { h with inError := false, stamp := t }
  have hdt : t + 1000000 - t = 1000000 := by rw [UInt32.add_comm, UInt32.add_sub_cancel]
  have hpid : h.pid = Controller.initialPid := (hs.quiet herr).1
  rw [henter]
  unfold sample decideSample
  rw [hcool, if_neg Bool.false_ne_true, enter_false_power]
  simp only [regulate, setCurrent, Bool.false_eq_true, if_false, hdt, hpid, Controller.update_shift]
  exact Controller.initialPid_long

end Heating

/-! ## The law -/

namespace Controller

/-- A button event in the error mode changes the power commanded on a later sample. -/
theorem error_button_powers {s : Controller} (hd : Driven s) (hs : s.heating.Sound)
    (herr : s.state = .error) {e : Event} (he : NoHeatingMeaning e) (hbutton : e.type ≠ .tick100ms)
    (t : UInt32) :
    powers s [s.tellingSample t] = [80] ∧ powers (s.processEvent e t) [s.tellingSample t] = [1000] := by
  have hin : s.heating.inError = true := decide_eq_true herr
  have hcore : (s.processEvent e t).heating = s.heating.enter false t := by
    rw [heating_processEvent, Heating.event_inert_eq he, if_neg hbutton]
  unfold tellingSample
  constructor
  · rw [powers_sample hd hs]
    exact congrArg (· :: []) (Heating.sample_from_error hs hin _)
  · rw [powers_sample (processEvent_driven e t hd) (hcore ▸ Heating.enter_sound hs.tuned hs.low hs.high
      false t), hcore]
    exact congrArg (· :: []) (Heating.sample_after_leaving hs hin t)

/-- **When an inert event is inert.** In every reachable state: always, but for button events in the error
    mode, and then a later run shows it. -/
theorem inert_iff {s : Controller} (hreach : Reachable s) {e : Event} (he : NoHeatingMeaning e)
    (t : UInt32) :
    (∀ is, powers (s.processEvent e t) is = powers s is) ↔
      (s.state = .error → e.type = .tick100ms) := by
  obtain ⟨hd, hs⟩ := reachable_spec hreach
  constructor
  · intro hsame herr
    by_contra hbutton
    -- one sample is enough to tell the two runs apart
    obtain ⟨hwithout, hwith⟩ := error_button_powers hd hs herr he hbutton t
    have heq := hsame [s.tellingSample t]
    rw [hwithout, hwith] at heq
    exact absurd heq (by decide)
  · intro hok is
    refine powers_congr ⟨?_, processEvent_driven e t hd, hd⟩ is
    rw [heating_processEvent]
    apply Heating.event_inert he
    intro hin
    exact hok (of_decide_eq_true hin)

/-- A controller that has just measured 50 °C, which is far above its setpoint. -/
def overheated : Controller :=
  (Trace.run call (Controller.new none none (some (PwmDriver.init 1 heaterPrescaler heaterArr)))
    [.input (.event ⟨.temperatureReady, 500⟩ 0)]).1

theorem overheated_reachable : Reachable overheated := ⟨none, none, _, _, rfl⟩

/-- A tick is inert there. -/
theorem inert_iff_overheated :
    (∀ is, powers (overheated.processEvent ⟨.tick100ms, 0⟩ 1) is = powers overheated is) ↔
      (overheated.state = .error → EventType.tick100ms = .tick100ms) :=
  inert_iff overheated_reachable (e := ⟨.tick100ms, 0⟩) trivial 1

/-- A press of S3 is not: with it the next sample commands full power, without it 8 %. -/
theorem inert_fails :
    Reachable overheated ∧ NoHeatingMeaning ⟨.buttonS3, 0⟩ ∧
    powers (overheated.processEvent ⟨.buttonS3, 0⟩ 1) [.event ⟨.temperatureReady, 398⟩ 1000001] = [1000] ∧
    powers overheated [.event ⟨.temperatureReady, 398⟩ 1000001] = [80] := by
  refine ⟨⟨none, none, _, _, rfl⟩, trivial, ?_, ?_⟩ <;> decide

end Controller
end Thermostat
