import Thermostat.Services.Correctness.Runs

/-!
# `Services.Correctness.ModeInvariant` — which runs keep the mode meaningful

The rows of the beeper name the wildcard as their target, and the dispatcher applies whatever target a row
names. So the mode law — the mode is a real one, it is the one the temperatures call for once a sample or
a setpoint change has been processed, and a beep leaves it alone — holds of a run exactly when no event of
the run takes a beeper row (`modeLaw_iff`). Every other row keeps it, in every state.
-/

namespace Thermostat

open Config

namespace Controller

/-- One of the modes a thermostat can be in. -/
def State.Real (st : State) : Prop := st = .idle ∨ st = .heating ∨ st = .error

/-- The event finds no row but a beeper row. -/
def BeepOnly (s : Controller) (e : Event) : Prop :=
  match e.type with
  | .buttonS1 => ¬ (s.guardClickS1 e = true ∨ s.guardHeld e = true)
  | .buttonS2 => ¬ (s.guardClickS2 e = true ∨ s.guardHeld e = true)
  | .buttonS3 | .buttonS4 => True
  | _ => False

def Beeps (s : Controller) : Input → Prop
  | .event e _ => s.BeepOnly e
  | .poll _    => False

/-- The law for one state, given the origins so far. -/
structure ModeOk (s : Controller) (origins : List Origin) : Prop where
  real : s.state.Real
  follows : origins ≠ [] → s.state = s.evaluateState

/-- The law along a run: it holds after every input, and a beep leaves the mode as it was. -/
def ModeLaw (s : Controller) (is : List Input) : Prop :=
  ∀ pre i post, is = pre ++ i :: post →
    ModeOk (Trace.run feed s (pre ++ [i])).1 (Trace.run feed s (pre ++ [i])).2 ∧
    (Beeps (Trace.run feed s pre).1 i →
      (Trace.run feed s (pre ++ [i])).1.state = (Trace.run feed s pre).1.state)

/-! ## The rows an event can take -/

/-- The beeper rows are reached by the events that pass no other guard. -/
theorem beepOnly_iff (s : Controller) (e : Event) :
    s.heating.action e = some .beep ↔ s.BeepOnly e := by
  obtain ⟨type, v⟩ := e
  cases type with
  | buttonS1 =>
      rw [Heating.action_buttonS1, show s.heating.s1Held = s.s1Held from rfl]
      simp only [BeepOnly, guardClickS1, guardHeld, Bool.not_eq_true', decide_eq_true_eq]
      by_cases hheld : v = 1
      · simp [hheld]
      · by_cases hclick : v = 2 ∧ s.s1Held = false <;> simp [hheld, hclick]
  | buttonS2 =>
      rw [Heating.action_buttonS2, show s.heating.s2Held = s.s2Held from rfl]
      simp only [BeepOnly, guardClickS2, guardHeld, Bool.not_eq_true', decide_eq_true_eq]
      by_cases hheld : v = 1
      · simp [hheld]
      · by_cases hclick : v = 2 ∧ s.s2Held = false <;> simp [hheld, hclick]
  | _ => simp [Heating.action, BeepOnly]

theorem mode_real (h : Heating) : h.mode.Real := by
  unfold Heating.mode State.Real
  split_ifs <;> simp

theorem evaluateState_real (s : Controller) : s.evaluateState.Real := by
  rw [evaluateState_eq]
  exact mode_real _

/-- A state in the mode its temperatures call for satisfies the law, whatever came before. -/
theorem ModeOk.of_evaluated {s : Controller} (h : s.state = s.evaluateState) (origins : List Origin) :
    ModeOk s origins := ⟨h ▸ s.evaluateState_real, fun _ => h⟩

/-! ## One step -/

/-- A beeper row sets the wildcard, which is no mode. -/
theorem beep_not_real {s : Controller} {e : Event} (now : UInt32) (h : s.BeepOnly e) :
    ¬ (s.processEvent e now).state.Real := by
  rw [state_processEvent, (beepOnly_iff s e).mpr h]
  intro hreal
  rcases hreal with h | h | h <;> cases h

/-- Every row outside the beeper's keeps the law. -/
theorem event_modeOk {s : Controller} {origins : List Origin} {e : Event} (now : UInt32)
    (hok : ModeOk s origins) (hquiet : ¬ s.BeepOnly e) :
    ModeOk (s.processEvent e now) (origins ++ (s.originOf e).toList) := by
  have hstate := state_processEvent s e now
  cases hact : s.heating.action e with
  | none =>
      -- a dropped event moves neither the mode nor the temperatures it is compared with
      have hevent : s.heating.event e now = s.heating.hold e := by
        unfold Heating.event
        rw [hact]
      have hsame : (s.processEvent e now).evaluateState = s.evaluateState := by
        rw [evaluateState_eq, evaluateState_eq, heating_processEvent, hevent]
        refine Heating.mode_congr ?_ ?_ <;> unfold Heating.hold <;> cases e.type <;> rfl
      have hnone : s.originOf e = none := by
        rw [originOf_eq, hact]
        rfl
      rw [hact] at hstate
      rw [hnone, Option.toList_none, List.append_nil]
      refine ⟨?_, ?_⟩
      · rw [hstate]
        exact hok.real
      · intro horigin
        rw [hstate, hsame]
        exact hok.follows horigin
  | some a =>
      rw [hact] at hstate
      apply ModeOk.of_evaluated
      cases a with
      | beep => exact absurd ((beepOnly_iff s e).mp hact) hquiet
      | temperatureSample => exact hstate
      | decreaseSetpoint => exact hstate
      | increaseSetpoint => exact hstate
      | pidTick => exact hstate

theorem poll_modeOk {s : Controller} {origins : List Origin} (now : UInt32) (hok : ModeOk s origins) :
    ModeOk (s.poll now) origins := by
  by_cases hend : s.showingSetpoint = true ∧ timeReached now s.setpointDisplayDeadline = true
  · apply ModeOk.of_evaluated
    have hstate := state_poll s now
    rwa [if_pos (show s.heating.showing = true ∧ Word.reached now s.heating.deadline = true from hend)]
      at hstate
  · rw [poll_eq, if_neg hend]
    exact hok

theorem feed_modeOk (s : Controller) (origins : List Origin) (i : Input) (hok : ModeOk s origins)
    (hquiet : ¬ s.Beeps i) : ModeOk (s.feed i).1 (origins ++ (s.feed i).2) := by
  cases i with
  | event e now => exact event_modeOk now hok hquiet
  | poll now =>
      show ModeOk (s.poll now) (origins ++ [])
      rw [List.append_nil]
      exact poll_modeOk now hok

theorem feed_beep {s : Controller} {i : Input} (origins : List Origin) (h : s.Beeps i) :
    ¬ ModeOk (s.feed i).1 origins := by
  intro hok
  cases i with
  | event e now => exact beep_not_real now h hok.real
  | poll now => exact h

/-! ## Whole runs -/

theorem modeOk_new (display : Option HT1621B) (beep : Option BeepManager) (heater : Option PwmDriver) :
    ModeOk (Controller.new display beep heater) [] :=
  ⟨Or.inl rfl, fun h => absurd rfl h⟩

/-- **The mode law holds of exactly the runs without a beep.** -/
theorem modeLaw_iff (display : Option HT1621B) (beep : Option BeepManager) (heater : Option PwmDriver)
    (is : List Input) :
    ModeLaw (Controller.new display beep heater) is ↔
      Trace.Along feed (fun s i => ¬ s.Beeps i) (Controller.new display beep heater) is := by
  constructor
  · intro hlaw
    rw [Trace.along_iff_prefix]
    intro pre i post hsplit hbeep
    have hok := (hlaw pre i post hsplit).1
    rw [Trace.run_snoc] at hok
    exact feed_beep _ hbeep hok
  · intro hquiet pre i post hsplit
    have hthis := (Trace.along_iff_prefix.mp hquiet) pre i post hsplit
    refine ⟨?_, fun hbeep => absurd hbeep hthis⟩
    have hsplit' : is = (pre ++ [i]) ++ post := by simp [hsplit]
    rw [hsplit'] at hquiet
    have hpre := (Trace.along_append.mp hquiet).1
    have hinv := Trace.run_invariant_along (fun s i => ¬ s.Beeps i) ModeOk feed_modeOk
      (modeOk_new display beep heater) hpre
    rw [List.nil_append] at hinv
    exact hinv

/-- A press of S3 on a fresh controller: the mode becomes the wildcard. -/
theorem modeLaw_fails :
    ¬ ModeLaw (Controller.new none none (some (PwmDriver.init 1 heaterPrescaler heaterArr)))
      [.event ⟨.buttonS3, 0⟩ 0] := by
  intro hlaw
  have hok := (hlaw [] _ [] rfl).1.real
  revert hok
  unfold State.Real
  decide

end Controller
end Thermostat
