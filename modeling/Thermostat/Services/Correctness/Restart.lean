import Thermostat.Services.Correctness.Gestures

/-!
# `Services.Correctness.Restart` — a restart of the regulator forgets the past

Two controllers agree on what the user can see and set, but not on what the heating so far has left behind:
the regulator's memory, the time of its last step, the power, the mode. **`restart_forgets`**: once both have
processed the same setpoint change, or the same sample that overheats, they command the same powers for
ever, call by call.

The memory is cleared in four places. Two of them leave something over: entering the error mode keeps the
time stamp of the regulator, and only leaving it sets a new one. So the cores need not become equal:
`Heating.Alike` allows the stamps to differ while the error mode lasts, and that is a bisimulation
(`feed_alike`).
-/

namespace Thermostat

open Config

/-! ## Cores that differ in a stamp nobody reads -/

namespace Heating

/-- Equal, or both in the error mode and equal up to the time stamp. -/
def Alike (h k : Heating) : Prop := h = k ∨ k.inError = true ∧ ∃ stamp, h = { k with stamp := stamp }

variable {h k : Heating}

theorem alike_of_error (k : Heating) (stamp : UInt32) (herr : k.inError = true) :
    Alike { k with stamp := stamp } k := .inr ⟨herr, stamp, rfl⟩

/-- Whatever mode comes next, the stamps are equal again or still not read. -/
theorem enter_alike (ha : Alike h k) (err : Bool) (now : UInt32) : Alike (h.enter err now) (k.enter err now) := by
  rcases ha with rfl | ⟨herr, stamp, rfl⟩
  · exact .inl rfl
  · cases err with
    | true => exact .inr ⟨rfl, stamp, rfl⟩
    -- leaving the error mode sets the stamp anew
    | false =>
        refine .inl ?_
        unfold enter
        simp [herr]

/-- In the error mode the regulator starts afresh, and so does its stamp. -/
theorem regulate_error (herr : k.inError = true) (stamp now : UInt32) :
    { k with stamp := stamp }.regulate now = k.regulate now := by
  cases k
  cases herr
  rfl

theorem sample_alike (ha : Alike h k) (v : Int) (now : UInt32) : Alike (h.sample v now) (k.sample v now) := by
  rcases ha with rfl | ⟨herr, stamp, rfl⟩
  · exact .inl rfl
  · have hhot : ({ k with stamp := stamp }.setCurrent v).tooHot = (k.setCurrent v).tooHot := rfl
    unfold sample decideSample
    rw [hhot]
    split_ifs
    · exact .inr ⟨rfl, stamp, rfl⟩
    · refine .inl ?_
      have hsame : ({ k with stamp := stamp }.setCurrent v).regulate now = (k.setCurrent v).regulate now :=
        regulate_error (k := k.setCurrent v) herr stamp now
      rw [hsame]

/-- Whatever does not read the stamp is the same for both. -/
theorem alike_read {β : Type} (f : Heating → β) (hf : ∀ k stamp, f { k with stamp := stamp } = f k)
    (ha : Alike h k) : f h = f k := by
  rcases ha with rfl | ⟨-, stamp, rfl⟩
  · rfl
  · exact hf k stamp

theorem changeSetpoint_alike (ha : Alike h k) (sp : Int) (now : UInt32) :
    h.changeSetpoint sp now = k.changeSetpoint sp now :=
  alike_read (fun h => h.changeSetpoint sp now) (fun _ _ => rfl) ha

theorem hold_alike (ha : Alike h k) (e : Event) : Alike (h.hold e) (k.hold e) := by
  rcases ha with rfl | ⟨herr, stamp, rfl⟩
  · exact .inl rfl
  · have hin : (k.hold e).inError = true := by
      unfold hold
      cases e.type <;> exact herr
    refine .inr ⟨hin, stamp, ?_⟩
    unfold hold
    cases e.type <;> rfl

theorem action_alike (ha : Alike h k) (e : Event) : h.action e = k.action e :=
  alike_read (fun h => h.action e) (fun _ _ => rfl) ha

theorem alike_setpoint (ha : Alike h k) : h.setpoint = k.setpoint :=
  alike_read Heating.setpoint (fun _ _ => rfl) ha

theorem alike_current (ha : Alike h k) : h.current = k.current :=
  alike_read Heating.current (fun _ _ => rfl) ha

theorem alike_power (ha : Alike h k) : h.power = k.power :=
  alike_read Heating.power (fun _ _ => rfl) ha

theorem alike_screen (ha : Alike h k) : h.showing = k.showing ∧ h.deadline = k.deadline :=
  ⟨alike_read Heating.showing (fun _ _ => rfl) ha, alike_read Heating.deadline (fun _ _ => rfl) ha⟩

theorem event_alike (ha : Alike h k) (e : Event) (now : UInt32) : Alike (h.event e now) (k.event e now) := by
  have hheld := hold_alike ha e
  unfold event
  rw [action_alike ha, alike_setpoint ha]
  cases k.action e with
  | none => exact hheld
  | some a =>
      cases a with
      | temperatureSample => exact sample_alike hheld e.value now
      | decreaseSetpoint => exact .inl (changeSetpoint_alike hheld _ now)
      | increaseSetpoint => exact .inl (changeSetpoint_alike hheld _ now)
      | pidTick => exact hheld
      | beep => exact enter_alike hheld false now

theorem poll_alike (ha : Alike h k) (now : UInt32) : Alike (h.poll now) (k.poll now) := by
  rcases ha with rfl | ⟨herr, stamp, rfl⟩
  · exact .inl rfl
  · unfold poll
    simp only
    split_ifs
    · exact enter_alike (alike_of_error { k with showing := false } stamp herr) _ now
    · exact alike_of_error k stamp herr

/-- **The stamp of the error mode is never read.** -/
theorem feed_alike (ha : Alike h k) (i : Controller.Input) : Alike (h.feed i) (k.feed i) := by
  cases i with
  | event e now => exact event_alike ha e now
  | poll now => exact poll_alike ha now

/-! ### What a restart forgets -/

/-- Equal but for what the heating so far has left behind; the regulators are of the same tuning. -/
def SameScreen (h k : Heating) : Prop :=
  ∃ pid stamp power inError,
    h = { k with pid := pid, stamp := stamp, power := power, inError := inError } ∧
    pid.reset = k.pid.reset

theorem hold_sameScreen (hk : SameScreen h k) (e : Event) : SameScreen (h.hold e) (k.hold e) := by
  obtain ⟨pid, stamp, power, inError, rfl, hreset⟩ := hk
  refine ⟨pid, stamp, power, inError, ?_, ?_⟩
  · unfold hold
    cases e.type <;> rfl
  · unfold hold
    cases e.type <;> exact hreset

/-- A setpoint change leaves no difference. -/
theorem changeSetpoint_forgets (hk : SameScreen h k) (sp : Int) (now : UInt32) :
    h.changeSetpoint sp now = k.changeSetpoint sp now := by
  obtain ⟨pid, stamp, power, inError, rfl, hreset⟩ := hk
  have hhot : (({ k with pid := pid, stamp := stamp, power := power, inError := inError }.showSetpoint
      sp now).restart now).tooHot = ((k.showSetpoint sp now).restart now).tooHot := rfl
  unfold changeSetpoint
  simp only [hhot]
  cases ((k.showSetpoint sp now).restart now).tooHot with
  | true => simp [enter, restart, showSetpoint, hreset]
  | false =>
      cases inError <;> cases hin : k.inError <;> simp [enter, restart, showSetpoint, hreset, hin]

/-- A sample that overheats leaves a difference in the stamp only. -/
theorem sample_forgets (hk : SameScreen h k) {v : Int} (hhot : (k.setCurrent v).tooHot = true)
    (now : UInt32) : Alike (h.sample v now) (k.sample v now) := by
  obtain ⟨pid, stamp, power, inError, rfl, hreset⟩ := hk
  have hhot' : ({ k with pid := pid, stamp := stamp, power := power, inError := inError }.setCurrent
      v).tooHot = true := hhot
  unfold sample decideSample
  rw [if_pos hhot, if_pos hhot']
  refine .inr ⟨rfl, stamp, ?_⟩
  simp [enter, setCurrent, hreset]

end Heating

/-! ## What is commanded -/

namespace Controller

@[simp] theorem storeSample_log (s : Controller) (e : Event) :
    (s.storeSample e).heaterLog = s.heaterLog := by
  obtain ⟨_, _, h⟩ := storeSample_eq s e
  rw [h]

@[simp] theorem regulate_log (s : Controller) (now : UInt32) :
    (s.regulate now).heaterLog = s.heaterLog := by
  obtain ⟨_, _, h⟩ := regulate_eq s now
  rw [h]

@[simp] theorem afterSetpointChange_log (s : Controller) (now : UInt32) :
    (afterSetpointChange s now).1.heaterLog = s.heaterLog := by
  obtain ⟨_, h⟩ := afterSetpointChange_eq s now
  rw [h]

@[simp] theorem actionBeep_log (s : Controller) (e : Event) (now : UInt32) :
    (s.actionBeep e now).1.heaterLog = s.heaterLog := by
  obtain ⟨_, h⟩ := actionBeep_eq s e now
  rw [h]

@[simp] theorem updateHeld_log (s : Controller) (e : Event) : (s.updateHeld e).heaterLog = s.heaterLog := by
  obtain ⟨_, _, h⟩ := updateHeld_eq s e
  rw [h]

@[simp] theorem updateHeld_heater (s : Controller) (e : Event) : (s.updateHeld e).heater = s.heater := by
  obtain ⟨_, _, h⟩ := updateHeld_eq s e
  rw [h]

@[simp] theorem displayCurrentTemperature_log (s : Controller) :
    s.displayCurrentTemperature.heaterLog = s.heaterLog := by
  obtain ⟨_, h⟩ := displayCurrentTemperature_eq s
  rw [h]

@[simp] theorem displayCurrentTemperature_heater (s : Controller) :
    s.displayCurrentTemperature.heater = s.heater := by
  obtain ⟨_, h⟩ := displayCurrentTemperature_eq s
  rw [h]

/-- The actions command nothing themselves, but for the legacy tick. -/
theorem perform_log {a : Action} (ha : a ≠ .pidTick) (s : Controller) (e : Event) (now : UInt32) :
    (a.perform s e now).1.heaterLog = s.heaterLog := by
  cases a with
  | temperatureSample =>
      show (s.actionTemperatureSample e now).1.heaterLog = _
      rw [actionTemperatureSample_eq]
      split_ifs
      · exact storeSample_log s e
      · exact (regulate_log _ now).trans (storeSample_log s e)
  | decreaseSetpoint => exact afterSetpointChange_log _ now
  | increaseSetpoint => exact afterSetpointChange_log _ now
  | pidTick => exact absurd rfl ha
  | beep => exact actionBeep_log s e now

/-- Applying a mode commands the kept power, cut to its range. -/
theorem applyState_log {s : Controller} (hheater : s.heater.isSome = true) (st : State) (now : UInt32) :
    (s.applyState st now).heaterLog
      = Word.clamp (s.applyState st now).heaterPower 0 1000 :: s.heaterLog := by
  obtain ⟨h, hh⟩ := Option.isSome_iff_exists.mp hheater
  unfold applyState updateOutputsFor
  by_cases herr : st = .error
  · simp [herr, hh, Word.clamp]
  · by_cases hprev : s.state = .error <;> simp [herr, hprev, hh, Word.clamp]

theorem updateOutputsFor_log {s : Controller} (hheater : s.heater.isSome = true) {st : State}
    (hst : st ≠ .error) :
    (s.updateOutputsFor st).heaterLog = Word.clamp s.heaterPower 0 1000 :: s.heaterLog := by
  obtain ⟨h, hh⟩ := Option.isSome_iff_exists.mp hheater
  unfold updateOutputsFor
  simp [hst, hh, Word.clamp]

/-- How often an event, and a poll, command a power. -/
def eventCommands (s : Controller) (e : Event) : Nat :=
  if e.type = .tick100ms then if s.state = .idle ∨ s.state = .heating then 2 else 0
  else if (s.heating.action e).isSome then 1 else 0

def pollCommands (s : Controller) (now : UInt32) : Nat :=
  if s.heating.showing ∧ Word.reached now s.heating.deadline = true then 1 else 0

theorem processEvent_log {s : Controller} (hheater : s.heater.isSome = true) (e : Event) (now : UInt32) :
    (s.processEvent e now).heaterLog
      = List.replicate (s.eventCommands e) (Word.clamp (s.processEvent e now).heaterPower 0 1000)
        ++ s.heaterLog := by
  unfold eventCommands
  by_cases htick : e.type = .tick100ms
  · rw [processEvent_tick s e now htick, if_pos htick]
    split_ifs with hmode
    · have hne : s.state ≠ .error := by rcases hmode with h | h <;> simp [h]
      have hattached : (s.updateOutputsFor s.state).heater.isSome = true := by
        rw [updateOutputsFor_heater, hheater]
      -- the tick leaves the kept power alone, and commands it twice
      have hpower : ((s.updateOutputsFor s.state).applyState s.state now).heaterPower = s.heaterPower := by
        have hcore := applyState_heating (s.updateOutputsFor s.state) s.state now
        rw [updateOutputsFor_heating, decide_eq_false hne] at hcore
        exact (congrArg Heating.power hcore).trans (Heating.enter_false_power s.heating now)
      rw [applyState_log hattached, updateOutputsFor_log hheater hne, hpower]
      rfl
    · rfl
  · rw [processEvent_action s e now htick, if_neg htick]
    cases hact : s.heating.action e with
    | none => exact updateHeld_log s e
    | some a =>
        have hattached : (s.updateHeld e).heater.isSome = true := by rw [updateHeld_heater, hheater]
        have hne : a ≠ .pidTick := fun h => action_ne_pidTick _ e (h ▸ hact)
        have hlog := (perform_log hne (s.updateHeld e) e now).trans (updateHeld_log s e)
        have happly := applyState_log (perform_heater a (s.updateHeld e) e now hattached)
        rw [hlog] at happly
        cases a <;> exact happly _ now

theorem poll_log {s : Controller} (hheater : s.heater.isSome = true) (now : UInt32) :
    (s.poll now).heaterLog
      = List.replicate (s.pollCommands now) (Word.clamp (s.poll now).heaterPower 0 1000)
        ++ s.heaterLog := by
  unfold pollCommands
  rw [poll_eq]
  by_cases hend : s.showingSetpoint = true ∧ timeReached now s.setpointDisplayDeadline = true
  · have hend' : s.heating.showing = true ∧ Word.reached now s.heating.deadline = true := hend
    have hattached : s.displayCurrentTemperature.heater.isSome = true := by
      rw [displayCurrentTemperature_heater, hheater]
    rw [if_pos hend, if_pos hend', applyState_log hattached, displayCurrentTemperature_log]
    rfl
  · have hend' : ¬ (s.heating.showing = true ∧ Word.reached now s.heating.deadline = true) := hend
    rw [if_neg hend, if_neg hend']
    rfl

/-- How often a call commands a power. -/
def commandCount (s : Controller) : Input → Nat
  | .event e _ => s.eventCommands e
  | .poll now  => s.pollCommands now

/-- **What a call commands**: the power it leaves, once or twice, or nothing. -/
theorem feed_log {s : Controller} (hheater : s.heater.isSome = true) (i : Input) :
    (s.feed i).1.heaterLog
      = List.replicate (s.commandCount i) (Word.clamp (s.feed i).1.heaterPower 0 1000) ++ s.heaterLog := by
  cases i with
  | event e now => exact processEvent_log hheater e now
  | poll now => exact poll_log hheater now

/-! ## Two controllers -/

/-- Alike in the core, in the same mode, and each commanding the power it keeps. -/
structure Alike (s u : Controller) : Prop where
  core : s.heating.Alike u.heating
  state : s.state = u.state
  driven : Driven s
  driven' : Driven u

variable {s u : Controller}

theorem Alike.commandCount (h : Alike s u) (i : Input) : s.commandCount i = u.commandCount i := by
  cases i with
  | event e now =>
      show s.eventCommands e = u.eventCommands e
      unfold eventCommands
      rw [h.state, Heating.action_alike h.core]
  | poll now =>
      obtain ⟨hshow, hdeadline⟩ := Heating.alike_screen h.core
      show s.pollCommands now = u.pollCommands now
      unfold pollCommands
      rw [hshow, hdeadline]

theorem Alike.feed (h : Alike s u) (i : Input) : Alike (s.feed i).1 (u.feed i).1 := by
  have hcore : (s.feed i).1.heating.Alike (u.feed i).1.heating := by
    rw [feed_heating, feed_heating]
    exact Heating.feed_alike h.core i
  have hmode : (s.feed i).1.evaluateState = (u.feed i).1.evaluateState := by
    rw [evaluateState_eq, evaluateState_eq]
    exact Heating.mode_congr (Heating.alike_setpoint hcore) (Heating.alike_current hcore)
  refine ⟨hcore, ?_, feed_driven i h.driven, feed_driven i h.driven'⟩
  cases i with
  | event e now =>
      show (s.processEvent e now).state = (u.processEvent e now).state
      change (s.processEvent e now).evaluateState = (u.processEvent e now).evaluateState at hmode
      rw [state_processEvent, state_processEvent, Heating.action_alike h.core, hmode, h.state]
  | poll now =>
      obtain ⟨hshow, hdeadline⟩ := Heating.alike_screen h.core
      show (s.poll now).state = (u.poll now).state
      change (s.poll now).evaluateState = (u.poll now).evaluateState at hmode
      rw [state_poll, state_poll, hshow, hdeadline, hmode, h.state]

/-- The same powers are appended to two logs. -/
def SameCommands (s s' u u' : Controller) : Prop :=
  ∃ commands, s'.heaterLog = commands ++ s.heaterLog ∧ u'.heaterLog = commands ++ u.heaterLog

theorem SameCommands.trans {s s' s'' u u' u'' : Controller} (h : SameCommands s s' u u')
    (h' : SameCommands s' s'' u' u'') : SameCommands s s'' u u'' := by
  obtain ⟨cs, hs, hu⟩ := h
  obtain ⟨ds, hs', hu'⟩ := h'
  refine ⟨ds ++ cs, ?_, ?_⟩
  · rw [hs', hs, List.append_assoc]
  · rw [hu', hu, List.append_assoc]

/-- A call commands the same in two controllers that run equally often and end with the same power. -/
theorem feed_sameCommands (hs : s.heater.isSome = true) (hu : u.heater.isSome = true) {i : Input}
    (hcount : s.commandCount i = u.commandCount i)
    (hpower : (s.feed i).1.heaterPower = (u.feed i).1.heaterPower) :
    SameCommands s (s.feed i).1 u (u.feed i).1 := by
  refine ⟨_, feed_log hs i, ?_⟩
  rw [feed_log hu i, hcount, hpower]

/-- **Alike controllers command the same powers for ever.** -/
theorem Alike.run (h : Alike s u) (is : List Input) :
    SameCommands s (Trace.run Controller.feed s is).1 u (Trace.run Controller.feed u is).1 := by
  induction is generalizing s u with
  | nil => exact ⟨[], rfl, rfl⟩
  | cons i is ih =>
      have hnext := h.feed i
      have hpower : (s.feed i).1.heaterPower = (u.feed i).1.heaterPower := Heating.alike_power hnext.core
      exact (feed_sameCommands h.driven.1 h.driven'.1 (h.commandCount i) hpower).trans (ih hnext)

/-! ## The restart -/

/-- Same setpoint, current temperature, hold flags and setpoint screen. The regulator's memory, its time
    stamp, the power and the mode are left open. -/
structure Agree (s u : Controller) : Prop where
  setpoint : s.setpoint = u.setpoint
  current : s.current = u.current
  s1Held : s.s1Held = u.s1Held
  s2Held : s.s2Held = u.s2Held
  showing : s.showingSetpoint = u.showingSetpoint
  deadline : s.setpointDisplayDeadline = u.setpointDisplayDeadline

/-- A button event that sets the setpoint, or a sample that overheats. -/
def Restarts (s : Controller) (e : Event) : Prop :=
  s.heating.action e = some .decreaseSetpoint ∨ s.heating.action e = some .increaseSetpoint ∨
  e.type = .temperatureReady ∧ e.value > s.setpoint + controllerErrorDelta

theorem Agree.action (h : Agree s u) (e : Event) : s.heating.action e = u.heating.action e := by
  have h1 : s.heating.s1Held = u.heating.s1Held := h.s1Held
  have h2 : s.heating.s2Held = u.heating.s2Held := h.s2Held
  unfold Heating.action
  rw [h1, h2]

theorem Agree.sameScreen (h : Agree s u) (hs : s.heating.Sound) (hu : u.heating.Sound) :
    s.heating.SameScreen u.heating := by
  obtain ⟨hsp, hcur, h1, h2, hshow, hdeadline⟩ := h
  refine ⟨s.pid, s.lastPidTimestamp, s.heaterPower, decide (s.state = .error), ?_, ?_⟩
  · simp only [heating, hsp, hcur, h1, h2, hshow, hdeadline]
  · exact (Heating.reset_eq_initial hs.tuned).trans (Heating.reset_eq_initial hu.tuned).symm

/-- After the restart the cores are alike. -/
theorem restart_core (hagree : Agree s u) (hs : s.heating.Sound) (hu : u.heating.Sound) {e : Event}
    (he : s.Restarts e) (t : UInt32) : (s.heating.event e t).Alike (u.heating.event e t) := by
  have hheld := Heating.hold_sameScreen (hagree.sameScreen hs hu) e
  have hsp : s.heating.setpoint = u.heating.setpoint := hagree.setpoint
  unfold Heating.event
  rw [← hagree.action e, hsp]
  -- a setpoint change restarts the regulator, stamp and all; overheating leaves the stamp
  rcases he with hact | hact | ⟨htype, hhot⟩
  · rw [hact]
    exact .inl (Heating.changeSetpoint_forgets hheld _ t)
  · rw [hact]
    exact .inl (Heating.changeSetpoint_forgets hheld _ t)
  · have hact : s.heating.action e = some .temperatureSample := by
      unfold Heating.action
      rw [htype]
    rw [hact]
    apply Heating.sample_forgets hheld
    have hbound : (u.heating.hold e).setpoint = s.setpoint :=
      (Heating.hold_setpoint u.heating e).trans hagree.setpoint.symm
    apply decide_eq_true
    show e.value > (u.heating.hold e).setpoint + controllerErrorDelta
    rw [hbound]
    exact hhot

theorem Restarts.acts {e : Event} (he : s.Restarts e) :
    ∃ a, s.heating.action e = some a ∧ a ≠ .beep ∧ e.type ≠ .tick100ms := by
  have htick : ∀ a, s.heating.action e = some a → e.type ≠ .tick100ms := by
    intro a hact htick
    simp [Heating.action, htick] at hact
  rcases he with hact | hact | ⟨htype, -⟩
  · exact ⟨_, hact, by simp, htick _ hact⟩
  · exact ⟨_, hact, by simp, htick _ hact⟩
  · have hact : s.heating.action e = some .temperatureSample := by
      unfold Heating.action
      rw [htype]
    exact ⟨_, hact, by simp, htick _ hact⟩

/-- **A restart forgets the past.** After the same setpoint change, or the same sample that overheats, two
    reachable controllers that agree on what the user sees command the same powers, whatever follows. -/
theorem restart_forgets (hs : Reachable s) (hu : Reachable u) (hagree : Agree s u) {e : Event}
    (he : s.Restarts e) (t : UInt32) (is : List Input) :
    SameCommands s (Trace.run feed s (.event e t :: is)).1 u (Trace.run feed u (.event e t :: is)).1 := by
  obtain ⟨hds, hss⟩ := reachable_spec hs
  obtain ⟨hdu, hsu⟩ := reachable_spec hu
  obtain ⟨a, hact, hbeep, htick⟩ := he.acts
  have hact' : u.heating.action e = some a := hagree.action e ▸ hact
  have hcore : (s.processEvent e t).heating.Alike (u.processEvent e t).heating := by
    rw [heating_processEvent, heating_processEvent]
    exact restart_core hagree hss hsu he t
  have hmode : (s.processEvent e t).evaluateState = (u.processEvent e t).evaluateState := by
    rw [evaluateState_eq, evaluateState_eq]
    exact Heating.mode_congr (Heating.alike_setpoint hcore) (Heating.alike_current hcore)
  -- both end in the mode that their setpoint and temperature call for
  have hstate : (s.processEvent e t).state = (u.processEvent e t).state := by
    rw [state_processEvent, state_processEvent, hact, hact', hmode]
    cases a with
    | beep => exact absurd rfl hbeep
    | _ => rfl
  have halike : Alike (s.processEvent e t) (u.processEvent e t) :=
    ⟨hcore, hstate, processEvent_driven e t hds, processEvent_driven e t hdu⟩
  have hcount : s.commandCount (.event e t) = u.commandCount (.event e t) := by
    show s.eventCommands e = u.eventCommands e
    unfold eventCommands
    rw [if_neg htick, if_neg htick, hact, hact']
  have hfirst : SameCommands s (s.feed (.event e t)).1 u (u.feed (.event e t)).1 :=
    feed_sameCommands hds.1 hdu.1 hcount (Heating.alike_power hcore)
  exact hfirst.trans (halike.run is)

/-- A controller that has heated for a second, and one that has been in its error mode and was taken out
    of it by a press of S3. -/
def heated : Controller :=
  (Trace.run call (Controller.new none none (some (PwmDriver.init 1 heaterPrescaler heaterArr)))
    [.init 0, .input (.event ⟨.temperatureReady, 390⟩ 1000)]).1

def recovered : Controller :=
  (Trace.run call (Controller.new none none (some (PwmDriver.init 1 heaterPrescaler heaterArr)))
    [.init 0, .input (.event ⟨.temperatureReady, 500⟩ 1000), .input (.event ⟨.buttonS3, 0⟩ 1500),
      .input (.event ⟨.temperatureReady, 390⟩ 9000)]).1

theorem restart_forgets_heated :
    SameCommands
      heated (Trace.run feed heated
        [.event ⟨.buttonS1, 1⟩ 10000, .event ⟨.temperatureReady, 388⟩ 11000]).1
      recovered (Trace.run feed recovered
        [.event ⟨.buttonS1, 1⟩ 10000, .event ⟨.temperatureReady, 388⟩ 11000]).1 := by
  have hs : Reachable heated := ⟨none, none, _, _, rfl⟩
  have hu : Reachable recovered := ⟨none, none, _, _, rfl⟩
  exact restart_forgets hs hu ⟨by decide, by decide, by decide, by decide, by decide, by decide⟩
    (.inl (by decide)) 10000 [.event ⟨.temperatureReady, 388⟩ 11000]

end Controller
end Thermostat
