import Thermostat.Lib.Clock
import Thermostat.App.AppLoop
import Thermostat.Services.Correctness.Heating

/-!
# `App.Correctness.Beep` — when a beep ends

Two paths drive the piezo: the dispatcher, on every press and release, and the beep that the controller asks
for on a press. `processEvent_beep` and `dispatchEvent_beep` say what a dispatched event does to the beeper,
through both.

The runs carry true times, and remember the last press and whether its beep is still to be ended by a poll
(`Listening`). The poll compares the counter with the end of the beep as plain numbers. That is right exactly
while the counter does not wrap between the two (`Clock.lt_right_iff`), and `beep_right_iff` carries this over
to whole runs: the beeps are right in a run iff none of its polls is parted by a wrap from the end of the beep
that it should end or keep.
-/

namespace Thermostat

open Config

/-! ## Which events ask for a beep -/

/-- The press of a button. -/
def isPress (e : Event) : Bool := App.isButton e.type ∧ e.value = 0

namespace Heating

theorem action_press (h : Heating) {e : Event} (hpress : isPress e = true) : h.action e = some .beep := by
  obtain ⟨type, value⟩ := e
  obtain ⟨hbutton, hvalue⟩ := of_decide_eq_true hpress
  change value = 0 at hvalue
  subst hvalue
  cases type <;> first | rfl | cases hbutton

theorem action_beep {h : Heating} {e : Event} (hact : h.action e = some .beep) :
    App.isButton e.type = true := by
  obtain ⟨type, value⟩ := e
  cases type <;> first | rfl | cases hact

end Heating

namespace Controller

@[simp] theorem updateHeld_beep (s : Controller) (e : Event) : (s.updateHeld e).beep = s.beep := by
  obtain ⟨_, _, h⟩ := updateHeld_eq s e
  rw [h]

@[simp] theorem applyState_beep (s : Controller) (st : State) (now : UInt32) :
    (s.applyState st now).beep = s.beep := by
  obtain ⟨_, _, _, _, _, h⟩ := applyState_eq s st now
  rw [h]

@[simp] theorem updateOutputsFor_beep (s : Controller) (st : State) :
    (s.updateOutputsFor st).beep = s.beep := by
  obtain ⟨_, _, h⟩ := updateOutputsFor_eq s st
  rw [h]

@[simp] theorem storeSample_beep (s : Controller) (e : Event) : (s.storeSample e).beep = s.beep := by
  obtain ⟨_, _, h⟩ := storeSample_eq s e
  rw [h]

@[simp] theorem regulate_beep (s : Controller) (now : UInt32) : (s.regulate now).beep = s.beep := by
  obtain ⟨_, _, h⟩ := regulate_eq s now
  rw [h]

theorem afterSetpointChange_beep (s : Controller) (now : UInt32) :
    (afterSetpointChange s now).1.beep = s.beep := by
  obtain ⟨_, h⟩ := afterSetpointChange_eq s now
  rw [h]

theorem actionBeep_beep (s : Controller) (e : Event) (now : UInt32) :
    (s.actionBeep e now).1.beep = if e.value = 0 then s.beep.map (·.requestBeep now) else s.beep := by
  unfold actionBeep
  cases hb : s.beep with
  | none => simp [hb]
  | some b =>
      simp only
      split_ifs
      · rfl
      · exact hb

/-- The actions other than the beep leave the beeper alone. -/
theorem perform_beep {a : Action} (ha : a ≠ .beep) (s : Controller) (e : Event) (now : UInt32) :
    (a.perform s e now).1.beep = s.beep := by
  cases a with
  | temperatureSample =>
      show (s.actionTemperatureSample e now).1.beep = _
      rw [actionTemperatureSample_eq]
      split_ifs
      · exact storeSample_beep s e
      · exact (regulate_beep _ now).trans (storeSample_beep s e)
  | decreaseSetpoint => exact afterSetpointChange_beep _ now
  | increaseSetpoint => exact afterSetpointChange_beep _ now
  | pidTick => exact updateOutputsFor_beep s s.state
  | beep => exact absurd rfl ha

/-- **The press of a button asks for a beep, and nothing else does**, whatever the mode. -/
theorem processEvent_beep (s : Controller) (e : Event) (now : UInt32) :
    (s.processEvent e now).beep = if isPress e then s.beep.map (·.requestBeep now) else s.beep := by
  by_cases htick : e.type = .tick100ms
  · have hno : ¬ isPress e = true := by simp [isPress, App.isButton, htick]
    rw [processEvent_tick s e now htick, if_neg hno]
    split_ifs <;> simp
  · rw [processEvent_action s e now htick]
    cases hact : s.heating.action e with
    | none =>
        have hno : ¬ isPress e = true := fun h => by
          rw [Heating.action_press _ h] at hact
          cases hact
        rw [if_neg hno]
        exact updateHeld_beep s e
    | some a =>
        by_cases hbeep : a = .beep
        · subst hbeep
          have hpress : isPress e = true ↔ e.value = 0 := by simp [isPress, Heating.action_beep hact]
          show (((s.updateHeld e).actionBeep e now).1.applyState .any now).beep = _
          rw [applyState_beep, actionBeep_beep, updateHeld_beep]
          simp only [hpress]
        · have hno : ¬ isPress e = true := fun h => by
            rw [Heating.action_press _ h] at hact
            exact hbeep (Option.some.inj hact).symm
          have hfollow : ((s.updateHeld e).follow a e now).beep = s.beep := by
            unfold follow
            rw [applyState_beep, perform_beep hbeep, updateHeld_beep]
          rw [if_neg hno]
          cases a with
          | beep => exact absurd rfl hbeep
          | temperatureSample => exact hfollow
          | decreaseSetpoint => exact hfollow
          | increaseSetpoint => exact hfollow
          | pidTick => exact hfollow

end Controller

/-! ## The beeper under a dispatched event -/

namespace BeepManager

/-- The dispatcher drives the piezo, then the controller asks for its beep. -/
def dispatched (b : BeepManager) (e : Event) (now : UInt32) : BeepManager :=
  if isPress e then { b with driver := b.driver.setPower 500 }.requestBeep now
  else if App.isButton e.type ∧ e.value = 2 then { b with driver := b.driver.setPower 0 }
  else b

end BeepManager

theorem App.dispatchEvent_beep (e : Event) (now : UInt32) (a : App) :
    (dispatchEvent e now a).1.ctrl.beep = a.ctrl.beep.map (·.dispatched e now) := by
  unfold dispatchEvent BeepManager.dispatched
  simp only [Controller.processEvent_beep]
  by_cases hbutton : App.isButton e.type = true
  · by_cases hzero : e.value = 0
    · simp [isPress, hbutton, hzero, setPiezoPower, Function.comp_def]
    · by_cases htwo : e.value = 2 <;> simp [isPress, hbutton, hzero, htwo, setPiezoPower]
  · simp [isPress, hbutton]

namespace BeepManager

/-- The beep runs until `due`, or none runs; in silence the piezo is off. -/
structure Runs (b : BeepManager) (running : Bool) : Prop where
  channel : b.driver.channel = 1
  active : b.active = running
  silent : running = false → b.driver.ccr1 = 0

theorem setPower_channel (d : PwmDriver) (power : Int) : (d.setPower power).channel = d.channel := by
  unfold PwmDriver.setPower
  simp only
  split_ifs <;> rfl

theorem setPower_zero {d : PwmDriver} (h : d.channel = 1) : (d.setPower 0).ccr1 = 0 := by
  simp [PwmDriver.setPower, h]

theorem setFrequency_channel (d : PwmDriver) (frequency : Nat) :
    (d.setFrequency frequency).channel = d.channel := by
  unfold PwmDriver.setFrequency
  split_ifs <;> rfl

theorem requestBeep_runs {b : BeepManager} (h : b.driver.channel = 1) (now : UInt32) :
    (b.requestBeep now).Runs true := by
  refine ⟨?_, rfl, fun h => by cases h⟩
  show ((b.driver.setPower Config.beepPowerPercent).setFrequency Config.beepFrequencyHz).channel = 1
  rw [setFrequency_channel, setPower_channel, h]

/-- An event that is no press lets the beep run on, or mutes it. -/
theorem dispatched_runs {b : BeepManager} {running : Bool} (h : b.Runs running) {e : Event}
    (hno : ¬ isPress e = true) (now : UInt32) :
    (b.dispatched e now).Runs running ∧ (b.dispatched e now).endTime = b.endTime := by
  obtain ⟨hchannel, hactive, hsilent⟩ := h
  unfold dispatched
  rw [if_neg hno]
  split_ifs
  · refine ⟨⟨?_, hactive, fun _ => setPower_zero hchannel⟩, rfl⟩
    exact (setPower_channel _ 0).trans hchannel
  · exact ⟨⟨hchannel, hactive, hsilent⟩, rfl⟩

/-- A poll ends the beep if it finds the counter at its end or past it. -/
theorem poll_eq {b : BeepManager} {running : Bool} (h : b.Runs running) (now : UInt32) :
    b.poll now =
      if running = true ∧ ¬ now < b.endTime then { b with driver := b.driver.setPower 0, active := false }
      else b := by
  unfold poll
  rw [h.active]
  cases running with
  | false => simp
  | true =>
      by_cases hend : now < b.endTime
      · simp [hend]
      · simp [hend]

end BeepManager

/-! ## Runs -/

namespace Beep

/-- The application, with what an observer remembers: the true time of the last call and of the last poll,
    the last press, and the press whose beep is still to be ended by a poll. -/
structure Listening where
  app : App
  clock : Nat
  lastPoll : Nat
  lastPress : Option Nat
  pending : Option Nat

/-- The calls, with the true times they are made at. -/
inductive Call where
  | dispatch (e : Event) (t : Nat)
  | poll (t : Nat)
deriving DecidableEq, Repr

def start (a : App) (t : Nat) : Listening := ⟨a, t, t, none, none⟩

/-- One call, its tick read off the counter. The first poll 50 ms or more after a press is the last one that
    the press is pending for. -/
def step (s : Listening) : Call → Listening × List Unit
  | .dispatch e t =>
      ({ s with
        app := (App.dispatchEvent e (Clock.read t) s.app).1
        clock := t
        lastPress := if isPress e then some t else s.lastPress
        pending := if isPress e then some t else s.pending }, [])
  | .poll t =>
      ({ s with
        app := (App.pollBeep (Clock.read t) s.app).1
        clock := t
        lastPoll := t
        pending := s.pending.filter (fun P => t < P + 50) }, [])

/-- Time does not run backwards, and two polls are less than `2 ^ 31` ms apart. -/
def Paced (s : Listening) : Call → Prop
  | .dispatch _ t => s.clock ≤ t
  | .poll t       => s.clock ≤ t ∧ t < s.lastPoll + 2147483648

/-- While the piezo sounds, the beeper is active, and ends at most 50 ms after the last press. -/
def Sounds (s : Listening) : Prop :=
  ∀ b ∈ s.app.ctrl.beep, b.driver.ccr1 ≠ 0 →
    b.active = true ∧ ∃ P ∈ s.lastPress, b.endTime - Clock.read P ≤ beepDurationMs

/-- The piezo is off, and the beeper inactive. -/
def Off (s : Listening) : Prop := ∀ b ∈ s.app.ctrl.beep, b.driver.ccr1 = 0 ∧ b.active = false

/-- What a call has to do: the first poll 50 ms or more after the last press ends the beep, the polls before
    it leave the beeper as it is, and the piezo sounds only during a beep. -/
def Right (s : Listening) : Call → Prop
  | .dispatch e t => Sounds (step s (.dispatch e t)).1
  | .poll t =>
      Sounds (step s (.poll t)).1 ∧
      ∀ P ∈ s.pending,
        (P + 50 ≤ t → Off (step s (.poll t)).1) ∧
        (t < P + 50 → (step s (.poll t)).1.app.ctrl.beep = s.app.ctrl.beep)

/-- The counter does not wrap between a poll and the end of the beep that the poll should end or keep. -/
def NoWrap (s : Listening) : Call → Prop
  | .dispatch _ _ => True
  | .poll t       => ∀ P ∈ s.pending, t / 4294967296 = (P + 50) / 4294967296

/-- **The invariant of the right runs**: the beeper runs exactly while a press is pending, until 50 ms after
    it, and no poll has been made since that end. -/
structure Tracks (s : Listening) : Prop where
  beeper : ∃ b, s.app.ctrl.beep = some b ∧ b.Runs s.pending.isSome ∧
    ∀ P ∈ s.pending, b.endTime = Clock.read (P + 50)
  pressed : ∀ P ∈ s.pending, s.lastPress = some P ∧ P ≤ s.clock ∧ s.lastPoll < P + 50
  polled : s.lastPoll ≤ s.clock

/-- The beeper at rest. -/
def AtRest (a : App) : Prop := ∃ b, a.ctrl.beep = some b ∧ b.Runs false

/-- The invariant in silence. -/
theorem tracks_silent {s : Listening} {b : BeepManager} (hpending : s.pending = none)
    (hb : s.app.ctrl.beep = some b) (hruns : b.Runs false) (hpolled : s.lastPoll ≤ s.clock) : Tracks s := by
  refine ⟨⟨b, hb, ?_, ?_⟩, ?_, hpolled⟩
  · rw [hpending]
    exact hruns
  · intro P hP
    rw [hpending] at hP
    cases hP
  · intro P hP
    rw [hpending] at hP
    cases hP

/-- The invariant while the beep of the press at `P` runs. -/
theorem tracks_beeping {s : Listening} {b : BeepManager} {P : Nat} (hpending : s.pending = some P)
    (hb : s.app.ctrl.beep = some b) (hruns : b.Runs true) (hend : b.endTime = Clock.read (P + 50))
    (hpressed : s.lastPress = some P ∧ P ≤ s.clock ∧ s.lastPoll < P + 50)
    (hpolled : s.lastPoll ≤ s.clock) : Tracks s := by
  refine ⟨⟨b, hb, ?_, ?_⟩, ?_, hpolled⟩
  · rw [hpending]
    exact hruns
  · intro Q hQ
    rw [hpending] at hQ
    obtain rfl : P = Q := Option.some.inj hQ
    exact hend
  · intro Q hQ
    rw [hpending] at hQ
    obtain rfl : P = Q := Option.some.inj hQ
    exact hpressed

theorem start_tracks {a : App} (h : AtRest a) (t : Nat) : Tracks (start a t) := by
  obtain ⟨b, hb, hruns⟩ := h
  exact tracks_silent rfl hb hruns (Nat.le_refl t)

theorem boot_atRest : AtRest App.boot := ⟨_, rfl, rfl, rfl, fun _ => rfl⟩

/-- Under the invariant, the piezo sounds only during a beep. -/
theorem sounds_of_tracks {s : Listening} (h : Tracks s) : Sounds s := by
  obtain ⟨⟨b, hb, hruns, hend⟩, hpressed, -⟩ := h
  intro b' hb' hsound
  obtain rfl : b = b' := Option.some.inj (hb.symm.trans hb')
  cases hpending : s.pending with
  | none =>
      rw [hpending] at hruns
      exact absurd (hruns.silent rfl) hsound
  | some P =>
      have hmem : P ∈ s.pending := hpending
      refine ⟨?_, P, (hpressed P hmem).1, ?_⟩
      · rw [hruns.active, hpending]
        rfl
      · rw [hend P hmem, UInt32.le_iff_toNat_le, Clock.sub_toNat (Nat.le_add_right P 50)]
        show (P + 50 - P) % 4294967296 ≤ 50
        omega

theorem dispatch_tracks {s : Listening} (h : Tracks s) {e : Event} {t : Nat} (hpace : s.clock ≤ t) :
    Tracks (step s (.dispatch e t)).1 := by
  obtain ⟨⟨b, hb, hruns, hend⟩, hpressed, hpolled⟩ := h
  have hbeep : (step s (.dispatch e t)).1.app.ctrl.beep = some (b.dispatched e (Clock.read t)) := by
    show (App.dispatchEvent e (Clock.read t) s.app).1.ctrl.beep = _
    rw [App.dispatchEvent_beep, hb]
    rfl
  -- a press starts the beep anew; anything else leaves its end where it was
  by_cases hpress : isPress e = true
  · have hpending : (step s (.dispatch e t)).1.pending = some t := if_pos hpress
    have hlast : (step s (.dispatch e t)).1.lastPress = some t := if_pos hpress
    have hrequest : b.dispatched e (Clock.read t)
        = { b with driver := b.driver.setPower 500 }.requestBeep (Clock.read t) := if_pos hpress
    rw [hrequest] at hbeep
    refine tracks_beeping hpending hbeep ?_ (Clock.read_add t beepDurationMs) ⟨hlast, Nat.le_refl t, ?_⟩
      (Nat.le_trans hpolled hpace)
    · apply BeepManager.requestBeep_runs
      exact (BeepManager.setPower_channel _ 500).trans hruns.channel
    · show s.lastPoll < t + 50
      omega
  · have hpending : (step s (.dispatch e t)).1.pending = s.pending := if_neg hpress
    have hlast : (step s (.dispatch e t)).1.lastPress = s.lastPress := if_neg hpress
    obtain ⟨hruns', hsame⟩ := BeepManager.dispatched_runs hruns hpress (Clock.read t)
    refine ⟨⟨_, hbeep, ?_, ?_⟩, ?_, Nat.le_trans hpolled hpace⟩
    · rw [hpending]
      exact hruns'
    · intro P hP
      rw [hpending] at hP
      rw [hsame]
      exact hend P hP
    · intro P hP
      rw [hpending] at hP
      obtain ⟨hpress', htime, hpoll⟩ := hpressed P hP
      exact ⟨hlast.trans hpress', Nat.le_trans htime hpace, hpoll⟩

/-- With no press pending, a poll finds nothing to do. -/
theorem poll_idle {s : Listening} (h : Tracks s) (hnone : s.pending = none) (t : Nat) :
    Tracks (step s (.poll t)).1 := by
  obtain ⟨⟨b, hb, hruns, -⟩, -, -⟩ := h
  rw [hnone] at hruns
  have hpending : (step s (.poll t)).1.pending = none := by
    show s.pending.filter _ = none
    rw [hnone]
    rfl
  have hbeep : (step s (.poll t)).1.app.ctrl.beep = some b := by
    show s.app.ctrl.beep.map (·.poll (Clock.read t)) = some b
    rw [hb, Option.map_some, BeepManager.poll_eq hruns, if_neg (by simp)]
  exact tracks_silent hpending hbeep hruns (Nat.le_refl t)

/-- The beeper after a poll with a press pending, as the code compares. -/
theorem poll_pending {s : Listening} (h : Tracks s) {P : Nat} (hP : P ∈ s.pending) (t : Nat) :
    ∃ b, s.app.ctrl.beep = some b ∧ b.Runs true ∧ b.endTime = Clock.read (P + 50) ∧
      (step s (.poll t)).1.app.ctrl.beep =
        some (if Clock.read t < Clock.read (P + 50) then b
          else { b with driver := b.driver.setPower 0, active := false }) := by
  obtain ⟨⟨b, hb, hruns, hend⟩, -, -⟩ := h
  have hruns' : b.Runs true := by
    rw [show s.pending = some P from hP] at hruns
    exact hruns
  refine ⟨b, hb, hruns', hend P hP, ?_⟩
  show s.app.ctrl.beep.map (·.poll (Clock.read t)) = _
  rw [hb, Option.map_some, BeepManager.poll_eq hruns', hend P hP]
  by_cases hearly : Clock.read t < Clock.read (P + 50)
  · rw [if_neg (fun hc => hc.2 hearly), if_pos hearly]
  · rw [if_pos ⟨rfl, hearly⟩, if_neg hearly]

/-- The comparison of the code is right at a poll iff the counter does not wrap before the end of the beep. -/
theorem compare_right {s : Listening} (h : Tracks s) {P t : Nat} (hP : P ∈ s.pending)
    (hpace : Paced s (.poll t)) :
    (Clock.read t < Clock.read (P + 50) ↔ t < P + 50) ↔ t / 4294967296 = (P + 50) / 4294967296 := by
  -- the last poll was before the end, so the two times are less than the counter's period apart
  obtain ⟨htime, hgap⟩ := hpace
  obtain ⟨-, hpress, hpoll⟩ := h.pressed P hP
  exact Clock.lt_right_iff (by omega) (by omega)

/-- Without a wrap, a poll does what it has to do and keeps the invariant. -/
theorem poll_right {s : Listening} (h : Tracks s) {P t : Nat} (hP : P ∈ s.pending)
    (hpace : Paced s (.poll t)) (hnowrap : t / 4294967296 = (P + 50) / 4294967296) :
    Tracks (step s (.poll t)).1 ∧ Right s (.poll t) := by
  have hcompare := (compare_right h hP hpace).mpr hnowrap
  obtain ⟨b, hb, hruns, hend, hbeep⟩ := poll_pending h hP t
  have hsome : s.pending = some P := hP
  have hpressed := h.pressed P hP
  have htracks : Tracks (step s (.poll t)).1 := by
    -- before the end the poll keeps the press pending, from the end on it clears it
    by_cases hearly : t < P + 50
    · have hpending : (step s (.poll t)).1.pending = some P := by
        show s.pending.filter _ = some P
        rw [hsome, Option.filter_some, if_pos (decide_eq_true hearly)]
      rw [if_pos (hcompare.mpr hearly)] at hbeep
      exact tracks_beeping hpending hbeep hruns hend
        ⟨hpressed.1, Nat.le_trans hpressed.2.1 hpace.1, hearly⟩ (Nat.le_refl t)
    · have hpending : (step s (.poll t)).1.pending = none := by
        show s.pending.filter _ = none
        rw [hsome, Option.filter_some, if_neg (by simpa using hearly)]
      rw [if_neg (mt hcompare.mp hearly)] at hbeep
      have hmuted : BeepManager.Runs { b with driver := b.driver.setPower 0, active := false } false := by
        refine ⟨?_, rfl, fun _ => BeepManager.setPower_zero hruns.channel⟩
        exact (BeepManager.setPower_channel _ 0).trans hruns.channel
      exact tracks_silent hpending hbeep hmuted (Nat.le_refl t)
  refine ⟨htracks, sounds_of_tracks htracks, ?_⟩
  intro Q hQ
  obtain rfl : P = Q := Option.some.inj (hsome.symm.trans hQ)
  refine ⟨?_, ?_⟩
  · intro hlate b' hb'
    rw [if_neg (mt hcompare.mp (by omega))] at hbeep
    obtain rfl := Option.some.inj (hbeep.symm.trans hb')
    exact ⟨BeepManager.setPower_zero hruns.channel, rfl⟩
  · intro hearly
    rw [if_pos (hcompare.mpr hearly)] at hbeep
    exact hbeep.trans hb.symm

/-- With a wrap, a poll either cuts the beep short or does not end it. -/
theorem poll_wrong {s : Listening} (h : Tracks s) {P t : Nat} (hP : P ∈ s.pending)
    (hright : Right s (.poll t)) : Clock.read t < Clock.read (P + 50) ↔ t < P + 50 := by
  obtain ⟨b, hb, hruns, -, hbeep⟩ := poll_pending h hP t
  obtain ⟨hends, hkeeps⟩ := hright.2 P hP
  constructor
  · intro hcode
    by_contra hlate
    -- the code takes the beep to be running still, but it has to end
    rw [if_pos hcode] at hbeep
    have hoff := (hends (Nat.le_of_not_lt hlate) b hbeep).2
    rw [hruns.active] at hoff
    cases hoff
  · intro hearly
    by_contra hcode
    -- the code takes the beep to be over, but it has to go on
    rw [if_neg hcode] at hbeep
    have hsame := (hbeep.symm.trans (hkeeps hearly)).trans hb
    have hactive := congrArg BeepManager.active (Option.some.inj hsame)
    rw [hruns.active] at hactive
    cases hactive

/-- **One call**: under the invariant it does what it has to do iff it is not parted from the end of the beep
    by a wrap. -/
theorem right_iff {s : Listening} (h : Tracks s) {c : Call} (hpace : Paced s c) :
    Right s c ↔ NoWrap s c := by
  cases c with
  | dispatch e t =>
      refine ⟨fun _ => trivial, ?_⟩
      intro _
      exact sounds_of_tracks (dispatch_tracks h hpace)
  | poll t =>
      constructor
      · intro hright P hP
        exact (compare_right h hP hpace).mp (poll_wrong h hP hright)
      · intro hnowrap
        cases hpending : s.pending with
        | none =>
            refine ⟨sounds_of_tracks (poll_idle h hpending t), ?_⟩
            intro P hP
            rw [hpending] at hP
            cases hP
        | some P => exact (poll_right h hpending hpace (hnowrap P hpending)).2

theorem step_tracks {s : Listening} (h : Tracks s) {c : Call} (hpace : Paced s c) (hnowrap : NoWrap s c) :
    Tracks (step s c).1 := by
  cases c with
  | dispatch e t => exact dispatch_tracks h hpace
  | poll t =>
      cases hpending : s.pending with
      | none => exact poll_idle h hpending t
      | some P => exact (poll_right h hpending hpace (hnowrap P hpending)).1

/-- **The beeps of a run are right exactly if the counter wraps between none of its polls and the end of the
    beep that this poll should end or keep.** -/
theorem beep_right_iff {a : App} (hrest : AtRest a) (t : Nat) {cs : List Call}
    (hpace : Trace.Along step Paced (start a t) cs) :
    Trace.Along step Right (start a t) cs ↔ Trace.Along step NoWrap (start a t) cs := by
  have hboth : Trace.Along step (fun s c => Paced s c ∧ NoWrap s c) (start a t) cs
      ↔ Trace.Along step (fun s c => Paced s c ∧ Right s c) (start a t) cs :=
    Trace.along_congr Tracks (fun s c hs hc => step_tracks hs hc.1 hc.2)
      (fun s c hs => and_congr_right (fun hp => (right_iff hs hp).symm)) (start_tracks hrest t)
  rw [Trace.along_and, Trace.along_and] at hboth
  constructor
  · intro hright
    exact (hboth.mpr ⟨hpace, hright⟩).2
  · intro hnowrap
    exact (hboth.mp ⟨hpace, hnowrap⟩).2

theorem beep_right_pressed :
    Trace.Along step Right (start App.boot 0)
      [.poll 5, .dispatch ⟨.buttonS3, 0⟩ 10, .poll 59, .dispatch ⟨.buttonS3, 2⟩ 60, .poll 61] := by
  refine (beep_right_iff boot_atRest 0 ?_).mpr ?_
  · simp [Trace.Along, Paced, step, start]
  · simp [Trace.Along, NoWrap, step, start, isPress, App.isButton]

/-- Ten milliseconds before the counter wraps, a beep is over after one millisecond; and a beep that is over
    just before the wrap, with its first poll behind it, sounds on. -/
theorem beep_cut_and_stuck :
    (Trace.Along step Paced (start App.boot 4294967286)
        [.dispatch ⟨.buttonS3, 0⟩ 4294967286, .poll 4294967287] ∧
      ¬ Trace.Along step Right (start App.boot 4294967286)
        [.dispatch ⟨.buttonS3, 0⟩ 4294967286, .poll 4294967287]) ∧
    Trace.Along step Paced (start App.boot 4294967196)
        [.dispatch ⟨.buttonS3, 0⟩ 4294967196, .poll 4294967301] ∧
      ¬ Trace.Along step Right (start App.boot 4294967196)
        [.dispatch ⟨.buttonS3, 0⟩ 4294967196, .poll 4294967301] := by
  refine ⟨⟨?_, ?_⟩, ?_, ?_⟩
  · simp [Trace.Along, Paced, step, start]
  · intro hright
    have hkeeps := (hright.2.1.2 4294967286 rfl).2 (by decide)
    revert hkeeps
    decide
  · simp [Trace.Along, Paced, step, start]
  · intro hright
    have hends := (hright.2.1.2 4294967196 rfl).1 (by decide) _ rfl
    revert hends
    decide

end Beep
end Thermostat
