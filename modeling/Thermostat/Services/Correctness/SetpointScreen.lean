import Thermostat.Lib.Clock
import Thermostat.Services.Correctness.Drawing

/-!
# `Services.Correctness.SetpointScreen` — the setpoint screen ends on time

A setpoint change shows the setpoint for `controllerSetpointDisplayDurationMs`. The driver keeps the end as
a reading of a counter that wraps; here the calls carry their true times, and the screen lasts until the
first poll made at the true end or later.

Two facts carry the law. The screen and its deadline are untouched by every call that is neither a setpoint
change nor the closing poll (`Heating.event_screen`, `Heating.poll_screen`). And between the last poll before
the end and the next one lie less than `2 ^ 31` ms, so that the signed comparison of the code is the
comparison of the true times.
-/

namespace Thermostat

open Config

/-! ## The screen of the core -/

namespace Heating

/-- Whether the setpoint shows, and the reading that ends it. -/
def screen (h : Heating) : Bool × UInt32 := (h.showing, h.deadline)

theorem hold_screen (h : Heating) (e : Event) : (h.hold e).screen = h.screen := by
  unfold hold
  cases e.type <;> rfl

theorem enter_screen (h : Heating) (err : Bool) (now : UInt32) : (h.enter err now).screen = h.screen := by
  unfold enter
  split_ifs <;> rfl

theorem regulate_screen (h : Heating) (now : UInt32) : (h.regulate now).screen = h.screen := by
  unfold regulate
  split_ifs <;> rfl

theorem sample_screen (h : Heating) (v : Int) (now : UInt32) : (h.sample v now).screen = h.screen := by
  unfold sample decideSample
  split_ifs
  · exact enter_screen _ true now
  · exact (enter_screen _ false now).trans (regulate_screen _ now)

/-- The origin that an event is, in the terms of the core. -/
def originOf (h : Heating) (e : Event) : Option Controller.Origin := (h.action e).bind (·.origin e)

/-- An event that is no setpoint change leaves the screen alone. -/
theorem event_screen {h : Heating} {e : Event} (hquiet : h.originOf e ≠ some .setpoint) (now : UInt32) :
    (h.event e now).screen = h.screen := by
  unfold originOf at hquiet
  unfold event
  cases hact : h.action e with
  | none => exact hold_screen h e
  | some a =>
      rw [hact] at hquiet
      cases a with
      | temperatureSample => exact (sample_screen _ _ now).trans (hold_screen h e)
      | decreaseSetpoint => exact absurd rfl hquiet
      | increaseSetpoint => exact absurd rfl hquiet
      | pidTick => exact hold_screen h e
      | beep => exact (enter_screen _ false now).trans (hold_screen h e)

/-- A setpoint change opens the screen. -/
theorem event_opens {h : Heating} {e : Event} (hchange : h.originOf e = some .setpoint) (now : UInt32) :
    (h.event e now).screen = (true, now + controllerSetpointDisplayDurationMs) := by
  unfold originOf at hchange
  unfold event
  cases hact : h.action e with
  | none =>
      rw [hact] at hchange
      cases hchange
  | some a =>
      rw [hact] at hchange
      cases a with
      | temperatureSample => cases hchange
      | decreaseSetpoint => exact enter_screen _ _ now
      | increaseSetpoint => exact enter_screen _ _ now
      | pidTick => cases hchange
      | beep => cases hchange

theorem poll_screen (h : Heating) (now : UInt32) :
    (h.poll now).screen =
      if h.showing = true ∧ Word.reached now h.deadline = true then (false, h.deadline) else h.screen := by
  unfold poll
  split_ifs
  · exact enter_screen _ _ now
  · rfl

end Heating

namespace Controller

theorem originOf_heating (s : Controller) (e : Event) : s.originOf e = s.heating.originOf e :=
  originOf_eq s e

/-! ## Calls at true times -/

/-- A call with the true time it is made at. -/
inductive Timed where
  | event (e : Event) (t : Nat)
  | poll (t : Nat)
deriving DecidableEq, Repr

namespace Timed

/-- The call as the driver makes it, its tick read off the counter. -/
def input : Timed → Input
  | .event e t => .event e (Clock.read t)
  | .poll t    => .poll (Clock.read t)

/-- A poll that finds the time of a screen opened at `T` over. -/
def Due (T : Nat) : Timed → Prop
  | .event _ _ => False
  | .poll t    => T + 3000 ≤ t

end Timed

/-- Time does not run backwards from `last`, and between two polls, the first one after the poll at
    `lastPoll`, lie less than `2 ^ 31` ms. -/
def Paced : Nat → Nat → List Timed → Prop
  | _,    _,        []                => True
  | last, lastPoll, .event _ t :: is  => last ≤ t ∧ Paced t lastPoll is
  | last, lastPoll, .poll t :: is     => last ≤ t ∧ t < lastPoll + 2147483648 ∧ Paced t t is

/-- The controller after the calls. -/
def after (s : Controller) (is : List Timed) : Controller := (Trace.run feed s (is.map Timed.input)).1

/-- The calls change the setpoint nowhere. -/
def Quiet (s : Controller) (is : List Timed) : Prop :=
  Origin.setpoint ∉ (Trace.run feed s (is.map Timed.input)).2

theorem after_cons (s : Controller) (i : Timed) (is : List Timed) :
    s.after (i :: is) = (s.feed i.input).1.after is := rfl

theorem after_append (s : Controller) (is js : List Timed) : s.after (is ++ js) = (s.after is).after js := by
  unfold after
  rw [List.map_append, Trace.run_append]

theorem quiet_cons {s : Controller} {i : Timed} {is : List Timed} (h : Quiet s (i :: is)) :
    Origin.setpoint ∉ (s.feed i.input).2 ∧ Quiet (s.feed i.input).1 is := by
  unfold Quiet at h ⊢
  rw [List.map_cons, Trace.run_cons, List.mem_append, not_or] at h
  exact h

/-! ## One call -/

/-- The setpoint shows, and until 3000 ms after `T`. -/
def Shows (T : Nat) (s : Controller) : Prop := s.heating.screen = (true, Clock.read (T + 3000))

theorem opens_shows {s : Controller} {e : Event} (hchange : s.originOf e = some .setpoint) (T : Nat) :
    Shows T (s.processEvent e (Clock.read T)) := by
  unfold Shows
  rw [originOf_heating] at hchange
  rw [heating_processEvent, Heating.event_opens hchange, Clock.read_add]
  rfl

/-- An event that is no setpoint change neither touches the screen nor, while the setpoint shows, the
    display. -/
theorem event_shows {T : Nat} {s : Controller} {e : Event} (hs : Shows T s)
    (hquiet : s.originOf e ≠ some .setpoint) (now : UInt32) :
    Shows T (s.processEvent e now) ∧ (s.processEvent e now).display = s.display := by
  have hshow : s.showingSetpoint = true := (Prod.mk.inj hs).1
  rw [originOf_heating] at hquiet
  refine ⟨?_, ?_⟩
  · unfold Shows
    rw [heating_processEvent, Heating.event_screen hquiet]
    exact hs
  · rw [processEvent_display, hshow]
    unfold Heating.originOf at hquiet
    cases hact : s.heating.action e with
    | none => rfl
    -- a sample draws nothing while the setpoint shows
    | some a =>
        rw [hact] at hquiet
        cases a with
        | temperatureSample => rfl
        | decreaseSetpoint => exact absurd rfl hquiet
        | increaseSetpoint => exact absurd rfl hquiet
        | pidTick => rfl
        | beep => rfl

/-- Between the last poll before the end and the next one, the comparison of the code is exact. -/
theorem reached_end {T t lastPoll : Nat} (hstart : T ≤ t) (hlast : lastPoll < T + 3000)
    (hpace : t < lastPoll + 2147483648) :
    timeReached (Clock.read t) (Clock.read (T + 3000)) = true ↔ T + 3000 ≤ t :=
  Clock.reached_iff (by omega) (by omega)

/-- A poll that is not due changes nothing. -/
theorem poll_shows {T t : Nat} {s : Controller} (hs : Shows T s)
    (hnot : ¬ timeReached (Clock.read t) (Clock.read (T + 3000)) = true) : s.poll (Clock.read t) = s := by
  obtain ⟨-, hdeadline⟩ := Prod.mk.inj hs
  change s.setpointDisplayDeadline = _ at hdeadline
  rw [poll_eq, hdeadline, if_neg (fun h => hnot h.2)]

/-- The poll that is due clears the flag and draws the current temperature. -/
theorem poll_ends {T t : Nat} {s : Controller} (hs : Shows T s)
    (hdue : timeReached (Clock.read t) (Clock.read (T + 3000)) = true) :
    (s.poll (Clock.read t)).showingSetpoint = false ∧
    (s.poll (Clock.read t)).display = s.displayCurrentTemperature.display := by
  obtain ⟨hshow, hdeadline⟩ := Prod.mk.inj hs
  have hend : s.heating.showing = true ∧ Word.reached (Clock.read t) s.heating.deadline = true := by
    rw [hdeadline]
    exact ⟨hshow, hdue⟩
  refine ⟨?_, ?_⟩
  · have hscreen := Heating.poll_screen s.heating (Clock.read t)
    rw [if_pos hend, ← heating_poll] at hscreen
    exact (Prod.mk.inj hscreen).1
  · have hend' : s.showingSetpoint = true ∧
        timeReached (Clock.read t) s.setpointDisplayDeadline = true := hend
    rw [poll_eq, if_pos hend', applyState_display]

/-- Once cleared, the flag is set by setpoint changes only. -/
theorem feed_hidden {s : Controller} {i : Input} (hs : s.showingSetpoint = false)
    (hquiet : Origin.setpoint ∉ (s.feed i).2) : (s.feed i).1.showingSetpoint = false := by
  cases i with
  | event e now =>
      have hevent : s.heating.originOf e ≠ some .setpoint := by
        rw [← originOf_heating]
        intro h
        apply hquiet
        simp [feed, h]
      have hscreen := Heating.event_screen hevent now
      rw [← heating_processEvent] at hscreen
      exact (Prod.mk.inj hscreen).1.trans hs
  | poll now =>
      show (s.poll now).showingSetpoint = false
      rw [poll_eq, if_neg (by rw [hs]; simp)]
      exact hs

/-! ## Whole runs -/

theorem hidden_after {s : Controller} {is : List Timed} (hs : s.showingSetpoint = false)
    (hquiet : Quiet s is) : (s.after is).showingSetpoint = false := by
  induction is generalizing s with
  | nil => exact hs
  | cons i is ih =>
      obtain ⟨hfirst, hrest⟩ := quiet_cons hquiet
      rw [after_cons]
      exact ih (feed_hidden hs hfirst) hrest

/-- **While no poll is due**, the calls of a run leave the screen and the display as they are, and the calls
    behind them keep their pace from a last poll before the end. -/
theorem shows_after {T last lastPoll : Nat} {s : Controller} {pre post : List Timed} (hs : Shows T s)
    (hstart : T ≤ last) (hlast : lastPoll < T + 3000) (hpaced : Paced last lastPoll (pre ++ post))
    (hquiet : Quiet s (pre ++ post)) (hpre : ∀ i ∈ pre, ¬ i.Due T) :
    Shows T (s.after pre) ∧ (s.after pre).display = s.display ∧ Quiet (s.after pre) post ∧
    ∃ last' lastPoll', T ≤ last' ∧ lastPoll' < T + 3000 ∧ Paced last' lastPoll' post := by
  induction pre generalizing s last lastPoll with
  | nil => exact ⟨hs, rfl, hquiet, last, lastPoll, hstart, hlast, hpaced⟩
  | cons i pre ih =>
      -- an event moves the time on, a poll also the last poll
      obtain ⟨hfirst, hrest⟩ := quiet_cons hquiet
      have hpre' : ∀ j ∈ pre, ¬ j.Due T := fun j hj => hpre j (List.mem_cons_of_mem i hj)
      rw [after_cons]
      cases i with
      | event e t =>
          obtain ⟨htime, hpaced'⟩ := hpaced
          have hevent : s.originOf e ≠ some .setpoint := by
            intro h
            apply hfirst
            simp [feed, Timed.input, h]
          obtain ⟨hnext, hsame⟩ := event_shows hs hevent (Clock.read t)
          have hrun := ih hnext (Nat.le_trans hstart htime) hlast hpaced' hrest hpre'
          exact ⟨hrun.1, hrun.2.1.trans hsame, hrun.2.2⟩
      | poll t =>
          obtain ⟨htime, hpace, hpaced'⟩ := hpaced
          have hearly : ¬ T + 3000 ≤ t := hpre _ List.mem_cons_self
          have hnot := mt (reached_end (Nat.le_trans hstart htime) hlast hpace).mp hearly
          have hsame : (s.feed (Timed.poll t).input).1 = s := poll_shows hs hnot
          rw [hsame] at hrest ⊢
          exact ih hs (Nat.le_trans hstart htime) (by omega) hpaced' hrest hpre'

/-- **The screen of a setpoint change at `T` times out.** -/
structure TimesOut (T : Nat) (s : Controller) (is : List Timed) : Prop where
  /-- It shows, and nothing else is drawn, as long as no poll is due. -/
  shown : ∀ pre post, is = pre ++ post → (∀ i ∈ pre, ¬ i.Due T) →
    (s.after pre).showingSetpoint = true ∧ (s.after pre).display = s.display
  /-- The first poll that is due ends it and draws the temperature that is current then. -/
  ended : ∀ pre i post, is = pre ++ i :: post → (∀ j ∈ pre, ¬ j.Due T) → i.Due T →
    (s.after (pre ++ [i])).showingSetpoint = false ∧
    (s.after (pre ++ [i])).display = (s.after pre).displayCurrentTemperature.display
  /-- It does not come back. -/
  gone : ∀ pre i mid post, is = pre ++ i :: (mid ++ post) → (∀ j ∈ pre, ¬ j.Due T) → i.Due T →
    (s.after (pre ++ i :: mid)).showingSetpoint = false

/-- The first poll that is due, in the state it is made in. -/
theorem ends_after {T : Nat} {s : Controller} {pre post : List Timed} {i : Timed} (hs : Shows T s)
    (hpaced : Paced T T (pre ++ i :: post)) (hquiet : Quiet s (pre ++ i :: post))
    (hpre : ∀ j ∈ pre, ¬ j.Due T) (hdue : i.Due T) :
    (s.after (pre ++ [i])).showingSetpoint = false ∧
    (s.after (pre ++ [i])).display = (s.after pre).displayCurrentTemperature.display ∧
    Quiet (s.after (pre ++ [i])) post := by
  obtain ⟨hshows, -, hquiet', last, lastPoll, hstart, hlast, hpaced'⟩ :=
    shows_after hs (Nat.le_refl T) (by omega) hpaced hquiet hpre
  obtain ⟨-, hrest⟩ := quiet_cons hquiet'
  cases i with
  | event e t => exact absurd hdue id
  | poll t =>
      obtain ⟨htime, hpace, -⟩ := hpaced'
      have hreached := (reached_end (Nat.le_trans hstart htime) hlast hpace).mpr hdue
      obtain ⟨hoff, hdraw⟩ := poll_ends hshows hreached
      rw [after_append]
      exact ⟨hoff, hdraw, hrest⟩

/-- **The setpoint screen times out on time**, across the wrap of the counter. -/
theorem setpointScreen_timesOut (s : Controller) {e : Event} (hchange : s.originOf e = some .setpoint)
    (T : Nat) {is : List Timed} (hpaced : Paced T T is)
    (hquiet : Quiet (s.processEvent e (Clock.read T)) is) :
    TimesOut T (s.processEvent e (Clock.read T)) is := by
  have hopen := opens_shows hchange T
  refine ⟨?_, ?_, ?_⟩
  · rintro pre post rfl hpre
    obtain ⟨hshows, hsame, -⟩ := shows_after hopen (Nat.le_refl T) (by omega) hpaced hquiet hpre
    exact ⟨(Prod.mk.inj hshows).1, hsame⟩
  · rintro pre i post rfl hpre hdue
    obtain ⟨hoff, hdraw, -⟩ := ends_after hopen hpaced hquiet hpre hdue
    exact ⟨hoff, hdraw⟩
  · rintro pre i mid post rfl hpre hdue
    obtain ⟨hoff, -, hrest⟩ := ends_after hopen hpaced hquiet hpre hdue
    -- behind the poll that is due the run is quiet still
    have hmid : Quiet ((s.processEvent e (Clock.read T)).after (pre ++ [i])) mid := by
      unfold Quiet at hrest ⊢
      rw [List.map_append, Trace.run_append, List.mem_append, not_or] at hrest
      exact hrest.1
    rw [List.append_cons, after_append]
    exact hidden_after hoff hmid

/-- The setpoint is raised one second before the counter wraps. -/
def nearWrap : List Timed :=
  [ .event ⟨.temperatureReady, 385⟩ 4294966500, .poll 4294967295, .event ⟨.buttonS3, 0⟩ 4294968000,
    .poll 4294969295, .poll 4294969296, .event ⟨.temperatureReady, 390⟩ 4294970000 ]

theorem setpointScreen_timesOut_nearWrap :
    TimesOut 4294966296
      ((Controller.new (some ⟨Bytes.zeros 32, []⟩) none none).processEvent ⟨.buttonS2, 1⟩ 4294966296)
      nearWrap := by
  apply setpointScreen_timesOut (Controller.new (some ⟨Bytes.zeros 32, []⟩) none none) (by decide)
  · simp [nearWrap, Paced]
  · unfold Quiet
    decide

end Controller
end Thermostat
