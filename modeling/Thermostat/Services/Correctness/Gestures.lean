import Thermostat.Services.Correctness.Runs

/-!
# `Services.Correctness.Gestures` — buttons move the setpoint by the right number of steps

A key reports a gesture as a press, any number of hold codes, and a release, after which it may add a double
click or a combination. **`gestures_setpoint`**: with the events of S1 and of S2 forming gestures, and
interleaved in any way with each other and with everything else, the setpoint is moved by one step at each
hold code and, in a gesture without hold codes, by one step at the release.

- `marks` says which codes of a key are steps, reading them with one hold flag. It is what the controller
  computes (`setpoint_run`, by induction on the run), and on gestures it is what the gesture says
  (`marks_gestures`).
- The setpoint stays inside its limits and on the grid of half degrees (`OnGrid`), so that a step saturates
  at both ends though the code tests only one.
-/

namespace Thermostat

open Config

/-! ## The setpoint of the core -/

namespace Heating

/-- A setpoint inside its limits, in half degrees. -/
structure OnGrid (sp : Int) : Prop where
  low : controllerSetpointMin ≤ sp
  high : sp ≤ controllerSetpointMax
  grid : 5 ∣ sp

theorem default_onGrid : OnGrid controllerSetpointDefault := ⟨by decide, by decide, by decide⟩

/-- A step of the setpoint. -/
inductive Move where
  | down
  | up
deriving DecidableEq, Repr

def Move.apply (sp : Int) : Move → Int
  | .down => Word.clamp (sp - 5) (-95) 995
  | .up   => Word.clamp (sp + 5) (-95) 995

/-- On the grid, the two steps of the source are the moves. -/
theorem lowered_eq {sp : Int} (h : OnGrid sp) : lowered sp = Move.apply sp .down := by
  have hhigh : sp ≤ 995 := h.high
  unfold lowered Move.apply Word.clamp Controller.setpointStep controllerSetpointMin
  simp only
  split_ifs <;> omega

theorem raised_eq {sp : Int} (h : OnGrid sp) : raised sp = Move.apply sp .up := by
  have hlow : -95 ≤ sp := h.low
  unfold raised Move.apply Word.clamp Controller.setpointStep controllerSetpointMax
  simp only
  split_ifs <;> omega

/-- A move stays on the grid. -/
theorem apply_onGrid {sp : Int} (h : OnGrid sp) (m : Move) : OnGrid (m.apply sp) := by
  obtain ⟨hlow, hhigh, hgrid⟩ := h
  have hmem := Word.clamp_mem (show (-95 : Int) ≤ 995 by decide)
  cases m with
  | down =>
      refine ⟨(hmem _).1, (hmem _).2, ?_⟩
      unfold Move.apply Word.clamp
      simp only
      split_ifs <;> omega
  | up =>
      refine ⟨(hmem _).1, (hmem _).2, ?_⟩
      unfold Move.apply Word.clamp
      simp only
      split_ifs <;> omega

/-- The step that an event asks for. -/
def move (h : Heating) (e : Event) : Option Move :=
  match h.action e with
  | some .decreaseSetpoint => some .down
  | some .increaseSetpoint => some .up
  | _ => none

@[simp] theorem changeSetpoint_setpoint (h : Heating) (sp : Int) (now : UInt32) :
    (h.changeSetpoint sp now).setpoint = sp := enter_setpoint _ _ now

/-- **An event moves the setpoint as its gesture says**, by one move or by none. -/
theorem event_setpoint {h : Heating} (hgrid : OnGrid h.setpoint) (e : Event) (now : UInt32) :
    (h.event e now).setpoint = (h.move e).toList.foldl Move.apply h.setpoint := by
  unfold event move
  cases h.action e with
  | none => exact hold_setpoint h e
  | some a =>
      cases a with
      | temperatureSample => exact (decideSample_setpoint _ now).trans (hold_setpoint h e)
      | decreaseSetpoint => exact (changeSetpoint_setpoint _ _ now).trans (lowered_eq hgrid)
      | increaseSetpoint => exact (changeSetpoint_setpoint _ _ now).trans (raised_eq hgrid)
      | pidTick => exact hold_setpoint h e
      | beep => exact (enter_setpoint _ false now).trans (hold_setpoint h e)

/-- Polling leaves the setpoint alone. -/
theorem poll_setpoint (h : Heating) (now : UInt32) : (h.poll now).setpoint = h.setpoint := by
  unfold poll
  split_ifs
  · exact enter_setpoint _ _ now
  · rfl

/-! ### The hold flags -/

/-- The hold flags of S1 and S2. -/
def held (h : Heating) : Bool × Bool := (h.s1Held, h.s2Held)

theorem enter_held (h : Heating) (err : Bool) (now : UInt32) : (h.enter err now).held = h.held := by
  unfold enter
  split_ifs <;> rfl

theorem regulate_held (h : Heating) (now : UInt32) : (h.regulate now).held = h.held := by
  unfold regulate
  split_ifs <;> rfl

/-- Samples leave the hold flags alone. -/
theorem sample_held (h : Heating) (v : Int) (now : UInt32) : (h.sample v now).held = h.held := by
  unfold sample decideSample
  split_ifs
  · exact enter_held _ true now
  · exact (enter_held _ false now).trans (regulate_held _ now)

/-- Only the hold codes of an event reach the flags. -/
theorem event_held (h : Heating) (e : Event) (now : UInt32) : (h.event e now).held = (h.hold e).held := by
  unfold event
  cases h.action e with
  | none => rfl
  | some a =>
      cases a with
      | temperatureSample => exact sample_held _ _ now
      | decreaseSetpoint => exact enter_held _ _ now
      | increaseSetpoint => exact enter_held _ _ now
      | pidTick => rfl
      | beep => exact enter_held _ false now

theorem poll_held (h : Heating) (now : UInt32) : (h.poll now).held = h.held := by
  unfold poll
  split_ifs
  · exact enter_held _ _ now
  · rfl

end Heating

/-! ## The codes of a key -/

namespace Controller

open Heating (Move OnGrid)

/-- The hold flag after a code. -/
def heldBy (held : Bool) (code : Int) : Bool :=
  if code = 0 then false else if code = 1 then true else held

/-- Which of the codes of a key are steps, the flag telling whether the key is held before them. -/
def marks : Bool → List Int → List Bool
  | _,    []            => []
  | held, code :: codes => decide (code = 1 ∨ code = 2 ∧ held = false) :: marks (heldBy held code) codes

/-- A gesture of a key: a press, `holds` hold codes, a release, and the codes of a double click (`3`) or of
    a combination (`9`, `10`) behind it. -/
structure Gesture where
  holds : Nat
  tail : List Int
  tail_codes : ∀ code ∈ tail, code = 3 ∨ code = 9 ∨ code = 10

namespace Gesture

def codes (g : Gesture) : List Int := 0 :: (List.replicate g.holds 1 ++ 2 :: g.tail)

/-- Which of the codes are steps: every hold code, and the release of a gesture without one. -/
def steps (g : Gesture) : List Bool :=
  false :: (List.replicate g.holds true ++ decide (g.holds = 0) :: g.tail.map (fun _ => false))

end Gesture

/-- The codes of a double click and of a combination are no steps. -/
theorem marks_tail {codes : List Int} (h : ∀ code ∈ codes, code = 3 ∨ code = 9 ∨ code = 10)
    (held : Bool) (rest : List Int) :
    marks held (codes ++ rest) = codes.map (fun _ => false) ++ marks held rest := by
  induction codes with
  | nil => rfl
  | cons code codes ih =>
      have hrest := ih (fun c hc => h c (List.mem_cons_of_mem code hc))
      have hcode : code ≠ 0 ∧ code ≠ 1 ∧ code ≠ 2 := by
        have := h code List.mem_cons_self
        omega
      simp [marks, heldBy, hcode, hrest]

/-- Each hold code of a held button is a step. -/
theorem marks_holds (n : Nat) (rest : List Int) :
    marks true (List.replicate n 1 ++ rest) = List.replicate n true ++ marks true rest := by
  induction n with
  | zero => rfl
  | succ n ih => simp [List.replicate_succ, marks, heldBy, ih]

/-- The steps of a gesture do not depend on what was before it: its press clears the flag. -/
theorem marks_gesture (g : Gesture) (held : Bool) (rest : List Int) :
    ∃ held', marks held (g.codes ++ rest) = g.steps ++ marks held' rest := by
  -- only a hold code sets the flag, and it decides about the release
  obtain ⟨holds, tail, htail⟩ := g
  cases holds with
  | zero =>
      refine ⟨false, ?_⟩
      simp [Gesture.codes, Gesture.steps, marks, heldBy, marks_tail htail]
  | succ n =>
      refine ⟨true, ?_⟩
      simp [Gesture.codes, Gesture.steps, List.replicate_succ, marks, heldBy, marks_holds,
        marks_tail htail]

/-- **Gestures one after the other** step as each of them does. -/
theorem marks_gestures (gs : List Gesture) (held : Bool) :
    marks held (gs.flatMap Gesture.codes) = gs.flatMap Gesture.steps := by
  induction gs generalizing held with
  | nil => rfl
  | cons g gs ih =>
      obtain ⟨held', hfirst⟩ := marks_gesture g held (gs.flatMap Gesture.codes)
      rw [List.flatMap_cons, hfirst, ih, List.flatMap_cons]

/-! ## Runs -/

/-- The codes of one key in a run. -/
def codes (key : EventType) (is : List Input) : List Int :=
  is.filterMap (fun i => match i with
    | .event e _ => if e.type = key then some e.value else none
    | .poll _ => none)

/-- The steps of a run in their order, `ms` and `ns` telling which of the events of S1 and of S2 are
    steps. -/
def moves : List Input → List Bool → List Bool → List Move
  | .event ⟨.buttonS1, _⟩ _ :: is, m :: ms, ns => (if m then [.down] else []) ++ moves is ms ns
  | .event ⟨.buttonS2, _⟩ _ :: is, ms, n :: ns => (if n then [.up] else []) ++ moves is ms ns
  | _ :: is, ms, ns => moves is ms ns
  | [], _, _ => []

end Controller

namespace Heating

/-- S1 lowers the setpoint: on a hold, or on a release that no hold came before. -/
theorem move_buttonS1 (h : Heating) (v : Int) :
    h.move ⟨.buttonS1, v⟩ = if v = 1 ∨ v = 2 ∧ h.s1Held = false then some .down else none := by
  unfold move
  rw [action_buttonS1]
  split_ifs <;> rfl

/-- S2 raises it in the same way. -/
theorem move_buttonS2 (h : Heating) (v : Int) :
    h.move ⟨.buttonS2, v⟩ = if v = 1 ∨ v = 2 ∧ h.s2Held = false then some .up else none := by
  unfold move
  rw [action_buttonS2]
  split_ifs <;> rfl

end Heating

namespace Controller

open Heating (Move OnGrid)

/-- What an event does to the setpoint and to the hold flags. -/
theorem processEvent_moves {s : Controller} (hgrid : OnGrid s.setpoint) (e : Event) (now : UInt32) :
    (s.processEvent e now).setpoint = (s.heating.move e).toList.foldl Move.apply s.setpoint ∧
    (s.processEvent e now).heating.held = (s.heating.hold e).held := by
  have hcore := heating_processEvent s e now
  refine ⟨?_, ?_⟩
  · exact (congrArg Heating.setpoint hcore).trans (Heating.event_setpoint (h := s.heating) hgrid e now)
  · exact (congrArg Heating.held hcore).trans (Heating.event_held s.heating e now)

/-- A poll changes neither the setpoint nor the hold flags. -/
theorem poll_moves (s : Controller) (now : UInt32) :
    (s.poll now).setpoint = s.setpoint ∧ (s.poll now).heating.held = s.heating.held := by
  have hcore := heating_poll s now
  exact ⟨(congrArg Heating.setpoint hcore).trans (Heating.poll_setpoint s.heating now),
    (congrArg Heating.held hcore).trans (Heating.poll_held s.heating now)⟩

/-- Any number of moves stays on the grid. -/
theorem foldl_onGrid (ms : List Move) {sp : Int} (h : OnGrid sp) : OnGrid (ms.foldl Move.apply sp) := by
  induction ms generalizing sp with
  | nil => exact h
  | cons m ms ih => exact ih (Heating.apply_onGrid h m)

theorem feed_onGrid {s : Controller} (i : Input) (h : OnGrid s.setpoint) :
    OnGrid (s.feed i).1.setpoint := by
  cases i with
  | event e now =>
      show OnGrid (s.processEvent e now).setpoint
      rw [(processEvent_moves h e now).1]
      exact foldl_onGrid _ h
  | poll now =>
      show OnGrid (s.poll now).setpoint
      rw [(poll_moves s now).1]
      exact h

/-- No call leaves the grid. -/
theorem call_onGrid {s : Controller} (c : Call) (h : OnGrid s.setpoint) :
    OnGrid (s.call c).1.setpoint := by
  cases c with
  | input i => exact feed_onGrid i h
  | init now =>
      have hsp : (s.init now).setpoint = s.setpoint :=
        (congrArg Heating.setpoint (heating_init s now)).trans (Heating.enter_setpoint _ false now)
      show OnGrid (s.init now).setpoint
      rw [hsp]
      exact h

/-- **The setpoint of a reachable controller** is on the grid. -/
theorem reachable_onGrid {s : Controller} (h : Reachable s) : OnGrid s.setpoint := by
  obtain ⟨display, beep, heater, calls, rfl⟩ := h
  exact Trace.run_state_invariant (fun s : Controller => OnGrid s.setpoint)
    (fun s c hs => call_onGrid c hs) Heating.default_onGrid calls

/-- An event contributes the step that it asks for, and hands the new hold flags on. -/
theorem moves_event (h : Heating) (e : Event) (now : UInt32) (is : List Input) :
    moves (.event e now :: is) (marks h.s1Held (codes .buttonS1 (.event e now :: is)))
        (marks h.s2Held (codes .buttonS2 (.event e now :: is)))
      = (h.move e).toList ++ moves is (marks (h.hold e).s1Held (codes .buttonS1 is))
          (marks (h.hold e).s2Held (codes .buttonS2 is)) := by
  obtain ⟨type, v⟩ := e
  cases type with
  | buttonS1 =>
      rw [Heating.move_buttonS1]
      show (if decide (v = 1 ∨ v = 2 ∧ h.s1Held = false) then [Move.down] else []) ++ _ = _
      by_cases hstep : v = 1 ∨ v = 2 ∧ h.s1Held = false
      · rw [if_pos hstep, decide_eq_true hstep]
        rfl
      · rw [if_neg hstep, decide_eq_false hstep]
        rfl
  | buttonS2 =>
      rw [Heating.move_buttonS2]
      show (if decide (v = 1 ∨ v = 2 ∧ h.s2Held = false) then [Move.up] else []) ++ _ = _
      by_cases hstep : v = 1 ∨ v = 2 ∧ h.s2Held = false
      · rw [if_pos hstep, decide_eq_true hstep]
        rfl
      · rw [if_neg hstep, decide_eq_false hstep]
        rfl
  | _ => rfl

/-- **The controller moves its setpoint by the marks**, whatever the codes are. -/
theorem setpoint_run (is : List Input) {s : Controller} (hgrid : OnGrid s.setpoint) :
    (Trace.run feed s is).1.setpoint
      = (moves is (marks s.s1Held (codes .buttonS1 is)) (marks s.s2Held (codes .buttonS2 is))).foldl
          Move.apply s.setpoint := by
  induction is generalizing s with
  | nil => rfl
  | cons i is ih =>
      -- the flags behind the first call are those that the marks go on with
      rw [Trace.run_cons, ih (feed_onGrid i hgrid)]
      cases i with
      | poll now =>
          obtain ⟨hsp, hheld⟩ := poll_moves s now
          obtain ⟨h1, h2⟩ := Prod.mk.inj hheld
          change (s.poll now).s1Held = s.s1Held at h1
          change (s.poll now).s2Held = s.s2Held at h2
          show (moves is (marks (s.poll now).s1Held _) (marks (s.poll now).s2Held _)).foldl _
            (s.poll now).setpoint = _
          rw [hsp, h1, h2]
          rfl
      | event e now =>
          obtain ⟨hsp, hheld⟩ := processEvent_moves hgrid e now
          obtain ⟨h1, h2⟩ := Prod.mk.inj hheld
          change (s.processEvent e now).s1Held = (s.heating.hold e).s1Held at h1
          change (s.processEvent e now).s2Held = (s.heating.hold e).s2Held at h2
          show (moves is (marks (s.processEvent e now).s1Held _)
            (marks (s.processEvent e now).s2Held _)).foldl _ (s.processEvent e now).setpoint = _
          rw [hsp, h1, h2, ← List.foldl_append, ← moves_event]
          rfl

/-- **Gestures move the setpoint by the right number of steps**, from every reachable controller, and every
    prefix of the run leaves the setpoint inside its limits and on its grid. -/
theorem gestures_setpoint {s : Controller} (hreach : Reachable s) (gs₁ gs₂ : List Gesture)
    (is : List Input) (h₁ : codes .buttonS1 is = gs₁.flatMap Gesture.codes)
    (h₂ : codes .buttonS2 is = gs₂.flatMap Gesture.codes) :
    (Trace.run feed s is).1.setpoint
      = (moves is (gs₁.flatMap Gesture.steps) (gs₂.flatMap Gesture.steps)).foldl Move.apply s.setpoint ∧
    ∀ pre, pre <+: is → OnGrid (Trace.run feed s pre).1.setpoint := by
  have hgrid := reachable_onGrid hreach
  refine ⟨?_, ?_⟩
  · rw [setpoint_run is hgrid, h₁, h₂, marks_gestures, marks_gestures]
  · intro pre _
    rw [setpoint_run pre hgrid]
    exact foldl_onGrid _ hgrid

/-- S1 is held for two hold codes; meanwhile S2 is double-clicked and a sample comes in. -/
def interleaved : List Input :=
  [ .event ⟨.buttonS1, 0⟩ 10, .event ⟨.buttonS2, 0⟩ 40, .event ⟨.buttonS1, 1⟩ 110, .poll 115,
    .event ⟨.temperatureReady, 385⟩ 120, .event ⟨.buttonS2, 2⟩ 180, .event ⟨.buttonS2, 3⟩ 180,
    .event ⟨.buttonS1, 1⟩ 210, .event ⟨.buttonS1, 2⟩ 260 ]

/-- S2 is clicked while S1 is held. -/
theorem gestures_setpoint_interleaved :
    (Trace.run feed (Controller.new none none (some (PwmDriver.init 1 heaterPrescaler heaterArr)))
      interleaved).1.setpoint = 395 := by
  have hreach : Reachable (Controller.new none none (some (PwmDriver.init 1 heaterPrescaler heaterArr))) :=
    ⟨none, none, _, [], rfl⟩
  exact (gestures_setpoint hreach [⟨2, [], by simp⟩] [⟨0, [3], by simp⟩] interleaved rfl rfl).1

end Controller
end Thermostat
