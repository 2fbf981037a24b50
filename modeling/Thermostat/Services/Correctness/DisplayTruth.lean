import Thermostat.Drivers.Correctness.Glyphs
import Thermostat.Services.Correctness.SetpointScreen

/-!
# `Services.Correctness.DisplayTruth` — the display tells the truth

After every call the display reads as the value it should show: the setpoint under the label `2` while the
setpoint screen is open, the current temperature under the label `1` otherwise.

- `temperatureText_reads`: the text that `displayTemperature` builds reads back as the value, saturated to
  what three characters can say.
- `processEvent_face`, `poll_face`, `init_face`: a call either draws the value to show, or changes neither
  that value nor the display. The one sample that changes the current temperature and does not draw it
  comes while the setpoint shows.
-/

namespace Thermostat

open Config

/-! ## The value to show -/

namespace Heating

/-- The label and the value that the display should show. -/
def face (h : Heating) : Char × Int := if h.showing then ('2', h.setpoint) else ('1', h.current)

theorem face_congr {h k : Heating} (hshow : h.showing = k.showing) (hsp : h.setpoint = k.setpoint)
    (hcur : h.current = k.current) : h.face = k.face := by
  unfold face
  rw [hshow, hsp, hcur]

theorem hold_face (h : Heating) (e : Event) : (h.hold e).face = h.face := by
  unfold hold
  cases e.type <;> rfl

theorem enter_face (h : Heating) (err : Bool) (now : UInt32) : (h.enter err now).face = h.face :=
  face_congr (congrArg Prod.fst (enter_screen h err now)) (enter_setpoint h err now)
    (enter_current h err now)

theorem sample_face (h : Heating) (v : Int) (now : UInt32) :
    (h.sample v now).face = if h.showing then ('2', h.setpoint) else ('1', v) := by
  have hshow : (h.sample v now).showing = h.showing := congrArg Prod.fst (sample_screen h v now)
  unfold face
  rw [hshow]
  show (if h.showing then ('2', ((h.setCurrent v).decideSample now).setpoint)
    else ('1', ((h.setCurrent v).decideSample now).current)) = _
  rw [decideSample_setpoint, decideSample_current]
  rfl

theorem changeSetpoint_face (h : Heating) (sp : Int) (now : UInt32) :
    (h.changeSetpoint sp now).face = ('2', sp) := enter_face _ _ now

/-- **The value to show after an event.** -/
theorem event_face (h : Heating) (e : Event) (now : UInt32) :
    (h.event e now).face =
      match h.action e with
      | some .temperatureSample => if h.showing then ('2', h.setpoint) else ('1', e.value)
      | some .decreaseSetpoint => ('2', lowered h.setpoint)
      | some .increaseSetpoint => ('2', raised h.setpoint)
      | _ => h.face := by
  have hshow : (h.hold e).showing = h.showing := congrArg Prod.fst (hold_screen h e)
  unfold event
  cases h.action e with
  | none => exact hold_face h e
  | some a =>
      cases a with
      | temperatureSample =>
          show ((h.hold e).sample e.value now).face = _
          rw [sample_face, hshow, hold_setpoint]
      | decreaseSetpoint => exact changeSetpoint_face _ _ now
      | increaseSetpoint => exact changeSetpoint_face _ _ now
      | pidTick => exact hold_face h e
      | beep => exact (enter_face _ false now).trans (hold_face h e)

end Heating

/-! ## The text of a value -/

namespace Controller

open HT1621B (ShowsText)

/-- The number that a digit stands for. -/
def digitValue (c : Char) : Option Nat :=
  if '0' ≤ c ∧ c ≤ '9' then some (c.toNat - '0'.toNat) else none

/-- Three characters, read as a signed decimal with one decimal place, in tenths. -/
def readTenths (x y z : Char) : Option Int :=
  if x = '-' then
    (digitValue y).bind fun b => (digitValue z).map fun c => -(10 * b + c : Int)
  else
    (digitValue x).bind fun a => (digitValue y).bind fun b => (digitValue z).map fun c =>
      (100 * a + 10 * b + c : Int)

/-- The digit characters that the code computes. -/
theorem digitValue_digit {n : Nat} (h : n < 10) :
    digitValue (Char.ofNat ('0'.toNat + n)) = some n ∧ Char.ofNat ('0'.toNat + n) ≠ '-' := by
  revert n
  decide

theorem readTenths_negative {b c : Nat} (hb : b < 10) (hc : c < 10) :
    readTenths '-' (Char.ofNat ('0'.toNat + b)) (Char.ofNat ('0'.toNat + c)) = some (-(10 * b + c : Int)) := by
  unfold readTenths
  rw [if_pos rfl, (digitValue_digit hb).1, (digitValue_digit hc).1]
  rfl

theorem readTenths_positive {a b c : Nat} (ha : a < 10) (hb : b < 10) (hc : c < 10) :
    readTenths (Char.ofNat ('0'.toNat + a)) (Char.ofNat ('0'.toNat + b)) (Char.ofNat ('0'.toNat + c))
      = some (100 * a + 10 * b + c : Int) := by
  unfold readTenths
  rw [if_neg (digitValue_digit ha).2, (digitValue_digit ha).1, (digitValue_digit hb).1,
    (digitValue_digit hc).1]
  rfl

/-- **The text of a value reads back as the value**, saturated to what fits. -/
theorem temperatureText_reads (label : Char) (value : Int) :
    ∃ x y z, temperatureText label value = ['t', label, ' ', x, y, z] ∧
      readTenths x y z = some (Word.clamp value (-99) 999) := by
  have hclamp : (if value < -99 then -99 else if value > 999 then 999 else value)
      = Word.clamp value (-99) 999 := by
    unfold Word.clamp
    by_cases hcold : value < -99
    · simp [hcold]
    · simp [hcold]
  obtain ⟨hlow, hhigh⟩ := Word.clamp_mem (show (-99 : Int) ≤ 999 by decide) value
  unfold temperatureText
  simp only [hclamp]
  generalize Word.clamp value (-99) 999 = v at hlow hhigh
  by_cases hneg : v < 0
  · have hwhole : (-v).toNat / 10 < 10 := by omega
    refine ⟨'-', Char.ofNat ('0'.toNat + (-v).toNat / 10), Char.ofNat ('0'.toNat + (-v).toNat % 10), ?_, ?_⟩
    · simp only [if_pos hneg, if_pos hwhole]
    · rw [readTenths_negative hwhole (Nat.mod_lt _ (by decide))]
      congr 1
      omega
  · have hwhole : ¬ v.toNat / 10 > 99 := by omega
    refine ⟨Char.ofNat ('0'.toNat + v.toNat / 10 / 10), Char.ofNat ('0'.toNat + v.toNat / 10 % 10),
      Char.ofNat ('0'.toNat + v.toNat % 10), ?_, ?_⟩
    · simp only [if_neg hneg, if_neg hwhole]
    · rw [readTenths_positive (by omega) (Nat.mod_lt _ (by decide)) (Nat.mod_lt _ (by decide))]
      congr 1
      omega

/-! ## The display and the value -/

/-- The display reads `t`, a label, a blank, and the value in tenths; only the decimal point is on. -/
def Reports (d : HT1621B) (label : Char) (value : Int) : Prop :=
  ∃ x y z, ShowsText d ['t', label, ' ', x, y, z] 1 ∧ readTenths x y z = some (Word.clamp value (-99) 999)

theorem draw_reports (label : Char) (value : Int) (d : HT1621B) :
    Reports (draw label value d) label value := by
  obtain ⟨x, y, z, htext, hreads⟩ := temperatureText_reads label value
  refine ⟨x, y, z, ?_, hreads⟩
  unfold draw
  rw [htext]
  exact HT1621B.showString_showDot _ _ (by omega) (by omega)

/-- The controller has a display, and it reports the value to show. -/
def Truthful (s : Controller) : Prop :=
  ∃ d, s.display = some d ∧
    if s.showingSetpoint then Reports d '2' s.setpoint else Reports d '1' s.current

theorem truthful_iff {s : Controller} :
    Truthful s ↔ ∃ d, s.display = some d ∧ Reports d s.heating.face.1 s.heating.face.2 := by
  unfold Truthful Heating.face
  cases hshow : s.showingSetpoint with
  | true => simp [heating, hshow]
  | false => simp [heating, hshow]

/-- A call that draws the value to show. -/
theorem truthful_of_draw {s t : Controller} (hattached : s.display.isSome = true)
    (hdraw : t.display = s.display.map (draw t.heating.face.1 t.heating.face.2)) : Truthful t := by
  obtain ⟨d, hd⟩ := Option.isSome_iff_exists.mp hattached
  rw [truthful_iff]
  refine ⟨draw t.heating.face.1 t.heating.face.2 d, ?_, draw_reports _ _ d⟩
  rw [hdraw, hd]
  rfl

/-- A call that changes neither the display nor the value to show. -/
theorem truthful_of_same {s t : Controller} (hs : Truthful s) (hdisplay : t.display = s.display)
    (hface : t.heating.face = s.heating.face) : Truthful t := by
  rw [truthful_iff] at hs ⊢
  rw [hdisplay, hface]
  exact hs

/-- **What an event does to the display**: it draws the value to show, or it leaves both alone. -/
theorem processEvent_face (s : Controller) (e : Event) (now : UInt32) :
    s.originOf e ≠ none ∧ (s.processEvent e now).display
        = s.display.map (draw (s.processEvent e now).heating.face.1 (s.processEvent e now).heating.face.2) ∨
    (s.processEvent e now).display = s.display ∧
      (s.processEvent e now).heating.face = s.heating.face ∧
      (s.originOf e = none ∨ s.showingSetpoint = true) := by
  have hface := Heating.event_face s.heating e now
  have hdraw := processEvent_display s e now
  rw [heating_processEvent, originOf_heating]
  unfold Heating.originOf
  cases hact : s.heating.action e with
  | none =>
      rw [hact] at hface hdraw
      exact Or.inr ⟨hdraw, hface, Or.inl rfl⟩
  | some a =>
      rw [hact] at hface hdraw
      cases a with
      | temperatureSample =>
          -- a sample changes what there is to show only while it is the temperature
          by_cases hshow : s.showingSetpoint = true
          · have hshow' : s.heating.showing = true := hshow
            rw [if_pos hshow] at hdraw
            refine Or.inr ⟨hdraw, ?_, Or.inr hshow⟩
            rw [hface]
            unfold Heating.face
            rw [if_pos hshow', if_pos hshow']
          · have hshow' : ¬ s.heating.showing = true := hshow
            rw [if_neg hshow] at hdraw
            rw [if_neg hshow'] at hface
            rw [hface]
            exact Or.inl ⟨Option.some_ne_none _, hdraw⟩
      | decreaseSetpoint =>
          rw [hface]
          exact Or.inl ⟨Option.some_ne_none _, hdraw⟩
      | increaseSetpoint =>
          rw [hface]
          exact Or.inl ⟨Option.some_ne_none _, hdraw⟩
      | pidTick => exact Or.inr ⟨hdraw, hface, Or.inl rfl⟩
      | beep => exact Or.inr ⟨hdraw, hface, Or.inl rfl⟩

theorem poll_face (s : Controller) (now : UInt32) :
    (s.poll now).display
        = s.display.map (draw (s.poll now).heating.face.1 (s.poll now).heating.face.2) ∨
    s.poll now = s := by
  by_cases hend : s.showingSetpoint = true ∧ timeReached now s.setpointDisplayDeadline = true
  · have hend' : s.heating.showing = true ∧ Word.reached now s.heating.deadline = true := hend
    have hface : (s.heating.poll now).face = ('1', s.current) := by
      unfold Heating.poll
      rw [if_pos hend', Heating.enter_face]
      rfl
    left
    rw [poll_display, if_pos hend, heating_poll, hface]
  · right
    rw [poll_eq, if_neg hend]

theorem init_face (s : Controller) (now : UInt32) :
    (s.init now).display
      = s.display.map (draw (s.init now).heating.face.1 (s.init now).heating.face.2) := by
  have hface : (s.heating.init now).face = ('1', s.setpoint) := Heating.enter_face _ false now
  rw [init_display, heating_init, hface]

/-! ## Whole runs -/

/-- The display is truthful from the first origin on; before it, no setpoint shows. -/
structure Faithful (s : Controller) (origins : List Origin) : Prop where
  attached : s.display.isSome = true
  hidden : origins = [] → s.showingSetpoint = false
  truthful : origins ≠ [] → Truthful s

theorem faithful_of_draw {s t : Controller} {origins : List Origin} (hs : s.display.isSome = true)
    (horigins : origins ≠ [])
    (hdraw : t.display = s.display.map (draw t.heating.face.1 t.heating.face.2)) :
    Faithful t origins := by
  refine ⟨?_, fun h => absurd h horigins, fun _ => truthful_of_draw hs hdraw⟩
  rw [hdraw, Option.isSome_map]
  exact hs

theorem call_faithful {s : Controller} {origins : List Origin} (c : Call) (h : Faithful s origins) :
    Faithful (s.call c).1 (origins ++ (s.call c).2) := by
  cases c with
  | init now => exact faithful_of_draw h.attached (by simp [call]) (init_face s now)
  | input i =>
      cases i with
      | poll now =>
          show Faithful (s.poll now) (origins ++ [])
          rw [List.append_nil]
          rcases poll_face s now with hdraw | hsame
          · by_cases hnone : origins = []
            · -- before the first origin no setpoint shows, and a poll is idle
              have hidle : s.poll now = s := by
                rw [poll_eq, h.hidden hnone, if_neg (by simp)]
              rw [hidle]
              exact h
            · exact faithful_of_draw h.attached hnone hdraw
          · rw [hsame]
            exact h
      | event e now =>
          show Faithful (s.processEvent e now) (origins ++ (s.originOf e).toList)
          rcases processEvent_face s e now with ⟨horigin, hdraw⟩ | ⟨hdisplay, hface, hquiet⟩
          -- what draws is an origin
          · refine faithful_of_draw h.attached ?_ hdraw
            obtain ⟨o, ho⟩ := Option.ne_none_iff_exists'.mp horigin
            rw [ho]
            exact List.append_ne_nil_of_right_ne_nil origins (List.cons_ne_nil o [])
          · refine ⟨hdisplay ▸ h.attached, ?_, ?_⟩
            · intro hnone
              obtain ⟨hbefore, hnow⟩ := List.append_eq_nil_iff.mp hnone
              apply feed_hidden (i := .event e now) (h.hidden hbefore)
              show Origin.setpoint ∉ (s.originOf e).toList
              rw [hnow]
              exact List.not_mem_nil
            · intro hsome
              -- an event that draws nothing is an origin only while the setpoint shows
              have hbefore : origins ≠ [] := by
                intro hnone
                rcases hquiet with hnever | hshow
                · rw [hnone, hnever] at hsome
                  exact hsome rfl
                · rw [h.hidden hnone] at hshow
                  cases hshow
              exact truthful_of_same (h.truthful hbefore) hdisplay hface

/-- **The display tells the truth**: in every run on a controller with a display, whatever the display was
    before, from the first sample, setpoint change or initialisation on. -/
theorem display_truthful (d : HT1621B) (beep : Option BeepManager) (heater : Option PwmDriver)
    (calls : List Call) (hdrawn : (Trace.run call (Controller.new (some d) beep heater) calls).2 ≠ []) :
    Truthful (Trace.run call (Controller.new (some d) beep heater) calls).1 := by
  have hstart : Faithful (Controller.new (some d) beep heater) [] :=
    ⟨rfl, fun _ => rfl, fun h => absurd rfl h⟩
  exact (Trace.run_invariant Faithful (fun s os c hs => call_faithful c hs) hstart calls).truthful hdrawn

/-- Frost, on a display that was lit all over; then the setpoint is lowered, and a sample comes meanwhile. -/
theorem display_truthful_frost :
    Truthful (Trace.run call (Controller.new (some ⟨Vector.replicate 32 255, []⟩) none none)
      [.input (.event ⟨.temperatureReady, -37⟩ 5), .input (.event ⟨.buttonS1, 1⟩ 6),
        .input (.event ⟨.temperatureReady, -36⟩ 7)]).1 := by
  apply display_truthful
  decide

end Controller
end Thermostat
