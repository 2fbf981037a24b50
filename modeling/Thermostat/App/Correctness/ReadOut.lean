import Thermostat.App.Correctness.HeatSource
import Thermostat.Drivers.Correctness.Panel
import Thermostat.Services.Correctness.Colder
import Thermostat.Services.Correctness.DisplayTruth

/-!
# `App.Correctness.ReadOut` — what is read off the panel

From the sensor's report to the glass: the events of the main loop on one side, and on the other side the
memory of the panel (`Drivers.Correctness.Panel`), which knows the three wires only. `ReadOut` says what
somebody reads there.

- `draw_follows`: the controller sends what it draws.
- `screenInv_upheld`: the controller's image is truthful as soon as anything has been drawn, and the image of
  the constructor before.
- **`panel_truthful`**: so in every run, and whatever state the panel was in at power-on, it is running, and
  reads as the last sample, or as the setpoint while that is shown.
-/

namespace Thermostat

open Config
open HT1621B (Watcher watch Follows)

/-! ## Image and memory -/

namespace HT1621B

/-- The memory has four bits of a cell, and all that is looked at is among them. -/
theorem nibble_and (x : UInt8) {y : UInt8} (hy : 0x0F &&& y = y) : (x &&& 0x0F) &&& y = x &&& y := by
  rw [UInt8.and_assoc, hy]

section Memory

variable {w : Watcher} {image : Bytes 32}

theorem Follows.reads (h : Follows w image) {p : Nat} {c : Char} (hreads : Reads image p c) :
    Reads w.2.ram p c := by
  intro k hlow hhigh
  have hbits : (0x0F : UInt8) &&& segmentBits k = segmentBits k := by
    unfold segmentBits
    split_ifs <;> rfl
  rw [h.ram _ (cell_lt hhigh), nibble_and _ hbits]
  exact hreads k hlow hhigh

theorem Follows.dotLit (h : Follows w image) {p : Nat} (hlow : 1 ≤ p) (hhigh : p < 6) :
    dotLit w.2.ram p = HT1621B.dotLit image p := by
  unfold HT1621B.dotLit
  rw [dots_eq hlow hhigh, h.ram _ (cell_lt (by omega)), nibble_and _ (show (0x0F : UInt8) &&& 2 = 2 from rfl)]

/-- No icon is on. -/
def Dark (v : Bytes 32) : Prop := ∀ icon ∈ icons, v.rd icon.addr &&& icon.val = 0

theorem icons_val : ∀ icon ∈ icons, icon.addr < 32 ∧ 0x0F &&& icon.val = icon.val := by decide

theorem Follows.dark (h : Follows w image) (hdark : Dark image) : Dark w.2.ram := by
  intro icon hicon
  obtain ⟨hbound, hbits⟩ := icons_val icon hicon
  rw [h.ram _ hbound, nibble_and _ hbits]
  exact hdark icon hicon

end Memory

end HT1621B

namespace Controller

/-- A memory reads `t`, a label, a blank, and the value in tenths, clamped to `-9.9 .. 99.9` as the panel has three
    places for it; only the decimal point is on. -/
def Displays (ram : Bytes 32) (label : Char) (value : Int) : Prop :=
  ∃ x y z, (∀ p, p < 6 → HT1621B.Reads ram p (HT1621B.shownAt ['t', label, ' ', x, y, z] p)) ∧
    (∀ p, 1 ≤ p → p < 6 → (HT1621B.dotLit ram p = true ↔ p = 1)) ∧
    readTenths x y z = some (Word.clamp value (-99) 999)

theorem displays_of_reports {w : Watcher} {d : HT1621B} (h : Follows w d.vram) {label : Char} {value : Int}
    (hreports : Reports d label value) : Displays w.2.ram label value := by
  obtain ⟨x, y, z, htext, hvalue⟩ := hreports
  refine ⟨x, y, z, fun p hp => h.reads (htext.reads p hp), ?_, hvalue⟩
  intro p hlow hhigh
  rw [h.dotLit hlow hhigh]
  exact htext.dots p hlow hhigh

/-! ## Drawings -/

/-- **What the controller draws, it sends.** -/
theorem draw_follows {w : Watcher} {d : HT1621B} (h : Follows (watch w d.wires) d.vram) (label : Char)
    (value : Int) : Follows (watch w (draw label value d).wires) (draw label value d).vram := by
  have hclear := HT1621B.edits_line (HT1621B.clearSegArea_edits d false)
  have htext := HT1621B.edits_line
    (HT1621B.showString_edits (d.clearSegArea false) (temperatureText label value) false)
  obtain ⟨e, hline, hflush⟩ := HT1621B.showDot_edits
    ((d.clearSegArea false).showString (temperatureText label value) false) 1 true true
  have hdraw : draw label value d = e.flush := hflush
  rw [hdraw]
  apply HT1621B.flush_follows
  rw [HT1621B.wires_of_line (hline.trans (htext.trans hclear))]
  exact h

theorem draw_dark {d : HT1621B} (h : HT1621B.Dark d.vram) (label : Char) (value : Int) :
    HT1621B.Dark (draw label value d).vram := by
  have hcalls : HT1621B.execAll d [.clearSegArea false, .showString (temperatureText label value) false,
      .showDot 1 true true] = some (draw label value d) := rfl
  obtain ⟨houtside, hmark⟩ := HT1621B.execAll_spec hcalls
  rw [show d.mark = 0 from h ⟨0x17, 2⟩ (by simp [HT1621B.icons, HT1621B.specials]), ite_self] at hmark
  intro icon hicon
  rcases HT1621B.icons_cases hicon with hout | rfl
  · rw [houtside _ hout]
    exact h icon hicon
  · exact hmark

/-- The controller has drawn a picture, or not touched the display. -/
def Redraws (s t : Controller) : Prop :=
  t.display = s.display ∨ ∃ label value, t.display = s.display.map (draw label value)

theorem processEvent_redraws (s : Controller) (e : Event) (now : UInt32) :
    Redraws s (s.processEvent e now) := by
  rcases processEvent_face s e now with ⟨-, hdraw⟩ | ⟨hsame, -⟩
  · exact Or.inr ⟨_, _, hdraw⟩
  · exact Or.inl hsame

theorem poll_redraws (s : Controller) (now : UInt32) : Redraws s (s.poll now) := by
  rcases poll_face s now with hdraw | hsame
  · exact Or.inr ⟨_, _, hdraw⟩
  · exact Or.inl (congrArg Controller.display hsame)

/-- The panel is a running one, with the image of the controller's display in its memory. -/
def Shown (w : Watcher) (s : Controller) : Prop :=
  ∃ d, s.display = some d ∧ Follows (watch w d.wires) d.vram ∧ HT1621B.Dark d.vram

theorem Redraws.shown {w : Watcher} {s t : Controller} (h : Redraws s t) (hs : Shown w s) : Shown w t := by
  obtain ⟨d, hd, hfollows, hdark⟩ := hs
  rcases h with hsame | ⟨label, value, hdraw⟩
  · exact ⟨d, hsame.trans hd, hfollows, hdark⟩
  · rw [hd] at hdraw
    exact ⟨_, hdraw, draw_follows hfollows label value, draw_dark hdark label value⟩

theorem Shown.attached {w : Watcher} {s : Controller} (h : Shown w s) : s.display.isSome = true := by
  obtain ⟨d, hd, -⟩ := h
  rw [hd]
  rfl

/-- Once the display is truthful, it stays so. -/
theorem processEvent_truthful {s : Controller} (h : Truthful s) (hattached : s.display.isSome = true)
    (e : Event) (now : UInt32) : Truthful (s.processEvent e now) := by
  rcases processEvent_face s e now with ⟨-, hdraw⟩ | ⟨hsame, hface, -⟩
  · exact truthful_of_draw hattached hdraw
  · exact truthful_of_same h hsame hface

theorem poll_truthful {s : Controller} (h : Truthful s) (hattached : s.display.isSome = true)
    (now : UInt32) : Truthful (s.poll now) := by
  rcases poll_face s now with hdraw | hsame
  · exact truthful_of_draw hattached hdraw
  · rw [hsame]
    exact h

end Controller

/-! ## Before the first drawing -/

namespace Heating

/-- The keys are up, and no setpoint shows. -/
def Fresh (h : Heating) : Prop := h.held = (false, false) ∧ h.showing = false

/-- An idle event is no origin. -/
theorem idle_origin (h : Heating) {e : Event} (he : Idle e) : h.originOf e = none := by
  unfold originOf
  rcases idle_action h he with hnone | hbeep
  · rw [hnone]
    rfl
  · rw [hbeep]
    rfl

/-- While the keys are up, every other event is one. -/
theorem fresh_origin {h : Heating} (hfresh : h.Fresh) {e : Event} (he : ¬ Idle e) : h.originOf e ≠ none := by
  obtain ⟨hs1, hs2⟩ := Prod.mk.inj hfresh.1
  obtain ⟨type, v⟩ := e
  unfold originOf
  have hvalue : type = .buttonS1 ∨ type = .buttonS2 → v = 1 ∨ v = 2 := by
    intro htype
    by_contra hother
    rw [not_or] at hother
    apply he
    refine ⟨?_, fun _ => hother⟩
    rintro rfl
    rcases htype with h | h <;> cases h
  cases type with
  | temperatureReady => exact Option.some_ne_none _
  | buttonS1 =>
      have hact : v = 1 ∨ v = 2 ∧ h.s1Held = false := (hvalue (Or.inl rfl)).imp_right (⟨·, hs1⟩)
      rw [action_buttonS1, if_pos hact]
      exact Option.some_ne_none _
  | buttonS2 =>
      have hact : v = 1 ∨ v = 2 ∧ h.s2Held = false := (hvalue (Or.inr rfl)).imp_right (⟨·, hs2⟩)
      rw [action_buttonS2, if_pos hact]
      exact Option.some_ne_none _
  | _ => exact absurd ⟨nofun, nofun⟩ he

theorem event_fresh {h : Heating} (hfresh : h.Fresh) {e : Event} (he : Idle e) (now : UInt32) :
    (h.event e now).Fresh := by
  obtain ⟨hs1, hs2⟩ := Prod.mk.inj hfresh.1
  refine ⟨?_, ?_⟩
  · rw [event_held]
    obtain ⟨type, v⟩ := e
    unfold hold held
    cases type with
    | buttonS1 =>
        obtain ⟨hone, -⟩ := he.2 (Or.inl rfl)
        change v ≠ 1 at hone
        simp [hs1, hs2, hone]
    | buttonS2 =>
        obtain ⟨hone, -⟩ := he.2 (Or.inr rfl)
        change v ≠ 1 at hone
        simp [hs1, hs2, hone]
    | _ => exact hfresh.1
  · have hquiet : h.originOf e ≠ some .setpoint := by
      rw [idle_origin h he]
      exact nofun
    exact (congrArg Prod.fst (event_screen hquiet now)).trans hfresh.2

/-! ## The current temperature -/

theorem event_current (h : Heating) (e : Event) (now : UInt32) :
    (h.event e now).current = if e.type = .temperatureReady then e.value else h.current := by
  by_cases htype : e.type = .temperatureReady
  · have hact : h.action e = some .temperatureSample := by
      unfold action
      rw [htype]
    unfold event
    rw [hact, if_pos htype]
    exact decideSample_current _ now
  · have hhold : (h.hold e).current = h.current := by
      unfold hold
      cases e.type <;> rfl
    unfold event
    rw [if_neg htype]
    cases hact : h.action e with
    | none => exact hhold
    | some a =>
        cases a with
        | temperatureSample => exact absurd (action_sample hact) htype
        | decreaseSetpoint => exact (enter_current _ _ now).trans hhold
        | increaseSetpoint => exact (enter_current _ _ now).trans hhold
        | pidTick => exact hhold
        | beep => exact (enter_current _ false now).trans hhold

theorem poll_current (h : Heating) (now : UInt32) : (h.poll now).current = h.current := by
  unfold poll
  split_ifs
  · exact enter_current _ _ now
  · rfl

end Heating

namespace App

open Heating (Idle)

/-! ## The controller's image in a run -/

/-- What holds of the controller and its display, `log` being the events dispatched so far. -/
structure ScreenInv (w : Watcher) (s : Controller) (log : List Event) : Prop where
  shown : s.Shown w
  fresh : (∀ e ∈ log, Idle e) → s.heating.Fresh ∧ s.display = boot.ctrl.display
  truthful : ¬ (∀ e ∈ log, Idle e) → s.Truthful
  current : ∀ v, LastSample log v → s.current = v
  unsampled : (∀ e ∈ log, e.type ≠ .temperatureReady) → s.current = 0

theorem screenInv_upheld (w : Watcher) : Upheld (ScreenInv w) where
  beep _ _ _ h := ⟨h.shown, h.fresh, h.truthful, h.current, h.unsampled⟩
  poll s log now h := by
    have hcurrent : (s.poll now).current = s.current := by
      have hcore := Heating.poll_current s.heating now
      rw [← Controller.heating_poll] at hcore
      exact hcore
    refine ⟨(Controller.poll_redraws s now).shown h.shown, ?_, ?_, ?_, ?_⟩
    · intro hidle
      obtain ⟨hfresh, hdisplay⟩ := h.fresh hidle
      have hshow : s.showingSetpoint = false := hfresh.2
      have hsame : s.poll now = s := by
        rw [Controller.poll_eq, hshow, if_neg (by simp)]
      rw [hsame]
      exact ⟨hfresh, hdisplay⟩
    · exact fun hbusy => Controller.poll_truthful (h.truthful hbusy) h.shown.attached now
    · exact fun v hv => hcurrent.trans (h.current v hv)
    · exact fun hnone => hcurrent.trans (h.unsampled hnone)
  event s log e now h := by
    have hcurrent : (s.processEvent e now).current
        = if e.type = .temperatureReady then e.value else s.current := by
      have hcore := Heating.event_current s.heating e now
      rw [← Controller.heating_processEvent] at hcore
      exact hcore
    have hall : (∀ d ∈ log ++ [e], Idle d) ↔ (∀ d ∈ log, Idle d) ∧ Idle e := by
      rw [List.forall_mem_append, List.forall_mem_singleton]
    refine ⟨(Controller.processEvent_redraws s e now).shown h.shown, ?_, ?_, ?_, ?_⟩
    · intro hidle
      obtain ⟨hbefore, he⟩ := hall.mp hidle
      obtain ⟨hfresh, hdisplay⟩ := h.fresh hbefore
      refine ⟨?_, ?_⟩
      · rw [Controller.heating_processEvent]
        exact Heating.event_fresh hfresh he now
      · rcases Controller.processEvent_face s e now with ⟨horigin, -⟩ | ⟨hsame, -⟩
        · rw [Controller.originOf_heating] at horigin
          exact absurd (Heating.idle_origin _ he) horigin
        · exact hsame.trans hdisplay
    · intro hbusy
      by_cases hbefore : ∀ d ∈ log, Idle d
      · -- the first event that is not idle draws
        obtain ⟨hfresh, -⟩ := h.fresh hbefore
        have he : ¬ Idle e := fun he => hbusy (hall.mpr ⟨hbefore, he⟩)
        have horigin : s.originOf e ≠ none := by
          rw [Controller.originOf_heating]
          exact Heating.fresh_origin hfresh he
        rcases Controller.processEvent_face s e now with ⟨-, hdraw⟩ | ⟨-, -, hnone | hshow⟩
        · exact Controller.truthful_of_draw h.shown.attached hdraw
        · exact absurd hnone horigin
        · rw [show s.showingSetpoint = false from hfresh.2] at hshow
          cases hshow
      · exact Controller.processEvent_truthful (h.truthful hbefore) h.shown.attached e now
    · intro v hv
      rw [hcurrent]
      rcases hv.of_snoc with rfl | ⟨htype, hlast⟩
      · exact if_pos rfl
      · rw [if_neg htype]
        exact h.current v hlast
    · intro hnone
      rw [hcurrent, if_neg (hnone e List.mem_concat_self)]
      exact h.unsampled fun d hd => hnone d (List.mem_append_left _ hd)

theorem screenInv_boot {w : Watcher} (h : HT1621B.Follows w (Bytes.zeros 32)) : ScreenInv w boot.ctrl [] := by
  have hdark : HT1621B.Dark (Bytes.zeros 32) := by
    intro icon _
    rw [Bytes.rd_zeros]
    exact UInt8.zero_and
  refine ⟨⟨_, rfl, h, hdark⟩, fun _ => ⟨⟨rfl, rfl⟩, rfl⟩, fun hbusy => absurd nofun hbusy, ?_, fun _ => rfl⟩
  intro v hv
  exact absurd hv.mem List.not_mem_nil

/-! ## The result -/

/-- What somebody reads off the panel, `log` being the events dispatched so far. -/
structure ReadOut (panel : HT1621B.Panel) (s : Controller) (log : List Event) : Prop where
  running : panel.Running
  /-- Before anything is measured or set, the panel is blank. -/
  blank : (∀ e ∈ log, Idle e) → ∀ a, a < 32 → panel.ram.rd a = 0
  setpoint : s.showingSetpoint = true → Controller.Displays panel.ram '2' s.setpoint
  sample : s.showingSetpoint = false → ∀ v, LastSample log v → Controller.Displays panel.ram '1' v
  /-- A setpoint that was shown before the first sample gives way to a temperature of zero. -/
  unsampled : s.showingSetpoint = false → ¬ (∀ e ∈ log, Idle e) →
    (∀ e ∈ log, e.type ≠ .temperatureReady) → Controller.Displays panel.ram '1' 0
  icons : HT1621B.Dark panel.ram

/-- A truthful image, behind the wires. -/
theorem ScreenInv.displays {w : Watcher} {s : Controller} {log : List Event} (h : ScreenInv w s log)
    (hbusy : ¬ ∀ e ∈ log, Idle e) {d : HT1621B} (hd : s.display = some d)
    (hfollows : HT1621B.Follows (watch w d.wires) d.vram) :
    if s.showingSetpoint then Controller.Displays (watch w d.wires).2.ram '2' s.setpoint
    else Controller.Displays (watch w d.wires).2.ram '1' s.current := by
  obtain ⟨d', hd', hreports⟩ := h.truthful hbusy
  obtain rfl : d' = d := Option.some.inj (hd'.symm.trans hd)
  split_ifs at hreports ⊢
  · exact Controller.displays_of_reports hfollows hreports
  · exact Controller.displays_of_reports hfollows hreports

theorem ScreenInv.readOut {w : Watcher} {s : Controller} {log : List Event} (h : ScreenInv w s log) :
    ∃ d, s.display = some d ∧ ReadOut (watch w d.wires).2 s log := by
  obtain ⟨d, hd, hfollows, hdark⟩ := h.shown
  refine ⟨d, hd, hfollows.running, ?_, ?_, ?_, ?_, hfollows.dark hdark⟩
  · intro hidle a ha
    obtain ⟨-, hdisplay⟩ := h.fresh hidle
    obtain rfl : (⟨Bytes.zeros 32, []⟩ : HT1621B) = d := Option.some.inj (hdisplay.symm.trans hd)
    rw [hfollows.ram a ha, Bytes.rd_zeros]
    exact UInt8.zero_and
  · intro hshow
    have hbusy : ¬ ∀ e ∈ log, Idle e := by
      intro hidle
      rw [show s.showingSetpoint = false from (h.fresh hidle).1.2] at hshow
      cases hshow
    simpa only [hshow, if_true] using h.displays hbusy hd hfollows
  · intro hshow v hv
    have hbusy : ¬ ∀ e ∈ log, Idle e := fun hidle => (hidle _ hv.mem).1 rfl
    have hdisplays := h.displays hbusy hd hfollows
    rw [h.current v hv] at hdisplays
    simpa only [hshow, Bool.false_eq_true, if_false] using hdisplays
  · intro hshow hbusy hnone
    have hdisplays := h.displays hbusy hd hfollows
    rw [h.unsampled hnone] at hdisplays
    simpa only [hshow, Bool.false_eq_true, if_false] using hdisplays

theorem run_screenInv (w : Watcher) (is : List Iteration) :
    ScreenInv (watch w HT1621B.new.wires) (Trace.run appLoop boot is).1.ctrl
      (dispatched (Trace.run appLoop boot is).2) := by
  have hnew := HT1621B.new_follows w
  rw [HT1621B.new_vram] at hnew
  exact run_ctrl_invariant (screenInv_upheld _) (screenInv_boot hnew) is

/-- **The panel tells the truth**, in every run of the main loop, whatever state the panel was in when the
    power came on and in the middle of whatever frame. -/
theorem panel_truthful (w : Watcher) (is : List Iteration) :
    ∃ d, (Trace.run appLoop boot is).1.ctrl.display = some d ∧
      ReadOut (watch w (HT1621B.new.wires ++ d.wires)).2 (Trace.run appLoop boot is).1.ctrl
        (dispatched (Trace.run appLoop boot is).2) := by
  obtain ⟨d, hd, hread⟩ := (run_screenInv w is).readOut
  refine ⟨d, hd, ?_⟩
  rw [HT1621B.watch_append]
  exact hread

end App
end Thermostat
