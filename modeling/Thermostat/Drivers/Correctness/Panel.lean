import Mathlib.Data.List.Induction
import Thermostat.Drivers.Correctness.FlushStream
import Thermostat.Drivers.Correctness.Icons

/-!
# `Drivers.Correctness.Panel` — the panel behind the wires

`Panel` is the display controller at the other end of the three wires: a memory of 32 nibbles, and the
settings that commands change. It knows nothing of the driver but the levels on the wires (`watch`), and it
may have been in any state, in the middle of a frame even, when the driver was constructed.

**`panel_follows`**: after any calls of the driver's public functions the panel is running, and its memory is
the image as it was after the last call that sends the image. Which calls do, their arguments tell
(`Call.flushes`).
-/

namespace Thermostat

open Serial

namespace HT1621B

/-! ## The panel -/

inductive Bias where
  | half
  | third
deriving DecidableEq, Repr

/-- The memory, the oscillator and the bias generator being on or not, and the two settings of the clock
    source and of the bias. -/
structure Panel where
  ram : Bytes 32
  system : Bool
  lcd : Bool
  rc : Bool
  bias : Bias
deriving DecidableEq, Repr

/-- The code of a command frame; its last bit means nothing. -/
def decodeCommand : List Bool → Option Nat
  | true :: false :: false :: bits => if bits.length = 9 then some (ofHigh (bits.take 8)) else none
  | _ => none

namespace Panel

/-- Obey a command; the panel has more of them than the driver. -/
def obey (p : Panel) : Nat → Panel
  | 0x00 => { p with system := false }
  | 0x01 => { p with system := true }
  | 0x02 => { p with lcd := false }
  | 0x03 => { p with lcd := true }
  | 0x18 => { p with rc := true }
  | 0x28 => { p with bias := .half }
  | 0x29 => { p with bias := .third }
  | _    => p

/-- Take a frame. -/
def take (p : Panel) (bits : List Bool) : Panel :=
  match decodeCommand bits with
  | some code => p.obey code
  | none => { p with ram := receive p.ram bits }

/-- The memory is displayed: the panel is on, with the settings that `Init` chooses. -/
structure Running (p : Panel) : Prop where
  system : p.system = true
  lcd : p.lcd = true
  rc : p.rc = true
  bias : p.bias = .half

end Panel

/-- The panel and its end of the wires. -/
abbrev Watcher := Serial.Receiver × Panel

/-- Follow the wires. -/
def watch (w : Watcher) (traffic : List (Wire × Bool)) : Watcher :=
  ((Trace.run Serial.Receiver.step w.1 traffic).1,
    (Trace.run Serial.Receiver.step w.1 traffic).2.foldl Panel.take w.2)

theorem watch_append (w : Watcher) (xs ys : List (Wire × Bool)) :
    watch w (xs ++ ys) = watch (watch w xs) ys := by
  unfold watch
  rw [Trace.run_append, List.foldl_append]

/-- Packets are taken as frames, after what was open before. -/
theorem watch_packets (w : Watcher) {frames : List (List Bool)} (hsome : frames ≠ []) :
    (watch w (frames.flatMap packet)).1.frame = none ∧
      (watch w (frames.flatMap packet)).2 = (w.1.frame.toList ++ frames).foldl Panel.take w.2 := by
  obtain ⟨clock, data, hrun⟩ := run_packets hsome w.1
  unfold watch
  rw [hrun]
  exact ⟨rfl, rfl⟩

/-! ## Commands on the wires -/

/-- The bits of a command frame. -/
def commandFrame (cmd : Commands) : List Bool :=
  [true, false, false] ++ outHigh 8 cmd.code.toBitVec ++ [false]

theorem writeCommand_wires (d : HT1621B) (cmd : Commands) :
    (d.writeCommand cmd).wires = d.wires ++ packet (commandFrame cmd) := by
  unfold writeCommand
  simp only [drive_wires, writeAddress_wires, writeBit_wires]
  unfold packet commandFrame
  simp only [List.flatMap_append, List.flatMap_cons, List.append_assoc, List.cons_append, List.nil_append]
  rfl

theorem decode_commandFrame (cmd : Commands) : decodeCommand (commandFrame cmd) = some cmd.code.toNat := by
  cases cmd <;> decide

theorem take_commandFrame (p : Panel) (cmd : Commands) : p.take (commandFrame cmd) = p.obey cmd.code.toNat := by
  unfold Panel.take
  rw [decode_commandFrame]

theorem take_cellFrame (d : HT1621B) (p : Panel) (i : Nat) :
    p.take (d.cellFrame i) = { p with ram := receive p.ram (d.cellFrame i) } := rfl

/-- The frames of an image go to the memory only. -/
theorem foldl_take_cellFrames (d : HT1621B) (cells : List Nat) (p : Panel) :
    (cells.map d.cellFrame).foldl Panel.take p
      = { p with ram := (cells.map d.cellFrame).foldl receive p.ram } := by
  induction cells generalizing p with
  | nil => rfl
  | cons i cells ih => rw [List.map_cons, List.foldl_cons, take_cellFrame, ih, List.foldl_cons]

/-! ## Image and memory -/

/-- Between two frames, the panel is running, and its memory is the image. -/
structure Follows (w : Watcher) (image : Bytes 32) : Prop where
  closed : w.1.frame = none
  running : w.2.Running
  ram : ∀ a, a < 32 → w.2.ram.rd a = image.rd a &&& 0x0F

/-- Frames that leave the panel running, and then those of an image. -/
theorem follows_packets (d : HT1621B) (w : Watcher) (frames : List (List Bool))
    (hrunning : ((w.1.frame.toList ++ frames).foldl Panel.take w.2).Running) :
    Follows (watch w ((frames ++ (List.range 32).map d.cellFrame).flatMap packet)) d.vram := by
  have hsome : frames ++ (List.range 32).map d.cellFrame ≠ [] :=
    List.append_ne_nil_of_right_ne_nil frames (by simp)
  obtain ⟨hclosed, hpanel⟩ := watch_packets w hsome
  rw [← List.append_assoc, List.foldl_append, foldl_take_cellFrames] at hpanel
  refine ⟨hclosed, ?_, ?_⟩
  · rw [hpanel]
    exact ⟨hrunning.system, hrunning.lcd, hrunning.rc, hrunning.bias⟩
  · intro a ha
    rw [hpanel]
    exact receive_cellFrames d _ ha

/-- **`Flush` brings the image to a running panel.** -/
theorem flush_follows {d : HT1621B} {w : Watcher} {image : Bytes 32} (h : Follows (watch w d.wires) image) :
    Follows (watch w d.flush.wires) d.flush.vram := by
  rw [flush_wires, watch_append, flush_vram]
  apply follows_packets d (watch w d.wires) []
  rw [h.closed]
  exact h.running

/-! ## What the functions put on the line -/

theorem foldl_line {α : Type*} (step : HT1621B → α → HT1621B) (h : ∀ d x, (step d x).line = d.line)
    (xs : List α) (d : HT1621B) : (xs.foldl step d).line = d.line := by
  induction xs generalizing d with
  | nil => rfl
  | cons x xs ih => rw [List.foldl_cons, ih, h]

theorem setData_line (d : HT1621B) (a : Nat) (x : UInt8) (mode : WriteMode) :
    (d.setData a x mode).line = d.line := by
  unfold setData
  split_ifs
  · rfl
  · cases mode <;> rfl

/-- An edit of the image, and then a flush or none. -/
def Edits (d d' : HT1621B) (flushed : Bool) : Prop := ∃ e : HT1621B, e.line = d.line ∧ d' = e.flushIf flushed

theorem flushIf_true (d : HT1621B) : d.flushIf true = d.flush := if_pos rfl

theorem edits_none (d : HT1621B) : Edits d d false := ⟨d, rfl, rfl⟩

theorem edits_line {d d' : HT1621B} (h : Edits d d' false) : d'.line = d.line := by
  obtain ⟨e, hline, rfl⟩ := h
  exact hline

/-- An edit that goes through a list. -/
theorem edits_foldl {α : Type*} (step : HT1621B → α → HT1621B) (h : ∀ d x, (step d x).line = d.line)
    (xs : List α) (d : HT1621B) (flushed : Bool) : Edits d ((xs.foldl step d).flushIf flushed) flushed :=
  ⟨xs.foldl step d, foldl_line step h xs d, rfl⟩

theorem fullClear_edits (d : HT1621B) (flushNow : Bool) : Edits d (d.fullClear flushNow) flushNow := by
  unfold fullClear
  exact edits_foldl (fun d i => { d with vram := d.vram.wr i 0 }) (fun _ _ => rfl) _ d flushNow

theorem showFull_edits (d : HT1621B) (flushNow : Bool) : Edits d (d.showFull flushNow) flushNow := by
  unfold showFull
  exact edits_foldl (fun d i => { d with vram := d.vram.wr i 0xFF }) (fun _ _ => rfl) _ d flushNow

theorem clearSegArea_edits (d : HT1621B) (flushNow : Bool) : Edits d (d.clearSegArea flushNow) flushNow := by
  unfold clearSegArea
  apply edits_foldl
  intro d i
  split_ifs <;> rfl

theorem showDot_edits (d : HT1621B) (position : Nat) (enable flushNow : Bool) :
    Edits d (d.showDot position enable flushNow) (flushNow && decide (1 ≤ position ∧ position < 6)) := by
  unfold showDot
  by_cases hbad : position = 0 ∨ position ≥ 6
  · rw [if_pos hbad, decide_eq_false (by omega), Bool.and_false]
    exact edits_none d
  · rw [if_neg hbad, decide_eq_true (by omega), Bool.and_true]
    exact ⟨_, setData_line d _ _ _, rfl⟩

theorem showDigit_edits (d : HT1621B) (position digit : Nat) (withDot flushNow : Bool) :
    Edits d (d.showDigit position digit withDot flushNow)
      (flushNow && decide (position < 6 ∧ digit ≤ 9)) := by
  unfold showDigit
  by_cases hbad : position ≥ 6 ∨ digit > 9
  · rw [if_pos hbad, decide_eq_false (by omega), Bool.and_false]
    exact edits_none d
  · rw [if_neg hbad, decide_eq_true (by omega), Bool.and_true]
    refine ⟨_, ?_, rfl⟩
    have hsegs := foldl_line (fun d seg => d.setData (seg.addr + (5 - position) * 4) seg.val .replace)
      (fun d seg => setData_line d _ _ _) ((digits digit).takeWhile (fun seg => seg.addr ≠ 0)) d
    split_ifs
    · exact (edits_line (showDot_edits _ position true false)).trans hsegs
    · exact hsegs

theorem showLetter_edits (d : HT1621B) (position : Nat) (c : Char) (flushNow : Bool) :
    Edits d (d.showLetter position c flushNow) (flushNow && (decide (position < 6) && (letters c).isSome)) := by
  unfold showLetter
  by_cases hbad : position ≥ 6
  · rw [if_pos hbad, decide_eq_false (Nat.not_lt.mpr hbad), Bool.false_and, Bool.and_false]
    exact edits_none d
  · rw [if_neg hbad, decide_eq_true (Nat.not_le.mp hbad), Bool.true_and]
    cases letters c with
    | none =>
        rw [Option.isSome_none, Bool.and_false]
        exact edits_none d
    | some segs =>
        rw [Option.isSome_some, Bool.and_true]
        apply edits_foldl
        intro d seg
        split_ifs
        · exact setData_line d _ _ _
        · rfl

theorem showChar_line (d : HT1621B) (i : Nat) (c : Char) : (d.showChar i c).line = d.line := by
  unfold showChar
  split_ifs
  · exact edits_line (showDigit_edits d i _ false false)
  · exact edits_line (showLetter_edits d i c false)

theorem showString_edits (d : HT1621B) (str : List Char) (flushNow : Bool) :
    Edits d (d.showString str flushNow) flushNow := by
  refine ⟨(d.clearSegArea false).showChars (str.take 6).reverse 0, ?_, rfl⟩
  have hchars := foldl_line (fun d (ci : Char × Nat) => d.showChar ci.2 ci.1)
    (fun d ci => showChar_line d ci.2 ci.1) (str.take 6).reverse.zipIdx (d.clearSegArea false)
  exact hchars.trans (edits_line (clearSegArea_edits d false))

theorem drawDigits_line (d : HT1621B) (drawn : List (Char × Nat)) :
    (drawn.foldl (fun d ci => d.showDigit ci.2 (ci.1.toNat - '0'.toNat) false false) d).line = d.line :=
  foldl_line _ (fun d ci => edits_line (showDigit_edits d ci.2 _ false false)) drawn d

theorem showInt_edits {d d' : HT1621B} {value : Int} {flushNow : Bool}
    (h : d.showInt value flushNow = some d') : Edits d d' flushNow := by
  unfold showInt at h
  cases hbuf : itoaSimple value with
  | none =>
      rw [hbuf] at h
      cases h
  | some buf =>
      rw [hbuf] at h
      simp only at h
      generalize (if value < 0 then 1 else 0) = start at h
      -- dashes, a number with its sign, and a number without one
      split_ifs at h
      · rw [← Option.some.inj h]
        exact edits_foldl _ (fun d i => setData_line d _ _ _) _ d flushNow
      · rw [← Option.some.inj h]
        exact ⟨_, (setData_line _ _ _ _).trans (drawDigits_line d _), rfl⟩
      · rw [← Option.some.inj h]
        exact ⟨_, drawDigits_line d _, rfl⟩

theorem showSpecial_edits (d : HT1621B) (type : Nat) (enable flushNow : Bool) :
    Edits d (d.showSpecial type enable flushNow) (flushNow && decide (type ≤ 3)) := by
  unfold showSpecial
  by_cases hbad : type > 3
  · rw [if_pos hbad, decide_eq_false (Nat.not_le.mpr hbad), Bool.and_false]
    exact edits_none d
  · rw [if_neg hbad, decide_eq_true (Nat.not_lt.mp hbad), Bool.and_true]
    exact ⟨_, setData_line d _ _ _, rfl⟩

theorem showChargeLevel_edits (d : HT1621B) (level : Nat) (flushNow : Bool) :
    Edits d (d.showChargeLevel level flushNow) flushNow := by
  unfold showChargeLevel
  exact edits_foldl _ (fun d seg => setData_line d _ _ _) _ d flushNow

/-- The arguments are a day and a month of the calendar, as far as `ShowDate` looks at them. -/
def IsDate (day month : UInt8) : Prop :=
  (1 ≤ day.toNat % 100 ∧ day.toNat % 100 ≤ 31) ∧ 1 ≤ month.toNat % 100 ∧ month.toNat % 100 ≤ 12

instance (day month : UInt8) : Decidable (IsDate day month) :=
  inferInstanceAs (Decidable ((1 ≤ day.toNat % 100 ∧ day.toNat % 100 ≤ 31) ∧
    1 ≤ month.toNat % 100 ∧ month.toNat % 100 ≤ 12))

theorem isDate_iff {day month : UInt8} : IsDate day month ↔
    ¬ ((day.toNat % 100 = 0 ∨ day.toNat % 100 > 31) ∨ (month.toNat % 100 = 0 ∨ month.toNat % 100 > 12)) := by
  unfold IsDate
  omega

theorem showDate_edits (d : HT1621B) (day month year : UInt8) (flushNow : Bool) :
    Edits d (d.showDate day month year flushNow) (flushNow && decide (IsDate day month)) := by
  unfold showDate
  by_cases hdate : IsDate day month
  · rw [if_neg (isDate_iff.mp hdate), decide_eq_true hdate, Bool.and_true]
    have hdigits := foldl_line
      (fun d (digit : Nat × Nat) => d.showDigit digit.2 digit.1 (digit.2 = 2 ∨ digit.2 = 4) false)
      (fun d digit => edits_line (showDigit_edits d digit.2 digit.1 _ false))
      (dateDigits (day.toNat % 100) (month.toNat % 100) (year.toNat % 100)).zipIdx (d.fullClear false)
    exact ⟨_, hdigits.trans (edits_line (fullClear_edits d false)), rfl⟩
  · rw [if_pos (not_not.mp (mt isDate_iff.mpr hdate)), decide_eq_false hdate, Bool.and_false]
    exact edits_none d

/-! ## Calls -/

/-- A call of one of the public functions. -/
inductive Call where
  | text (t : TextCall)
  | flush
  | fullClear (flushNow : Bool)
  | init
  | showSpecial (type : UInt8) (enable flushNow : Bool)
  | showFull (flushNow : Bool)
  | showChargeLevel (level : UInt8) (flushNow : Bool)
  | showDate (day month year : UInt8) (flushNow : Bool)

/-- Execute a call; `none` where the source has no defined behaviour. -/
def Call.exec (d : HT1621B) : Call → Option HT1621B
  | .text t                           => t.exec d
  | .flush                            => some d.flush
  | .fullClear flushNow               => some (d.fullClear flushNow)
  | .init                             => some d.init
  | .showSpecial type enable flushNow => some (d.showSpecial type.toNat enable flushNow)
  | .showFull flushNow                => some (d.showFull flushNow)
  | .showChargeLevel level flushNow   => some (d.showChargeLevel level.toNat flushNow)
  | .showDate day month year flushNow => some (d.showDate day month year flushNow)

/-- Execute one call after the other. -/
def callAll (d : HT1621B) (calls : List Call) : Option HT1621B := calls.foldlM Call.exec d

/-- The call is told to send the image, and does not return before it gets there. -/
def TextCall.flushes : TextCall → Bool
  | .clearSegArea flushNow                 => flushNow
  | .showDigit position digit _ flushNow   => flushNow && decide (position.toNat < 6 ∧ digit.toNat ≤ 9)
  | .showLetter position c flushNow        => flushNow && (decide (position.toNat < 6) && (letters c).isSome)
  | .showString _ flushNow                 => flushNow
  | .showInt _ flushNow                    => flushNow
  | .showDot position _ flushNow           => flushNow && decide (1 ≤ position.toNat ∧ position.toNat < 6)

def Call.flushes : Call → Bool
  | .text t                        => t.flushes
  | .flush                         => true
  | .fullClear flushNow            => flushNow
  | .init                          => true
  | .showSpecial type _ flushNow   => flushNow && decide (type.toNat ≤ 3)
  | .showFull flushNow             => flushNow
  | .showChargeLevel _ flushNow    => flushNow
  | .showDate day month _ flushNow => flushNow && decide (IsDate day month)

theorem text_edits {d d' : HT1621B} {t : TextCall} (h : t.exec d = some d') : Edits d d' t.flushes := by
  cases t with
  | clearSegArea flushNow => exact Option.some.inj h ▸ clearSegArea_edits d flushNow
  | showDigit p n withDot flushNow => exact Option.some.inj h ▸ showDigit_edits d p.toNat n.toNat withDot flushNow
  | showLetter p c flushNow => exact Option.some.inj h ▸ showLetter_edits d p.toNat c flushNow
  | showString str flushNow => exact Option.some.inj h ▸ showString_edits d str flushNow
  | showInt value flushNow => exact showInt_edits h
  | showDot p enable flushNow => exact Option.some.inj h ▸ showDot_edits d p.toNat enable flushNow

/-- Every call but the initialisation edits the image, and then sends it or does not. -/
theorem exec_edits {d d' : HT1621B} {c : Call} (h : c.exec d = some d') (hinit : c ≠ .init) :
    Edits d d' c.flushes := by
  cases c with
  | text t => exact text_edits h
  | flush => exact ⟨d, rfl, (Option.some.inj h).symm⟩
  | fullClear flushNow => exact Option.some.inj h ▸ fullClear_edits d flushNow
  | init => exact absurd rfl hinit
  | showSpecial type enable flushNow => exact Option.some.inj h ▸ showSpecial_edits d type.toNat enable flushNow
  | showFull flushNow => exact Option.some.inj h ▸ showFull_edits d flushNow
  | showChargeLevel level flushNow => exact Option.some.inj h ▸ showChargeLevel_edits d level.toNat flushNow
  | showDate day month year flushNow => exact Option.some.inj h ▸ showDate_edits d day month year flushNow

/-- The commands of `Init`. -/
def setup : List Commands := [.rc256K, .bias12, .sysEn, .lcdOn]

theorem wires_of_line {d e : HT1621B} (h : e.line = d.line) : e.wires = d.wires := by
  unfold wires
  rw [h]

/-- **`Init` starts the panel**, whatever state the panel and the wires are in. -/
theorem init_follows (w : Watcher) (d : HT1621B) : Follows (watch w d.init.wires) d.init.vram := by
  obtain ⟨e, hline, hflush⟩ := fullClear_edits
    ((((d.writeCommand .rc256K).writeCommand .bias12).writeCommand .sysEn).writeCommand .lcdOn) true
  have hinit : d.init = e.flush := hflush
  have hwires : e.flush.wires
      = d.wires ++ (setup.map commandFrame ++ (List.range 32).map e.cellFrame).flatMap packet := by
    rw [flush_wires, wires_of_line hline, List.flatMap_append, ← List.append_assoc]
    simp only [writeCommand_wires, List.append_assoc]
    rfl
  rw [hinit, flush_vram, hwires, watch_append]
  apply follows_packets
  rw [List.foldl_append]
  -- whatever the panel makes of what was open, the four commands set all there is to set
  generalize (watch w d.wires).1.frame.toList.foldl Panel.take (watch w d.wires).2 = p
  simp only [setup, List.map_cons, List.map_nil, List.foldl_cons, List.foldl_nil, take_commandFrame]
  exact ⟨rfl, rfl, rfl, rfl⟩

theorem new_follows (w : Watcher) : Follows (watch w new.wires) new.vram := by
  unfold new
  exact init_follows w _

/-- The image of the constructor is blank. -/
theorem new_vram : new.vram = Bytes.zeros 32 := by
  apply Bytes.ext_rd
  intro a ha
  unfold new init fullClear
  rw [flushIf_vram, rewrite_rd (fun _ _ => 0) List.nodup_range ha, if_pos (List.mem_range.mpr ha),
    Bytes.rd_zeros]

/-- A run of calls that is longer by one. -/
theorem callAll_snoc {d d' : HT1621B} {calls : List Call} {c : Call} (h : callAll d (calls ++ [c]) = some d') :
    ∃ e, callAll d calls = some e ∧ c.exec e = some d' := by
  unfold callAll at h ⊢
  rw [List.foldlM_append] at h
  obtain ⟨e, hcalls, hlast⟩ := Option.bind_eq_some_iff.mp h
  rw [List.foldlM_cons] at hlast
  obtain ⟨e', hexec, hend⟩ := Option.bind_eq_some_iff.mp hlast
  rw [← Option.some.inj hend]
  exact ⟨e, hcalls, hexec⟩

/-- **The panel follows the driver.** Whatever state the panel and the wires were in when the driver was
    constructed: after any calls the panel is running, and its memory is the image as the last call that
    sends it has left it. -/
theorem panel_follows (w : Watcher) {calls : List Call} {d : HT1621B} (h : callAll new calls = some d) :
    (watch w d.wires).2.Running ∧ ∃ pre post e, calls = pre ++ post ∧ callAll new pre = some e ∧
      (∀ c ∈ pre.getLast?, c.flushes = true) ∧ (∀ c ∈ post, c.flushes = false) ∧
      ∀ a, a < 32 → (watch w d.wires).2.ram.rd a = e.vram.rd a &&& 0x0F := by
  suffices hsplit : ∃ pre post e, calls = pre ++ post ∧ callAll new pre = some e ∧
      (∀ c ∈ pre.getLast?, c.flushes = true) ∧ (∀ c ∈ post, c.flushes = false) ∧
      Follows (watch w d.wires) e.vram by
    obtain ⟨pre, post, e, hcalls, hpre, hlast, hpost, hfollows⟩ := hsplit
    exact ⟨hfollows.running, pre, post, e, hcalls, hpre, hlast, hpost, hfollows.ram⟩
  induction calls using List.reverseRecOn generalizing d with
  | nil =>
      obtain rfl : new = d := Option.some.inj h
      exact ⟨[], [], new, rfl, rfl, nofun, nofun, new_follows w⟩
  | append_singleton calls c ih =>
      obtain ⟨d₁, hcalls, hc⟩ := callAll_snoc h
      obtain ⟨pre, post, e, rfl, hpre, hlast, hpost, hfollows⟩ := ih hcalls
      by_cases hflushes : c.flushes = true
      · -- the panel has got the present image
        refine ⟨pre ++ post ++ [c], [], d, (List.append_nil _).symm, h, ?_, nofun, ?_⟩
        · rw [List.getLast?_concat]
          rintro _ ⟨⟩
          exact hflushes
        · by_cases hinit : c = .init
          · subst hinit
            obtain rfl : d₁.init = d := Option.some.inj hc
            exact init_follows w d₁
          · obtain ⟨edited, hline, rfl⟩ := exec_edits hc hinit
            rw [hflushes, flushIf_true]
            rw [← wires_of_line hline] at hfollows
            exact flush_follows hfollows
      · -- it has got nothing
        have hquiet : c.flushes = false := Bool.eq_false_iff.mpr hflushes
        have hinit : c ≠ .init := by
          rintro rfl
          exact hflushes rfl
        obtain hedits := exec_edits hc hinit
        rw [hquiet] at hedits
        refine ⟨pre, post ++ [c], e, List.append_assoc _ _ _, hpre, hlast, ?_, ?_⟩
        · intro c' hc'
          rcases List.mem_append.mp hc' with hmem | hmem
          · exact hpost c' hmem
          · rw [List.mem_singleton.mp hmem]
            exact hquiet
        · rw [wires_of_line (edits_line hedits)]
          exact hfollows

/-- A dot that is sent, and one that is not, to a panel that was in the middle of a frame. -/
theorem panel_follows_dots :
    let w : Watcher := (⟨some [true, false], false, true⟩, ⟨Bytes.zeros 32, true, false, false, .third⟩)
    (watch w ((new.showDot 1 true true).showDot 2 true false).wires).2.Running := by
  intro w
  have hcalls : callAll new [.text (.showDot 1 true true), .text (.showDot 2 true false)]
      = some ((new.showDot 1 true true).showDot 2 true false) := rfl
  exact (panel_follows w hcalls).1

end HT1621B
end Thermostat
