import Mathlib.Data.Fintype.Basic
import Mathlib.Tactic.FinCases
import Thermostat.Drivers.HardwareInit

/-!
# `Drivers.Correctness.PinMap` — the pins after `hardware_init`

A port packs the settings of its sixteen pins into shared registers. `Gpio.pin` is one pin by itself, and
**`call_pin`** says that a call of the driver changes its own pin only, in the way `PinState.apply` says: the
registers implement independent pins.

**`hardwareInit_board`** reads the board off this. Whatever the registers held before, every pin the program uses
ends with the settings in `board`, and all other pins, those of the debugger among them, keep everything.
-/

namespace Thermostat

open GpioDriver

/-! ## One pin by itself -/

structure PinState where
  mode : BitVec 2
  type : BitVec 1
  pull : BitVec 2
  speed : BitVec 2
  af : BitVec 4
  level : BitVec 1
deriving DecidableEq, Repr

namespace PinState

/-- What a call does to its pin; `on` tells whether the clock of its port is on. -/
def apply (on : Bool) (s : PinState) : Call → PinState
  | .init mode type pull speed =>
      { s with mode := mode.bits, type := type.bits, pull := pull.bits, speed := speed.bits }
  | .setAlternateFunction af => { s with mode := Mode.bits .alternate, af := af.setWidth 4 }
  | .set    => if on then { s with level := 1 } else s
  | .reset  => if on then { s with level := 0 } else s
  | .toggle => if on then { s with level := ~~~ s.level } else s

end PinState

namespace GpioRegs

def pin (r : GpioRegs) (i : Fin 16) : PinState where
  mode := Fields.get 2 r.moder i
  type := Fields.get 1 r.otyper i
  pull := Fields.get 2 r.pupdr i
  speed := Fields.get 2 r.ospeedr i
  af := if i.val ≤ 7 then Fields.get 4 r.afr0 i else Fields.get 4 r.afr1 (i.val - 8)
  level := Fields.get 1 r.odr i

def setPin (r : GpioRegs) (i : Fin 16) (s : PinState) : GpioRegs where
  moder := Fields.set r.moder i s.mode
  otyper := Fields.set r.otyper i s.type
  pupdr := Fields.set r.pupdr i s.pull
  ospeedr := Fields.set r.ospeedr i s.speed
  afr0 := if i.val ≤ 7 then Fields.set r.afr0 i s.af else r.afr0
  afr1 := if i.val ≤ 7 then r.afr1 else Fields.set r.afr1 (i.val - 8) s.af
  odr := Fields.set r.odr i s.level

theorem pin_setPin_same (r : GpioRegs) (i : Fin 16) (s : PinState) : (r.setPin i s).pin i = s := by
  have hrange : i.val < 16 := i.isLt
  have haf : (if i.val ≤ 7 then Fields.get 4 (r.setPin i s).afr0 i
      else Fields.get 4 (r.setPin i s).afr1 (i.val - 8)) = s.af := by
    by_cases hlow : i.val ≤ 7
    · simp only [setPin, if_pos hlow]
      exact Fields.get_set_same _ _ (by omega)
    · simp only [setPin, if_neg hlow]
      exact Fields.get_set_same _ _ (by omega)
  unfold pin
  rw [haf]
  simp only [setPin]
  rw [Fields.get_set_same _ _ (by omega), Fields.get_set_same _ _ (by omega), Fields.get_set_same _ _ (by omega),
    Fields.get_set_same _ _ (by omega), Fields.get_set_same _ _ (by omega)]

theorem pin_setPin_ne (r : GpioRegs) {i j : Fin 16} (s : PinState) (h : i ≠ j) : (r.setPin i s).pin j = r.pin j := by
  have hval : i.val ≠ j.val := fun heq => h (Fin.ext heq)
  have haf : (if j.val ≤ 7 then Fields.get 4 (r.setPin i s).afr0 j
      else Fields.get 4 (r.setPin i s).afr1 (j.val - 8)) =
      if j.val ≤ 7 then Fields.get 4 r.afr0 j else Fields.get 4 r.afr1 (j.val - 8) := by
    by_cases hlow : i.val ≤ 7 <;> by_cases hjlow : j.val ≤ 7
    · simp only [setPin, if_pos hlow, if_pos hjlow]
      exact Fields.get_set_ne _ _ hval
    · simp only [setPin, if_pos hlow, if_neg hjlow]
    · simp only [setPin, if_neg hlow, if_pos hjlow]
    · simp only [setPin, if_neg hlow, if_neg hjlow]
      exact Fields.get_set_ne _ _ (by omega)
  unfold pin
  rw [haf]
  simp only [setPin]
  rw [Fields.get_set_ne _ _ hval, Fields.get_set_ne _ _ hval, Fields.get_set_ne _ _ hval,
    Fields.get_set_ne _ _ hval, Fields.get_set_ne _ _ hval]

end GpioRegs

def Gpio.pin (g : Gpio) (d : GpioDriver) : PinState := (g.regs d.port).pin d.pin

/-! ## The updates are updates of fields -/

namespace GpioDriver

variable (d e : GpioDriver) (r : BitVec 32)

theorem field2_eq (bits : BitVec 2) : d.field2 r bits = Fields.set r d.pin.val bits := by
  have hmask : Fields.mask 32 2 d.pin.val = 0b11#32 <<< d.pinPos := by
    show (BitVec.allOnes 2).setWidth 32 <<< (2 * d.pin.val) = 0b11#32 <<< (d.pin.val * 2)
    rw [Nat.mul_comm]
    rfl
  show (r &&& ~~~(0b11#32 <<< d.pinPos)) ||| (bits.setWidth 32 <<< (d.pin.val * 2)) = _
  rw [← hmask, Nat.mul_comm]
  rfl

theorem mask1_eq : Fields.mask 32 1 d.pin.val = d.pinMask := by
  show (BitVec.allOnes 1).setWidth 32 <<< (1 * d.pin.val) = 1#32 <<< d.pin.val
  rw [Nat.one_mul]
  rfl

theorem otyper_eq (bits : BitVec 1) :
    (r &&& ~~~d.pinMask) ||| (bits.setWidth 32 <<< d.pin.val) = Fields.set r d.pin.val bits := by
  unfold Fields.set
  rw [mask1_eq, Nat.one_mul]

theorem afr_eq (i : Nat) (af : BitVec 8) :
    (r &&& ~~~(0xF#32 <<< (i * 4))) ||| ((af &&& 0xF).setWidth 32 <<< (i * 4)) = Fields.set r i (af.setWidth 4) := by
  have hmask : Fields.mask 32 4 i = 0xF#32 <<< (i * 4) := by
    show (BitVec.allOnes 4).setWidth 32 <<< (4 * i) = 0xF#32 <<< (i * 4)
    rw [Nat.mul_comm]
    rfl
  have hlow : (af &&& 0xF).setWidth 32 = (af.setWidth 4).setWidth 32 := by
    revert af
    decide
  unfold Fields.set
  rw [hmask, hlow, Nat.mul_comm i 4]

theorem set_eq : r ||| d.pinMask = Fields.set r d.pin.val 1#1 := by
  rw [← d.mask1_eq]
  exact (Fields.set_ones r d.pin.val).symm

theorem reset_eq : r &&& ~~~d.pinMask = Fields.set r d.pin.val 0#1 := by
  rw [← d.mask1_eq]
  exact (Fields.set_zero r d.pin.val).symm

/-- `Read` looks at its own pin. -/
theorem read_eq (idr : BitVec 32) : d.read idr = idr.getLsbD d.pin.val := by
  have hrange : d.pin.val < 32 := Nat.lt_trans d.pin.isLt (by decide)
  have hone : BitVec.twoPow 32 d.pin.val ≠ 0#32 := by
    intro h
    have hbit := congrArg (fun r => BitVec.getLsbD r d.pin.val) h
    simp [hrange] at hbit
  unfold read pinMask
  rw [← BitVec.twoPow_eq, BitVec.and_twoPow]
  cases idr.getLsbD d.pin.val
  · rfl
  · exact bne_iff_ne.mpr hone

theorem toggle_eq : r ^^^ d.pinMask = Fields.set r d.pin.val (~~~ Fields.get 1 r d.pin.val) := by
  ext k hk
  rcases Nat.lt_trichotomy k d.pin.val with hbelow | hown | habove
  · simp [Fields.set, Fields.mask, Fields.get, pinMask, hbelow]
  · subst hown
    simp [Fields.set, Fields.mask, Fields.get, pinMask, BitVec.getLsbD_eq_getElem hk]
  · have hnot : ¬ k < d.pin.val := by omega
    have hfar : ¬ k - d.pin.val = 0 := by omega
    simp [Fields.set, Fields.mask, Fields.get, pinMask, hnot, hfar]

end GpioDriver

/-! ## A call changes its own pin -/

/-- A write that sets the fields of one pin is seen by this pin, if its port runs, and by no other one. -/
theorem Gpio.write_pin (g : Gpio) (d e : GpioDriver) {f : GpioRegs → GpioRegs} (v : PinState → PinState)
    (hf : ∀ r, f r = r.setPin d.pin (v (r.pin d.pin))) :
    (g.write d.port f).pin e = if d = e then (if g.ahbenr d.port then v (g.pin e) else g.pin e) else g.pin e := by
  by_cases hon : g.ahbenr d.port = true
  · have hregs : (g.write d.port f).pin e =
        (if e.port = d.port then f (g.regs d.port) else g.regs e.port).pin e.pin := by
      unfold Gpio.write
      rw [if_pos hon]
      rfl
    rw [hregs, if_pos hon]
    by_cases hd : d = e
    · subst hd
      rw [if_pos rfl, if_pos rfl, hf]
      exact GpioRegs.pin_setPin_same _ _ _
    · rw [if_neg hd]
      by_cases hport : e.port = d.port
      · have hpin : d.pin ≠ e.pin := by
          intro hpin
          obtain ⟨p, i⟩ := d
          obtain ⟨q, j⟩ := e
          exact hd (congrArg₂ GpioDriver.mk hport.symm hpin)
        rw [if_pos hport, hf, ← hport]
        exact GpioRegs.pin_setPin_ne _ _ hpin
      · rw [if_neg hport]
        rfl
  · have hoff : g.write d.port f = g := if_neg hon
    rw [hoff, if_neg hon, ite_self]

namespace GpioDriver

variable (g : Gpio) (d e : GpioDriver)

/-- The calls that configure a pin switch the clock of its port on first. -/
theorem configure_pin {f : GpioRegs → GpioRegs} (v : PinState → PinState)
    (hf : ∀ r, f r = r.setPin d.pin (v (r.pin d.pin))) :
    ((g.enableClock d.port).write d.port f).pin e = if d = e then v (g.pin e) else g.pin e := by
  have hon : (g.enableClock d.port).ahbenr d.port = true := if_pos rfl
  rw [Gpio.write_pin _ d e v hf, if_pos hon]
  rfl

/-- **A call changes its own pin only.** -/
theorem call_pin (c : Call) :
    (d.call c g).pin e = if d = e then (g.pin e).apply (g.ahbenr d.port) c else g.pin e := by
  cases c with
  | init mode type pull speed =>
    refine configure_pin g d e (fun s => s.apply true (.init mode type pull speed)) fun r => ?_
    simp only [field2_eq, otyper_eq, PinState.apply, GpioRegs.setPin, GpioRegs.pin, Fields.set_get]
    split_ifs <;> simp only [Fields.set_get]
  | setAlternateFunction af =>
    refine configure_pin g d e (fun s => s.apply true (.setAlternateFunction af)) fun r => ?_
    simp only [field2_eq, afr_eq, PinState.apply, GpioRegs.setPin, GpioRegs.pin, Fields.set_get]
    split_ifs <;> rfl
  | set =>
    refine Gpio.write_pin g d e (fun s => { s with level := 1#1 }) fun r => ?_
    simp only [set_eq, GpioRegs.setPin, GpioRegs.pin, Fields.set_get]
    split_ifs <;> simp only [Fields.set_get]
  | reset =>
    refine Gpio.write_pin g d e (fun s => { s with level := 0#1 }) fun r => ?_
    simp only [reset_eq, GpioRegs.setPin, GpioRegs.pin, Fields.set_get]
    split_ifs <;> simp only [Fields.set_get]
  | toggle =>
    refine Gpio.write_pin g d e (fun s => { s with level := ~~~ s.level }) fun r => ?_
    simp only [toggle_eq, GpioRegs.setPin, GpioRegs.pin, Fields.set_get]
    split_ifs <;> simp only [Fields.set_get]

/-- The calls that switch the clock of the port on. -/
def Call.clocks : Call → Bool
  | .init _ _ _ _ | .setAlternateFunction _ => true
  | .set | .reset | .toggle                 => false

theorem call_ahbenr (c : Call) (p : Port) :
    (d.call c g).ahbenr p = if c.clocks ∧ p = d.port then true else g.ahbenr p := by
  have hwrite : ∀ (g : Gpio) p f q, (g.write p f).ahbenr q = g.ahbenr q := by
    intro g p f q
    unfold Gpio.write
    split_ifs <;> rfl
  cases c with
  | init _ _ _ _ | setAlternateFunction _ =>
    refine (hwrite _ _ _ p).trans ?_
    simp only [Gpio.enableClock, Call.clocks, true_and]
  | set | reset | toggle =>
    refine (hwrite _ _ _ p).trans ?_
    simp only [Call.clocks, Bool.false_eq_true, false_and, if_false]

end GpioDriver

/-! ## Runs -/

/-- The calls on one pin. -/
def GpioDriver.own (e : GpioDriver) (calls : List (GpioDriver × Call)) : List Call :=
  (calls.filter fun c => c.1 = e).map fun c => c.2

theorem GpioDriver.own_same (e : GpioDriver) (c : Call) (calls : List (GpioDriver × Call)) :
    e.own ((e, c) :: calls) = c :: e.own calls := by
  unfold GpioDriver.own
  rw [List.filter_cons_of_pos (by simp)]
  rfl

theorem GpioDriver.own_ne {d e : GpioDriver} (h : d ≠ e) (c : Call) (calls : List (GpioDriver × Call)) :
    e.own ((d, c) :: calls) = e.own calls := by
  unfold GpioDriver.own
  rw [List.filter_cons_of_neg (by simpa using h)]

theorem GpioDriver.own_append (e : GpioDriver) (xs ys : List (GpioDriver × Call)) :
    e.own (xs ++ ys) = e.own xs ++ e.own ys := by
  unfold GpioDriver.own
  rw [List.filter_append, List.map_append]

namespace Gpio

/-- **The pins are independent.** After any list of calls, in any order and on any pins, a pin whose port runs, or
    whose first call makes it run, is where its own calls lead. -/
theorem run_pin (e : GpioDriver) :
    ∀ (calls : List (GpioDriver × Call)) (g : Gpio),
      (g.ahbenr e.port = true ∨ ∀ c ∈ (e.own calls).head?, c.clocks = true) →
      (g.run calls).pin e = (e.own calls).foldl (PinState.apply true) (g.pin e)
  | [], g, _ => rfl
  | (d, c) :: calls, g, h => by
    have hrest : (g.run ((d, c) :: calls)).pin e = ((d.call c g).run calls).pin e := rfl
    rw [hrest]
    by_cases hd : d = e
    · subst hd
      rw [GpioDriver.own_same] at h ⊢
      -- a call without a clock is only there if the port runs already
      have hon : g.ahbenr d.port = true ∨ c.clocks = true := h.imp_right fun h => h c rfl
      have hafter : (d.call c g).ahbenr d.port = true := by
        rw [GpioDriver.call_ahbenr]
        split_ifs with hclock
        · rfl
        · exact hon.resolve_right fun h => hclock ⟨h, rfl⟩
      have hpin : (d.call c g).pin d = (g.pin d).apply true c := by
        rw [GpioDriver.call_pin, if_pos rfl]
        rcases hon with hon | hclock
        · rw [hon]
        · cases c with
          | init _ _ _ _ | setAlternateFunction _ => rfl
          | set | reset | toggle => exact absurd hclock Bool.false_ne_true
      rw [run_pin d calls _ (Or.inl hafter), hpin]
      rfl
    · rw [GpioDriver.own_ne hd] at h ⊢
      have hclock : g.ahbenr e.port = true → (d.call c g).ahbenr e.port = true := by
        intro hon
        rw [GpioDriver.call_ahbenr, hon, ite_self]
      rw [run_pin e calls _ (h.imp_left hclock), GpioDriver.call_pin, if_neg hd]

end Gpio

/-! ## The board -/

namespace PinState

def configured (s : PinState) (mode : Mode) (type : OutType) (pull : Pull) (speed : Speed) : PinState :=
  { s with mode := mode.bits, type := type.bits, pull := pull.bits, speed := speed.bits }

end PinState

/-- What every pin is for. The remaining pins are left to the debugger, or not connected. -/
def board (e : GpioDriver) (s : PinState) : PinState :=
  match e.port, e.pin.val with
  -- the keys S1 to S4, against ground
  | .A, 1 | .A, 2 | .A, 3 | .A, 4 => s.configured .input .openDrain .up .low
  -- the red and the blue LED, and the light, all off
  | .A, 5 | .A, 11 | .B, 0 => { s.configured .output .pushPull .none .medium with level := 0 }
  -- the heater's PWM, with the green LED
  | .A, 6 => { s.configured .alternate .pushPull .none .high with af := 1 }
  -- the sensor's bus
  | .A, 8 => { s.configured .alternate .pushPull .none .high with speed := 0b11, af := 2 }
  -- the serial port
  | .A, 9 | .A, 10 => { s.configured .alternate .openDrain .none .low with af := 1 }
  -- the charger
  | .A, 15 => s.configured .input .openDrain .none .low
  -- the buzzer's PWM
  | .B, 1 => { s.configured .alternate .pushPull .none .high with af := 0 }
  -- the display's three lines
  | .B, 3 | .B, 4 | .B, 5 => s.configured .output .pushPull .none .high
  -- the two-wire bus
  | .B, 6 | .B, 7 => { s.configured .alternate .openDrain .none .low with af := 1 }
  | _, _ => s

/-- The bus pin by itself. -/
theorem DS18B20.initPin_pin (g : Gpio) (e : GpioDriver) :
    (DS18B20.initPin g).pin e = if ⟨.A, 8⟩ = e then
      { (g.pin e).configured .alternate .pushPull .none .high with speed := 0b11, af := 2 } else g.pin e := by
  refine configure_pin g ⟨.A, 8⟩ e
    (fun s => { s.configured .alternate .pushPull .none .high with speed := 0b11, af := 2 }) fun r => ?_
  have hmask2 : Fields.mask 32 2 8 = 3#32 <<< (8 * 2) := by decide
  have hmask1 : Fields.mask 32 1 8 = 1#32 <<< 8 := by decide
  have hmask4 : Fields.mask 32 4 0 = 0xF#32 <<< ((8 - 8) * 4) := by decide
  have hmode : (r.moder &&& ~~~(3#32 <<< (8 * 2))) ||| (2#32 <<< (8 * 2)) = Fields.set r.moder 8 0b10#2 := by
    rw [← hmask2]
    rfl
  have htype : r.otyper &&& ~~~(1#32 <<< 8) = Fields.set r.otyper 8 0#1 := by
    rw [← hmask1, Fields.set_zero]
  have hspeed : r.ospeedr ||| (3#32 <<< (8 * 2)) = Fields.set r.ospeedr 8 (BitVec.allOnes 2) := by
    rw [← hmask2, Fields.set_ones]
  have hpull : r.pupdr &&& ~~~(3#32 <<< (8 * 2)) = Fields.set r.pupdr 8 0#2 := by
    rw [← hmask2, Fields.set_zero]
  have haf : (r.afr1 &&& ~~~(0xF#32 <<< ((8 - 8) * 4))) ||| (0x2#32 <<< ((8 - 8) * 4)) = Fields.set r.afr1 0 2#4 := by
    rw [← hmask4]
    rfl
  have hodr : Fields.set r.odr 8 (Fields.get 1 r.odr 8) = r.odr := Fields.set_get r.odr 8
  rw [hmode, htype, hspeed, hpull, haf]
  conv_lhs => rw [← hodr]
  rfl

namespace HT1621B

/-- Other pins take no part in the traffic. -/
theorem own_quiet {e : GpioDriver} (h : ∀ p, gpio p ≠ e) : ∀ ls : List (Pin × Bool),
    e.own (ls.map HT1621B.level) = []
  | [] => rfl
  | (p, _) :: ls => (own_ne (h p) _ _).trans (own_quiet h ls)

/-- The traffic moves levels only. -/
theorem own_level (e : GpioDriver) (s : PinState) : ∀ ls : List (Pin × Bool),
    ∃ level, (e.own (ls.map HT1621B.level)).foldl (PinState.apply true) s = { s with level := level }
  | [] => ⟨s.level, rfl⟩
  | (p, b) :: ls => by
    rw [List.map_cons]
    by_cases hp : gpio p = e
    · subst hp
      obtain ⟨level, hlevel⟩ := own_level (gpio p) (s.apply true (if b then .set else .reset)) ls
      refine ⟨level, ?_⟩
      have hown : (gpio p).own (HT1621B.level (p, b) :: ls.map HT1621B.level) =
          (if b then Call.set else Call.reset) :: (gpio p).own (ls.map HT1621B.level) := own_same _ _ _
      rw [hown, List.foldl_cons, hlevel]
      cases b <;> rfl
    · have hown : e.own (HT1621B.level (p, b) :: ls.map HT1621B.level) = e.own (ls.map HT1621B.level) :=
        own_ne hp _ _
      rw [hown]
      exact own_level e s ls

end HT1621B

/-- The driver calls in front of the display's traffic. -/
def initCalls : List (GpioDriver × Call) := UsartDriver.pins ++ TwiDriver.pins ++ ledPins ++ HT1621B.pins

theorem hardwareInit_eq (g : Gpio) :
    hardwareInit g = (DS18B20.initPin (g.run (initCalls ++ HT1621B.new.init.line.map HT1621B.level))).run
      ButtonsManager.pins := by
  have hcalls : g.run (initCalls ++ HT1621B.new.init.line.map HT1621B.level) =
      (((g.run UsartDriver.pins).run TwiDriver.pins).run ledPins).run
        (HT1621B.pins ++ HT1621B.new.init.line.map HT1621B.level) := by
    unfold initCalls Gpio.run
    simp only [List.foldl_append]
  rw [hcalls]
  rfl

/-- Every pin starts with a call that switches its clock on. -/
theorem initCalls_start (e : GpioDriver) : ∀ c ∈ (e.own initCalls).head?, c.clocks = true := by
  obtain ⟨p, i⟩ := e
  revert i
  cases p <;> decide

theorem buttons_start (e : GpioDriver) : ∀ c ∈ (e.own ButtonsManager.pins).head?, c.clocks = true := by
  obtain ⟨p, i⟩ := e
  revert i
  cases p <;> decide

theorem initCalls_lines (p : Pin) : (HT1621B.gpio p).own initCalls ≠ [] := by cases p <;> decide

/-- A pin before the sensor's turn. -/
theorem initCalls_pin (g : Gpio) (e : GpioDriver) (ls : List (Pin × Bool)) :
    ∃ level, (g.run (initCalls ++ ls.map HT1621B.level)).pin e =
        { (e.own initCalls).foldl (PinState.apply true) (g.pin e) with level := level } ∧
      ((∀ p, HT1621B.gpio p ≠ e) → level = ((e.own initCalls).foldl (PinState.apply true) (g.pin e)).level) := by
  obtain ⟨level, htraffic⟩ := HT1621B.own_level e ((e.own initCalls).foldl (PinState.apply true) (g.pin e)) ls
  have hstart : ∀ c ∈ (e.own (initCalls ++ ls.map HT1621B.level)).head?, c.clocks = true := by
    have hfirst := initCalls_start e
    rw [own_append]
    cases hown : e.own initCalls with
    | nil =>
      have hline : ∀ p, HT1621B.gpio p ≠ e := by
        rintro p rfl
        exact initCalls_lines p hown
      rw [HT1621B.own_quiet hline]
      exact fun c hc => absurd hc (Option.not_mem_none c)
    | cons c calls =>
      rw [hown] at hfirst
      exact hfirst
  refine ⟨level, ?_, fun hline => ?_⟩
  · rw [Gpio.run_pin e _ g (Or.inr hstart), own_append, List.foldl_append, htraffic]
  · rw [HT1621B.own_quiet hline] at htraffic
    exact (congrArg PinState.level htraffic).symm

/-- The calls make the board, the level apart. -/
theorem calls_board (e : GpioDriver) (s : PinState) (level : BitVec 1) :
    (e.own ButtonsManager.pins).foldl (PinState.apply true)
      (if (⟨.A, 8⟩ : GpioDriver) = e then
        { ({ (e.own initCalls).foldl (PinState.apply true) s with level := level } : PinState).configured
            .alternate .pushPull .none .high with speed := 0b11, af := 2 }
      else { (e.own initCalls).foldl (PinState.apply true) s with level := level }) =
      { board e s with level := level } := by
  obtain ⟨p, i⟩ := e
  cases p <;> fin_cases i <;> rfl

theorem calls_level (e : GpioDriver) (s : PinState) :
    ((e.own initCalls).foldl (PinState.apply true) s).level = (board e s).level := by
  obtain ⟨p, i⟩ := e
  cases p <;> fin_cases i <;> rfl

/-- **`hardware_init` makes the board**, whatever the registers held before: every pin has the settings of `board`,
    and but for the lines that carried the display's traffic its level, too. -/
theorem hardwareInit_board (g : Gpio) (e : GpioDriver) :
    (hardwareInit g).pin e = { board e (g.pin e) with level := ((hardwareInit g).pin e).level } ∧
      ((∀ p, HT1621B.gpio p ≠ e) → (hardwareInit g).pin e = board e (g.pin e)) := by
  obtain ⟨level, hpin, hquiet⟩ := initCalls_pin g e HT1621B.new.init.line
  have hboard : (hardwareInit g).pin e = { board e (g.pin e) with level := level } := by
    rw [hardwareInit_eq, Gpio.run_pin e ButtonsManager.pins _ (Or.inr (buttons_start e)), DS18B20.initPin_pin, hpin]
    exact calls_board e (g.pin e) level
  refine ⟨by rw [hboard], fun h => ?_⟩
  rw [hboard, hquiet h, calls_level]

end Thermostat
