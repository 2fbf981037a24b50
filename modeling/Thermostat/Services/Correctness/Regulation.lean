import Thermostat.Services.Correctness.ExactRegulator

/-!
# `Services.Correctness.Regulation` — no standing offset

**`no_standing_offset`**: a room that stays too cold by `e` tenths of a degree and does not get warmer is
heated with full power after a number of samples that depends on `e` and on the time between them only, and
a room that stays too warm and does not get colder is not heated after such a number. Ticks, polls and the
keys that do not change the setpoint may come in between.

The integral carries the argument. Each sample moves it by at least `e * T / 1000` in the direction of the
error, it starts inside its limits, and from the second sample on the derivative does not work against it
(`Pushing`). Both halves are one proof: `dir` is 1 for a cold room and -1 for a warm one.
-/

namespace Thermostat

open Config Word

/-! ## Events that leave the regulator alone -/

namespace Heating

variable {h : Heating}

/-- Neither a sample, nor the hold or the release of S1 or S2. -/
def Idle (e : Event) : Prop :=
  e.type ≠ .temperatureReady ∧ (e.type = .buttonS1 ∨ e.type = .buttonS2 → e.value ≠ 1 ∧ e.value ≠ 2)

instance : DecidablePred Idle := fun e =>
  inferInstanceAs (Decidable (e.type ≠ .temperatureReady ∧
    (e.type = .buttonS1 ∨ e.type = .buttonS2 → e.value ≠ 1 ∧ e.value ≠ 2)))

theorem hold_power (h : Heating) (e : Event) : (h.hold e).power = h.power := by
  unfold hold
  cases e.type <;> rfl

/-- What an idle event asks for. -/
theorem idle_action (h : Heating) {e : Event} (he : Idle e) : h.action e = none ∨ h.action e = some .beep := by
  obtain ⟨type, v⟩ := e
  cases type with
  | temperatureReady => exact absurd rfl he.1
  | buttonS1 =>
      obtain ⟨hheld, hreleased⟩ := he.2 (Or.inl rfl)
      right
      rw [action_buttonS1, if_neg (by simp [hheld, hreleased])]
  | buttonS2 =>
      obtain ⟨hheld, hreleased⟩ := he.2 (Or.inr rfl)
      right
      rw [action_buttonS2, if_neg (by simp [hheld, hreleased])]
  | buttonS3 => exact Or.inr rfl
  | buttonS4 => exact Or.inr rfl
  | _ => exact Or.inl rfl

theorem event_idle_power (h : Heating) {e : Event} (he : Idle e) (now : UInt32) :
    (h.event e now).power = h.power := by
  unfold event
  rcases idle_action h he with hnone | hbeep
  · rw [hnone]
    exact hold_power h e
  · rw [hbeep]
    exact (enter_false_power _ now).trans (hold_power h e)

theorem event_idle_setpoint (h : Heating) {e : Event} (he : Idle e) (now : UInt32) :
    (h.event e now).setpoint = h.setpoint := by
  unfold event
  rcases idle_action h he with hnone | hbeep
  · rw [hnone]
    exact hold_setpoint h e
  · rw [hbeep]
    exact (enter_setpoint _ false now).trans (hold_setpoint h e)

/-- Outside the error mode an idle event changes the hold flags at most. -/
theorem event_idle (hcalm : h.inError = false) {e : Event} (he : Idle e) (now : UInt32) :
    h.event e now = h.hold e := by
  have hheld : (h.hold e).inError = false := by
    unfold hold
    cases e.type <;> exact hcalm
  unfold event
  rcases idle_action h he with hnone | hbeep
  · rw [hnone]
  · rw [hbeep]
    show (h.hold e).enter false now = h.hold e
    unfold enter
    rw [if_neg Bool.false_ne_true, hheld, if_neg Bool.false_ne_true]

/-- Outside the error mode, and as long as the temperature does not call for it, the end of the setpoint
    screen changes nothing else. -/
theorem poll_calm (hcalm : h.inError = false) (hcool : h.tooHot = false) (now : UInt32) :
    h.poll now = { h with showing := (h.poll now).showing } := by
  unfold poll
  split_ifs
  · unfold enter
    rw [hcool, if_neg Bool.false_ne_true]
    show (if h.inError = true then _ else _) = _
    rw [hcalm, if_neg Bool.false_ne_true]
  · rfl

end Heating

/-! ## A sample pushes -/

namespace Heating

variable {h : Heating}

/-- Up or down. -/
def IsDirection (dir : Int) : Prop := dir = 1 ∨ dir = -1

/-- Truncating division is the same in both directions. -/
theorem tdiv_direction {dir : Int} (hdir : IsDirection dir) (x y : Int) :
    dir * x.tdiv y = (dir * x).tdiv y := by
  rcases hdir with rfl | rfl
  · rw [Int.one_mul, Int.one_mul]
  · rw [Int.neg_one_mul, Int.neg_one_mul, Int.neg_tdiv]

/-- The way that the integral goes at least, per sample. -/
def stride (e T : Nat) : Nat := e * T / 1000

theorem stride_le {dir : Int} (hdir : IsDirection dir) {err : Int} {e T dt : Nat} (herr : (e : Int) ≤ dir * err)
    (hdt : T ≤ dt) : (stride e T : Int) ≤ dir * (err * dt).tdiv 1000 := by
  have hprod : ((e * T : Nat) : Int) ≤ dir * (err * dt) := by
    rw [← Int.mul_assoc, Int.natCast_mul]
    exact Int.mul_le_mul herr (Int.ofNat_le.mpr hdt) (Int.natCast_nonneg T)
      (Int.le_trans (Int.natCast_nonneg e) herr)
  have hpos : 0 ≤ dir * (err * dt) := Int.le_trans (Int.natCast_nonneg (e * T)) hprod
  rw [tdiv_direction hdir, Int.tdiv_eq_ediv_of_nonneg hpos]
  show ((e * T / 1000 : Nat) : Int) ≤ _
  rw [Int.natCast_ediv]
  exact Int.ediv_le_ediv (by decide) hprod

/-- The saturating integral goes its stride, or is at its limit. -/
theorem clamp_stride {dir : Int} (hdir : IsDirection dir) {i d k a : Int} (hi : min 2000 a ≤ dir * i)
    (hd : k ≤ dir * d) (hk : 0 ≤ k) : min 2000 (a + k) ≤ dir * clamp (i + d) (-2000) 2000 := by
  unfold clamp
  simp only
  rcases hdir with rfl | rfl
  · split_ifs <;> omega
  · split_ifs <;> omega

/-- Where the integral is at least after `n` strides, wherever it started. -/
def reach (k n : Nat) : Int := min 2000 ((n * k : Nat) - 2000)

/-- The core has answered `n + 1` samples that push in the direction `dir`: the errors were `e` at least and
    did not shrink, and the last one was `v`, at `now`. -/
structure Pushing (dir : Int) (e k n : Nat) (sp v : Int) (now : UInt32) (h : Heating) : Prop where
  sound : Sound h
  ranged : Ranged h
  setpoint : h.setpoint = sp
  current : h.current = v
  cool : v ≤ sp + controllerErrorDelta
  calm : h.inError = false
  stamp : h.stamp = now
  previous : h.pid.prevError = sp - v
  integral : reach k n ≤ dir * h.pid.integral
  answer : n ≠ 0 → ∃ sum, 40000 * e + 500 * reach k n ≤ dir * sum ∧ h.power = clamp (sum.tdiv 1000) 0 1000

/-- An error outside the dead band is kept. -/
theorem deaden_eq_self (hs : Sound h) {dir : Int} (hdir : IsDirection dir) {err : Int} {e : Nat} (he : 2 ≤ e)
    (herr : (e : Int) ≤ dir * err) : h.base.deaden err = err := by
  rcases deaden_cases hs err with hkeep | ⟨-, hlow, hhigh⟩
  · exact hkeep
  · rcases hdir with rfl | rfl <;> omega

theorem not_tooHot {v : Int} (hcool : v ≤ h.setpoint + controllerErrorDelta) :
    ¬ (h.setCurrent v).tooHot = true := by
  intro hhot
  have hlt : v > h.setpoint + controllerErrorDelta := of_decide_eq_true hhot
  omega

/-- What every sample that does not overheat leaves behind. -/
theorem sample_stamp {v : Int} (hcool : v ≤ h.setpoint + controllerErrorDelta) (now : UInt32) :
    (h.sample v now).setpoint = h.setpoint ∧ (h.sample v now).current = v ∧
      (h.sample v now).inError = false ∧ (h.sample v now).stamp = now := by
  have hregulated : ((h.setCurrent v).regulate now).stamp = now := by
    unfold regulate
    split_ifs <;> rfl
  refine ⟨decideSample_setpoint _ now, decideSample_current _ now, ?_, ?_⟩
  · unfold sample decideSample
    rw [if_neg (not_tooHot hcool), enter_inError]
  · unfold sample decideSample enter
    rw [if_neg (not_tooHot hcool), if_neg Bool.false_ne_true]
    split_ifs
    · rfl
    · exact hregulated

/-- The first sample that pushes finds any memory, and may come after any time. -/
theorem pushing_first (hs : Sound h) (hr : Ranged h) {dir : Int} (hdir : IsDirection dir) {e : Nat} (k : Nat)
    (he : 2 ≤ e) {v : Int} (hv : FromSensor v) (hcool : v ≤ h.setpoint + controllerErrorDelta)
    (herr : (e : Int) ≤ dir * (h.setpoint - v)) (now : UInt32) :
    Pushing dir e k 0 h.setpoint v now (h.sample v now) := by
  obtain ⟨hsetpoint, hcurrent, hcalm, hstamp⟩ := sample_stamp hcool now
  have hranged := sample_ranged hr hs hv now
  have herror := error_range hr.grid hv
  refine ⟨sample_sound hs v now, hranged, hsetpoint, hcurrent, hcool, hcalm, hstamp, ?_, ?_, ?_⟩
  · rw [sample_pid (not_tooHot hcool), PIDInt.update_prevError (by omega) (by omega),
      deaden_eq_self hs hdir he herr]
  · have hlimits := hranged.integral
    unfold reach
    rcases hdir with rfl | rfl <;> omega
  · intro hfirst
    exact absurd rfl hfirst

/-- The second sample comes `T` ms after the first one at the earliest, and within half a day. -/
def Spaced (T : Nat) (before now : UInt32) : Prop :=
  T ≤ (now - before).toNat ∧ (now - before).toNat ≤ 43200000

instance (T : Nat) (before now : UInt32) : Decidable (Spaced T before now) :=
  inferInstanceAs (Decidable (T ≤ (now - before).toNat ∧ (now - before).toNat ≤ 43200000))

theorem Pushing.span {dir : Int} {e k n : Nat} {sp v : Int} {before : UInt32}
    (hp : Pushing dir e k n sp v before h) {T : Nat} {now : UInt32} (hspaced : Spaced T before now) :
    T ≤ (h.span now).toNat ∧ (h.span now).toNat ≤ 43200000 := by
  have hcalm : ¬ h.inError = true := by rw [hp.calm]; exact Bool.false_ne_true
  obtain ⟨hearly, hlate⟩ := hspaced
  unfold Heating.span
  rw [if_neg hcalm, hp.stamp]
  split_ifs with hsame
  · rw [hsame] at hearly
    exact ⟨Nat.le_trans hearly (by decide), by decide⟩
  · exact ⟨hearly, hlate⟩

/-- The integral and its increment fit: the errors of samples are bounded, and so is the time. -/
theorem incrementFits_of_span (hr : Ranged h) {v : Int} (hv : FromSensor v) {now : UInt32}
    (hspan : (h.span now).toNat ≤ 43200000) : h.IncrementFits v now := by
  have herror := error_range hr.grid hv
  have hprod : (h.setpoint - v).natAbs * (h.span now).toNat ≤ 33763 * 43200000 :=
    Nat.mul_le_mul (by omega) hspan
  unfold IncrementFits
  omega

theorem base_calm (hcalm : h.inError = false) : h.base = h.pid := by
  unfold base
  rw [hcalm, if_neg Bool.false_ne_true]

/-- An error that has not shrunk does not brake. -/
theorem slope_pushes {p : PIDInt} (hbase : p.baseDt = 1000) {dir : Int} (hdir : IsDirection dir) {err : Int}
    (hgrown : dir * p.prevError ≤ dir * err) (dt : Nat) : 0 ≤ dir * p.slope err dt := by
  unfold PIDInt.slope
  split_ifs
  · rw [tdiv_direction hdir, hbase, ← Int.mul_assoc, Int.mul_sub]
    exact Int.tdiv_nonneg (by omega) (Int.natCast_nonneg dt)
  · omega

theorem reach_succ {k n : Nat} : min 2000 (reach k n + k) = reach k (n + 1) := by
  unfold reach
  rw [Nat.succ_mul]
  omega

/-- **A sample pushes.** One more of them, at least as far from the setpoint as the one before. -/
theorem Pushing.next {dir : Int} (hdir : IsDirection dir) {e T n : Nat} (he : 2 ≤ e) {sp v w : Int}
    {before now : UInt32} (hp : Pushing dir e (stride e T) n sp v before h) (hw : FromSensor w)
    (hcool : w ≤ sp + controllerErrorDelta) (hgrown : dir * w ≤ dir * v) (herr : (e : Int) ≤ dir * (sp - w))
    (hspaced : Spaced T before now) :
    Pushing dir e (stride e T) (n + 1) sp w now (h.sample w now) := by
  obtain ⟨hearly, hlate⟩ := hp.span hspaced
  have hsp := hp.setpoint
  have hcool' : w ≤ h.setpoint + controllerErrorDelta := by rw [hsp]; exact hcool
  have hhot := not_tooHot hcool'
  obtain ⟨hsetpoint, hcurrent, hcalm, hstamp⟩ := sample_stamp hcool' now
  have htuned := base_tuned hp.sound
  have hbase := baseDt_tuned htuned
  have hdt := h.span_ne_zero now
  have hfits := base_fits hp.ranged hp.sound hw (incrementFits_of_span hp.ranged hw hlate)
  have herr' : (e : Int) ≤ dir * (h.setpoint - w) := by rw [hsp]; exact herr
  have hkept := deaden_eq_self hp.sound hdir he herr'
  -- the three terms of the sum: the error, the integral after its stride, and the slope
  have hstride : (stride e T : Int) ≤ dir * h.base.increment (h.setpoint - w) (h.span now).toNat := by
    unfold PIDInt.increment
    rw [hbase]
    exact stride_le hdir herr' hearly
  have hclimb : reach (stride e T) (n + 1)
      ≤ dir * clamp (h.base.integral + h.base.increment (h.setpoint - w) (h.span now).toNat) (-2000) 2000 := by
    have hintegral : reach (stride e T) n ≤ dir * h.base.integral := by
      rw [base_calm hp.calm]
      exact hp.integral
    rw [← reach_succ]
    exact clamp_stride hdir (Int.le_trans (Int.min_le_right _ _) hintegral) hstride (Int.natCast_nonneg _)
  have hslope : 0 ≤ dir * h.base.slope (h.setpoint - w) (h.span now).toNat := by
    refine slope_pushes hbase hdir ?_ _
    rw [base_calm hp.calm, hp.previous, hsp, Int.mul_sub, Int.mul_sub]
    omega
  have hmin : h.base.integrMin = -2000 := htuned.2.2.2.2.2.1
  have hmax : h.base.integrMax = 2000 := htuned.2.2.2.2.2.2.1
  refine ⟨sample_sound hp.sound w now, sample_ranged hp.ranged hp.sound hw now, hsetpoint.trans hsp, hcurrent,
    hcool, hcalm, hstamp, ?_, ?_, ?_⟩
  · rw [sample_pid hhot, PIDInt.update_prevError hfits.error.1 hfits.error.2, hkept, hsp]
  · rw [sample_pid hhot, PIDInt.update_integral_exact hdt hfits, hkept, hmin, hmax]
    exact hclimb
  · intro _
    rw [sample_power hhot, PIDInt.update_exact hdt hfits, hkept]
    unfold PIDInt.exactOut
    rw [hmin, hmax, show h.base.kp = 40000 from htuned.1, show h.base.ki = 500 from htuned.2.1,
      show h.base.kd = 300 from htuned.2.2.1, show h.base.outMin = 0 from htuned.2.2.2.1,
      show h.base.outMax = 1000 from htuned.2.2.2.2.1]
    refine ⟨_, ?_, rfl⟩
    generalize clamp _ (-2000) 2000 = i at hclimb
    generalize h.base.slope _ _ = d at hslope
    generalize h.setpoint - w = err at herr'
    rcases hdir with rfl | rfl <;> omega

/-! ## When the integral has come far enough -/

theorem Pushing.full {e k n : Nat} {sp v : Int} {now : UInt32} (hp : Pushing 1 e k n sp v now h) (hn : n ≠ 0)
    (hfar : 4000 ≤ 80 * e + n * k) : h.power = 1000 := by
  obtain ⟨sum, hsum, hpower⟩ := hp.answer hn
  have hmuch : 1000000 ≤ sum := by
    unfold reach at hsum
    omega
  have hout : 1000 ≤ sum.tdiv 1000 := by
    rw [Int.tdiv_eq_ediv_of_nonneg (by omega)]
    omega
  rw [hpower]
  unfold clamp
  simp only
  split_ifs <;> omega

theorem Pushing.off {e k n : Nat} {sp v : Int} {now : UInt32} (hp : Pushing (-1) e k n sp v now h) (hn : n ≠ 0)
    (hfar : 2000 ≤ 80 * e + n * k) : h.power = 0 := by
  obtain ⟨sum, hsum, hpower⟩ := hp.answer hn
  have hlittle : sum ≤ 0 := by
    unfold reach at hsum
    omega
  have hout : sum.tdiv 1000 ≤ 0 := by
    have hneg : (-sum).tdiv 1000 = -sum.tdiv 1000 := Int.neg_tdiv sum 1000
    have hpos : 0 ≤ (-sum).tdiv 1000 := Int.tdiv_nonneg (by omega) (by decide)
    omega
  rw [hpower]
  unfold clamp
  simp only
  split_ifs <;> omega

/-! ## What comes between samples -/

theorem hold_eq (h : Heating) (e : Event) : ∃ s1 s2, h.hold e = { h with s1Held := s1, s2Held := s2 } := by
  unfold hold
  cases e.type <;> exact ⟨_, _, rfl⟩

theorem Pushing.idle {dir : Int} {e k n : Nat} {sp v : Int} {before : UInt32}
    (hp : Pushing dir e k n sp v before h) {ev : Event} (hidle : Idle ev) (now : UInt32) :
    Pushing dir e k n sp v before (h.event ev now) := by
  have hsound := hold_sound hp.sound ev
  have hranged := hold_ranged hp.ranged ev
  rw [event_idle hp.calm hidle]
  obtain ⟨s1, s2, heq⟩ := hold_eq h ev
  rw [heq] at hsound hranged ⊢
  exact { hp with sound := hsound, ranged := hranged }

theorem Pushing.poll {dir : Int} {e k n : Nat} {sp v : Int} {before : UInt32}
    (hp : Pushing dir e k n sp v before h) (now : UInt32) : Pushing dir e k n sp v before (h.poll now) := by
  have hsound := poll_sound hp.sound now
  have hranged := poll_ranged hp.ranged now
  have hcool : h.tooHot = false := by
    have hle := hp.cool
    unfold tooHot
    rw [hp.current, hp.setpoint]
    exact decide_eq_false (by omega)
  rw [poll_calm hp.calm hcool] at hsound hranged ⊢
  exact { hp with sound := hsound, ranged := hranged }

end Heating

/-! ## Runs -/

namespace Controller

open Heating (FromSensor Idle Pushing Spaced stride)

/-- The sample in an input, with its tick. -/
def Input.sample : Input → Option (Int × UInt32)
  | .event e now => if e.type = .temperatureReady then some (e.value, now) else none
  | .poll _      => none

/-- The input is no hold and no release of S1 or S2. -/
def Input.KeepsSetpoint : Input → Prop
  | .event e _ => e.type = .buttonS1 ∨ e.type = .buttonS2 → e.value ≠ 1 ∧ e.value ≠ 2
  | .poll _    => True

instance : DecidablePred Input.KeepsSetpoint
  | .event e _ => inferInstanceAs (Decidable (e.type = .buttonS1 ∨ e.type = .buttonS2 → e.value ≠ 1 ∧ e.value ≠ 2))
  | .poll _    => isTrue trivial

def samples (is : List Input) : List (Int × UInt32) := is.filterMap Input.sample

theorem samples_sample {e : Event} (he : e.type = .temperatureReady) (now : UInt32) (is : List Input) :
    samples (.event e now :: is) = (e.value, now) :: samples is := by
  have hsample : (Input.event e now).sample = some (e.value, now) := if_pos he
  exact List.filterMap_cons_some hsample

theorem samples_other {e : Event} (he : e.type ≠ .temperatureReady) (now : UInt32) (is : List Input) :
    samples (.event e now :: is) = samples is := by
  have hsample : (Input.event e now).sample = none := if_neg he
  exact List.filterMap_cons_none hsample

theorem feed_sample (h : Heating) {e : Event} (he : e.type = .temperatureReady) (now : UInt32) :
    h.feed (.event e now) = h.sample e.value now := by
  obtain ⟨type, v⟩ := e
  subst he
  rfl

section Stretch

variable {P : Nat → Int × UInt32 → Heating → Prop} {Q : Int × UInt32 → Prop}
  {R : Int × UInt32 → Int × UInt32 → Prop}

/-- What follows a run sample by sample: `P n x` holds of the core `n` samples on, `x` being the last one. -/
structure SampleRule (P : Nat → Int × UInt32 → Heating → Prop) (Q : Int × UInt32 → Prop)
    (R : Int × UInt32 → Int × UInt32 → Prop) : Prop where
  idle : ∀ n x h e now, P n x h → Idle e → P n x (h.event e now)
  poll : ∀ n x h now, P n x h → P n x (h.poll now)
  next : ∀ n x h y, P n x h → Q y → R x y → P (n + 1) y (h.sample y.1 y.2)

/-- The induction along a stretch of inputs that leave the setpoint alone. -/
theorem SampleRule.run (hP : SampleRule P Q R) {is : List Input} (hkept : ∀ i ∈ is, i.KeepsSetpoint) {n : Nat}
    {x : Int × UInt32} {s : Controller} (hstart : P n x s.heating) (hQ : ∀ y ∈ samples is, Q y)
    (hR : (x :: samples is).IsChain R) :
    ∃ y, P (n + (samples is).length) y (Trace.run feed s is).1.heating := by
  induction is generalizing n x s with
  | nil => exact ⟨x, hstart⟩
  | cons i is ih =>
      have hrest : ∀ j ∈ is, j.KeepsSetpoint := fun j hj => hkept j (List.mem_cons_of_mem i hj)
      have hcore := feed_heating s i
      cases i with
      | poll now => exact ih hrest (hcore ▸ hP.poll n x s.heating now hstart) hQ hR
      | event e now =>
          by_cases hsam : e.type = .temperatureReady
          · rw [samples_sample hsam] at hQ hR ⊢
            rw [feed_sample _ hsam] at hcore
            obtain ⟨hstep, htail⟩ := List.isChain_cons_cons.mp hR
            have hnext := hP.next n x s.heating (e.value, now) hstart (hQ _ List.mem_cons_self) hstep
            obtain ⟨y, hy⟩ := ih hrest (hcore ▸ hnext) (fun y hy => hQ y (List.mem_cons_of_mem _ hy)) htail
            refine ⟨y, ?_⟩
            rw [List.length_cons, Nat.add_comm (samples is).length 1, ← Nat.add_assoc]
            exact hy
          · rw [samples_other hsam] at hQ hR ⊢
            have hidle : Idle e := ⟨hsam, hkept _ List.mem_cons_self⟩
            exact ih hrest (hcore ▸ hP.idle n x s.heating e now hstart hidle) hQ hR

/-- Up to the first sample only the ranges of the core are known. -/
theorem SampleRule.run_first (hP : SampleRule P Q R) {sp : Int}
    (hfirst : ∀ (h : Heating) y, h.Sound → h.Ranged → h.setpoint = sp → Q y → P 0 y (h.sample y.1 y.2))
    {is : List Input} (hkept : ∀ i ∈ is, i.KeepsSetpoint) {s : Controller} (hs : s.heating.Sound)
    (hr : s.heating.Ranged) (hsp : s.setpoint = sp) (hQ : ∀ y ∈ samples is, Q y) (hR : (samples is).IsChain R)
    (hsome : samples is ≠ []) :
    ∃ y, P ((samples is).length - 1) y (Trace.run feed s is).1.heating := by
  induction is generalizing s with
  | nil => exact absurd rfl hsome
  | cons i is ih =>
      have hrest : ∀ j ∈ is, j.KeepsSetpoint := fun j hj => hkept j (List.mem_cons_of_mem i hj)
      have hcore := feed_heating s i
      have hsound := feed_sound i hs
      cases i with
      | poll now =>
          have hranged : (s.feed (.poll now)).1.heating.Ranged := hcore ▸ Heating.poll_ranged hr now
          have hkeep : (s.feed (.poll now)).1.setpoint = sp := (poll_moves s now).1.trans hsp
          exact ih hrest hsound hranged hkeep hQ hR hsome
      | event e now =>
          by_cases hsam : e.type = .temperatureReady
          · rw [samples_sample hsam] at hQ hR ⊢
            rw [feed_sample _ hsam] at hcore
            have hstart := hfirst s.heating (e.value, now) hs hr hsp (hQ _ List.mem_cons_self)
            obtain ⟨y, hy⟩ := hP.run hrest (hcore ▸ hstart) (fun y hy => hQ y (List.mem_cons_of_mem _ hy)) hR
            refine ⟨y, ?_⟩
            rw [List.length_cons, Nat.add_sub_cancel]
            rw [Nat.zero_add] at hy
            exact hy
          · have hidle : Idle e := ⟨hsam, hkept _ List.mem_cons_self⟩
            have hranged : (s.feed (.event e now)).1.heating.Ranged :=
              hcore ▸ Heating.event_ranged hr hs (fun h => absurd h hsam) now
            have hkeep : (s.feed (.event e now)).1.setpoint = sp := by
              show (s.feed (.event e now)).1.heating.setpoint = sp
              rw [hcore]
              exact (Heating.event_idle_setpoint s.heating hidle now).trans hsp
            rw [samples_other hsam] at hQ hR hsome ⊢
            exact ih hrest hsound hranged hkeep hQ hR hsome

end Stretch

/-! ## The two directions -/

/-- A sample that is too cold by `e` at least. -/
def Cold (sp : Int) (e : Nat) (x : Int × UInt32) : Prop := FromSensor x.1 ∧ x.1 + e ≤ sp

instance (sp : Int) (e : Nat) (x : Int × UInt32) : Decidable (Cold sp e x) :=
  inferInstanceAs (Decidable ((-32768 ≤ x.1 ∧ x.1 < 32768) ∧ x.1 + e ≤ sp))

/-- A sample that is too warm by `e` at least. -/
def Warm (sp : Int) (e : Nat) (x : Int × UInt32) : Prop := FromSensor x.1 ∧ sp + e ≤ x.1

/-- The core after samples that are too warm: as long as they do not overheat they push the integral down. -/
def Relieved (sp : Int) (e T n : Nat) (x : Int × UInt32) (h : Heating) : Prop :=
  Pushing (-1) e (stride e T) n sp x.1 x.2 h ∨
    h.power = 0 ∧ h.setpoint = sp ∧ sp + controllerErrorDelta < x.1

theorem cold_cool {sp : Int} {e : Nat} {x : Int × UInt32} (h : Cold sp e x) :
    x.1 ≤ sp + controllerErrorDelta := by
  have hdelta : controllerErrorDelta = 30 := rfl
  have hcold := h.2
  omega

theorem cold_rule (sp : Int) {e : Nat} (he : 2 ≤ e) (T : Nat) :
    SampleRule (fun n x h => Pushing 1 e (stride e T) n sp x.1 x.2 h) (Cold sp e)
      (fun x y => y.1 ≤ x.1 ∧ Spaced T x.2 y.2) where
  idle _ _ _ _ now hp hidle := hp.idle hidle now
  poll _ _ _ now hp := hp.poll now
  next n x h y hp hy hR := by
    obtain ⟨hle, hspaced⟩ := hR
    have hcold := hy.2
    exact hp.next (Or.inl rfl) he hy.1 (cold_cool hy) (by omega) (by omega) hspaced

theorem overheats {h : Heating} {v : Int} (hhot : h.setpoint + controllerErrorDelta < v) (now : UInt32) :
    (h.sample v now).power = 0 := by
  have htoo : (h.setCurrent v).tooHot = true := decide_eq_true hhot
  unfold Heating.sample Heating.decideSample
  rw [if_pos htoo]
  exact Heating.enter_off rfl true now

theorem sample_setpoint (h : Heating) (v : Int) (now : UInt32) : (h.sample v now).setpoint = h.setpoint :=
  Heating.decideSample_setpoint _ now

theorem poll_off {h : Heating} (hoff : h.power = 0) (now : UInt32) : (h.poll now).power = 0 := by
  unfold Heating.poll
  split_ifs
  · apply Heating.enter_off
    exact hoff
  · exact hoff

theorem relieved_rule (sp : Int) {e : Nat} (he : 2 ≤ e) (T : Nat) :
    SampleRule (Relieved sp e T) (Warm sp e) (fun x y => x.1 ≤ y.1 ∧ Spaced T x.2 y.2) where
  idle n x h ev now hp hidle := by
    rcases hp with hp | ⟨hoff, hsp, hhot⟩
    · exact Or.inl (hp.idle hidle now)
    · right
      exact ⟨(Heating.event_idle_power h hidle now).trans hoff,
        (Heating.event_idle_setpoint h hidle now).trans hsp, hhot⟩
  poll n x h now hp := by
    rcases hp with hp | ⟨hoff, hsp, hhot⟩
    · exact Or.inl (hp.poll now)
    · exact Or.inr ⟨poll_off hoff now, (Heating.poll_setpoint h now).trans hsp, hhot⟩
  next n x h y hp hy hR := by
    obtain ⟨hle, hspaced⟩ := hR
    have hsp : h.setpoint = sp := hp.elim (fun hp => hp.setpoint) (fun hoff => hoff.2.1)
    by_cases hhot : sp + controllerErrorDelta < y.1
    · exact Or.inr ⟨overheats (hsp ▸ hhot) y.2, (sample_setpoint h y.1 y.2).trans hsp, hhot⟩
    · -- what does not overheat follows only on what has not overheated
      rcases hp with hp | ⟨-, -, hbefore⟩
      · have hwarm := hy.2
        exact Or.inl (hp.next (Or.inr rfl) he hy.1 (by omega) (by omega) (by omega) hspaced)
      · omega

theorem run_driven {s : Controller} (hd : Driven s) (is : List Input) : Driven (Trace.run feed s is).1 :=
  Trace.run_state_invariant Driven (fun _ i h => feed_driven i h) hd is

theorem run_sound {s : Controller} (hs : s.heating.Sound) (is : List Input) :
    (Trace.run feed s is).1.heating.Sound :=
  Trace.run_state_invariant (fun s : Controller => s.heating.Sound) (fun _ i h => feed_sound i h) hs is

/-- **No standing offset.** While the setpoint is left alone, samples at least `T` ms apart that stay too cold
    by `e` and do not rise end in full power, and samples that stay too warm and do not fall end in none,
    whatever the controller remembers at the beginning. `stride e T` is `e * T / 1000`. -/
theorem no_standing_offset {s : Controller} (hreach : SensorReachable s) {is : List Input}
    (hkept : ∀ i ∈ is, i.KeepsSetpoint) {e T : Nat} (he : 2 ≤ e) (hmany : 2 ≤ (samples is).length) :
    ((∀ x ∈ samples is, Cold s.setpoint e x) →
      (samples is).IsChain (fun x y => y.1 ≤ x.1 ∧ Spaced T x.2 y.2) →
      4000 ≤ 80 * e + ((samples is).length - 1) * stride e T →
      (Trace.run feed s is).1.lastPower = 1000) ∧
    ((∀ x ∈ samples is, Warm s.setpoint e x) →
      (samples is).IsChain (fun x y => x.1 ≤ y.1 ∧ Spaced T x.2 y.2) →
      2000 ≤ 80 * e + ((samples is).length - 1) * stride e T →
      (Trace.run feed s is).1.lastPower = 0) := by
  obtain ⟨hd, hs⟩ := reachable_spec hreach.reachable
  have hr := sensorReachable_ranged hreach
  have hsome : samples is ≠ [] := List.length_pos_iff.mp (by omega)
  rw [lastPower_eq (run_driven hd is) (run_sound hs is)]
  constructor
  · intro hcold hsteady hfar
    obtain ⟨y, hy⟩ := (cold_rule s.setpoint he T).run_first (fun h y hs hr hsp hQ => by
        have hcool := cold_cool hQ
        have herr := hQ.2
        rw [← hsp] at hcool herr ⊢
        exact Heating.pushing_first hs hr (Or.inl rfl) _ he hQ.1 hcool (by omega) y.2)
      hkept hs hr rfl hcold hsteady hsome
    exact hy.full (by omega) hfar
  · intro hwarm hsteady hfar
    obtain ⟨y, hy⟩ := (relieved_rule s.setpoint he T).run_first (fun h y hs hr hsp hQ => by
        by_cases hhot : s.setpoint + controllerErrorDelta < y.1
        · exact Or.inr ⟨overheats (hsp ▸ hhot) y.2, (sample_setpoint h y.1 y.2).trans hsp, hhot⟩
        · have herr := hQ.2
          rw [← hsp] at hhot herr
          have hfirst := Heating.pushing_first hs hr (Or.inr rfl) (stride e T) he hQ.1 (by omega) (by omega) y.2
          rw [hsp] at hfirst
          exact Or.inl hfirst)
      hkept hs hr rfl hwarm hsteady hsome
    rcases hy with hy | hoff
    · exact hy.off (by omega) hfar
    · exact hoff.1

/-- A room that cools down from 35.2 °C, measured every 0.8 s. -/
def cooling : List Input :=
  [ .event ⟨.temperatureReady, 352⟩ 1000, .poll 1100, .event ⟨.temperatureReady, 352⟩ 1800,
    .event ⟨.buttonS3, 0⟩ 2000, .event ⟨.temperatureReady, 351⟩ 2600, .event ⟨.temperatureReady, 349⟩ 3400,
    .poll 3500, .event ⟨.temperatureReady, 348⟩ 4200, .event ⟨.temperatureReady, 348⟩ 5000 ]

theorem no_standing_offset_cooling : (Trace.run feed started cooling).1.lastPower = 1000 :=
  (no_standing_offset started_reachable (by decide : ∀ i ∈ cooling, i.KeepsSetpoint) (e := 48) (T := 800)
    (by decide) (by decide)).1 (by decide) (by decide) (by decide)

end Controller
end Thermostat
