import Thermostat.Lib.Clock
import Thermostat.Utils.Button
import Mathlib.Data.Nat.Basic
import Mathlib.Order.Monotone.Basic

/-!
# `Utils.Correctness.Debounce` — the debounced stream of a key

A key is sampled at irregular true times with arbitrary pin levels; the driver sees the times through the
wrapping tick counter. **`debounced`** says what comes out:

- **Order.** Presses and releases alternate, and a key is held only while it is pressed.
- **Events.** A press or a release is made exactly when the stable level moves.
- **Soundness.** An event ends an unbroken run of samples of its level that lasts the debounce time.
- **Completeness.** A run of samples of one level that lasts the debounce time makes that level the stable
  one, if the sampling never pauses for nearly a whole period of the counter.

Soundness rests on `Since`, which ties `lastChange` to the history of samples. Completeness needs no
history: `Settling` follows the elapsed time that the driver measures, from the first sample of the run.
-/

namespace Thermostat
namespace Button

/-! ## What one sample does -/

section Tick

variable {debounceMs holdMs : UInt16} (b : Button debounceMs holdMs) (now : UInt32) (level : Bool)

/-- The time of the last change of the raw level, this sample included. -/
def changed : UInt32 := if (!level) ≠ b.rawState then now else b.lastChange

/-- The raw level is old enough to become the stable one. -/
def due : Bool := hasElapsed now (b.changed now level) debounceMs.toUInt32

theorem tick_eq : b.tick now level =
    if (!level) ≠ b.stableState then
      if b.due now level then
        (⟨!level, !level, b.changed now level, if level then 0 else now + holdMs.toUInt32⟩,
          if level then .released else .pressed)
      else (⟨!level, b.stableState, b.changed now level, b.holdDeadline⟩, .none)
    else if b.stableState ∧ holdMs > 0 ∧ b.holdDeadline ≠ 0 ∧ timeReached now b.holdDeadline then
      (⟨!level, b.stableState, b.changed now level, now + holdMs.toUInt32⟩, .held)
    else (⟨!level, b.stableState, b.changed now level, b.holdDeadline⟩, .none) := by
  obtain ⟨raw, stable, last, deadline⟩ := b
  unfold tick due changed
  by_cases hraw : (!level) = raw
  · subst hraw
    simp only [ne_eq, not_true_eq_false, if_false]
    cases level <;> rfl
  · simp only [ne_eq, hraw, not_false_eq_true, if_true]
    cases level <;> rfl

@[simp] theorem tick_rawState : (b.tick now level).1.rawState = !level := by
  rw [tick_eq]
  split_ifs <;> rfl

@[simp] theorem tick_lastChange : (b.tick now level).1.lastChange = b.changed now level := by
  rw [tick_eq]
  split_ifs <;> rfl

/-- **What a sample does to the stable level**, and which event it makes: only a due change of level has
    an effect, and only a key that stays pressed is reported as held. -/
theorem tick_cases :
    ((!level) ≠ b.stableState ∧ b.due now level = true ∧ (b.tick now level).1.stableState = !level ∧
      (b.tick now level).2 = if level then .released else .pressed) ∨
    (((!level) = b.stableState ∨ b.due now level = false) ∧
      (b.tick now level).1.stableState = b.stableState ∧
      ((b.tick now level).2 = .none ∨ (b.tick now level).2 = .held ∧ b.stableState = true)) := by
  rw [tick_eq]
  by_cases hsame : (!level) = b.stableState
  · rw [if_neg (not_not.mpr hsame)]
    refine .inr ⟨.inl hsame, ?_⟩
    split_ifs with hheld
    · exact ⟨rfl, .inr ⟨rfl, hheld.1⟩⟩
    · exact ⟨rfl, .inl rfl⟩
  · rw [if_pos hsame]
    cases hdue : b.due now level with
    | true => exact .inl ⟨hsame, rfl, rfl, rfl⟩
    | false => exact .inr ⟨.inr rfl, rfl, .inl rfl⟩

end Tick

/-! ## Runs -/

/-- The samples of a run: the true time of each tick, which never goes back, and the level of the pin. -/
structure Samples where
  time : Nat → Nat
  level : Nat → Bool
  forward : Monotone time

variable (debounceMs holdMs : UInt16) (x : Samples)

/-- The key before tick `n`. -/
def sampled : Nat → Button debounceMs holdMs
  | 0     => new
  | n + 1 => ((sampled n).tick (Clock.read (x.time n)) (x.level n)).1

/-- The event of tick `n`. -/
def event (n : Nat) : ButtonEvent :=
  ((sampled debounceMs holdMs x n).tick (Clock.read (x.time n)) (x.level n)).2

/-- Presses and releases alternate, and a hold comes only between a press and its release; the flag tells
    whether the key is pressed at the start. -/
def Alternates : Bool → List ButtonEvent → Prop
  | _,    []              => True
  | down, .none :: es     => Alternates down es
  | down, .pressed :: es  => down = false ∧ Alternates true es
  | down, .released :: es => down = true ∧ Alternates false es
  | down, .held :: es     => down = true ∧ Alternates down es

theorem alternates_from (m n : Nat) :
    Alternates (sampled debounceMs holdMs x m).stableState
      ((List.range' m n).map (event debounceMs holdMs x)) := by
  induction n generalizing m with
  | zero => exact trivial
  | succ n ih =>
      have hrest := ih (m + 1)
      rw [List.range'_succ, List.map_cons]
      change Alternates ((sampled debounceMs holdMs x m).tick _ (x.level m)).1.stableState _ at hrest
      unfold event
      rcases tick_cases (sampled debounceMs holdMs x m) (Clock.read (x.time m)) (x.level m) with
        ⟨hmove, -, hstable, hevent⟩ | ⟨-, hstable, hevent⟩
      · -- the level moves: the event is the one that the old level allows
        rw [hstable] at hrest
        rw [hevent]
        cases hlevel : x.level m <;> rw [hlevel] at hmove hrest
        · exact ⟨Bool.eq_false_iff.mpr (fun h => hmove h.symm), hrest⟩
        · exact ⟨eq_true_of_ne_false (fun h => hmove h.symm), hrest⟩
      · rw [hstable] at hrest
        rcases hevent with hevent | ⟨hevent, hdown⟩ <;> rw [hevent]
        · exact hrest
        · exact ⟨hdown, hrest⟩

/-- **An event other than a hold is made exactly when the stable level moves**, and says where to. -/
theorem event_iff_moves (i : Nat) (l : Bool) :
    event debounceMs holdMs x i = (if l then .released else .pressed) ↔
      (sampled debounceMs holdMs x i).stableState = l ∧
        (sampled debounceMs holdMs x (i + 1)).stableState = !l := by
  unfold event
  rw [sampled]
  rcases tick_cases (sampled debounceMs holdMs x i) (Clock.read (x.time i)) (x.level i) with
    ⟨hmove, -, hnew, hevent⟩ | ⟨-, hnew, hevent⟩
  · -- the level moves to that of the sample, and the event is that of the sample
    have hold : (sampled debounceMs holdMs x i).stableState = x.level i := (Bool.not_not_eq.mp hmove).symm
    rw [hevent, hold, hnew]
    cases x.level i <;> cases l <;> simp
  · rw [hnew]
    constructor
    · intro hcontra
      rcases hevent with hevent | ⟨hevent, -⟩ <;> rw [hevent] at hcontra <;> cases l <;> cases hcontra
    · rintro ⟨hstay, hgone⟩
      rw [hstay] at hgone
      cases l <;> cases hgone

/-! ## Soundness -/

/-- The raw level goes back to the sample whose time is noted as that of the last change, or the key has
    never been pressed. -/
def Since (n : Nat) : Prop :=
  (∃ j < n, (sampled debounceMs holdMs x n).lastChange = Clock.read (x.time j) ∧
    ∀ k, j ≤ k → k < n → (!x.level k) = (sampled debounceMs holdMs x n).rawState) ∨
  (sampled debounceMs holdMs x n).rawState = false ∧
    (sampled debounceMs holdMs x n).stableState = false

/-- The samples from `j` to `i` all have the level `l`. -/
def Samples.Steady (j i : Nat) (l : Bool) : Prop := ∀ k, j ≤ k → k ≤ i → x.level k = l

/-- What is noted as the time of the last change, with the sample of tick `n`: the start of a run of
    samples of its level, unless the key has never been pressed. -/
theorem since_changed {n : Nat} (h : Since debounceMs holdMs x n) :
    (∃ j ≤ n, (sampled debounceMs holdMs x n).changed (Clock.read (x.time n)) (x.level n)
        = Clock.read (x.time j) ∧ x.Steady j n (x.level n)) ∨
    (!x.level n) = false ∧ (sampled debounceMs holdMs x n).stableState = false := by
  unfold changed
  by_cases hraw : (!x.level n) = (sampled debounceMs holdMs x n).rawState
  · rw [if_neg (not_not.mpr hraw)]
    rcases h with ⟨j, hj, hlast, hsteady⟩ | ⟨hup, hstable⟩
    · refine .inl ⟨j, hj.le, hlast, ?_⟩
      intro k hjk hkn
      rcases Nat.lt_or_eq_of_le hkn with hlt | rfl
      · exact Bool.not_inj ((hsteady k hjk hlt).trans hraw.symm)
      · rfl
    · exact .inr ⟨hraw.trans hup, hstable⟩
  · -- the level has just changed: the run consists of this sample
    rw [if_pos hraw]
    refine .inl ⟨n, Nat.le_refl n, rfl, ?_⟩
    intro k hnk hkn
    rw [Nat.le_antisymm hkn hnk]

theorem since (n : Nat) : Since debounceMs holdMs x n := by
  induction n with
  | zero => exact .inr ⟨rfl, rfl⟩
  | succ n ih =>
      unfold Since sampled
      rw [tick_rawState, tick_lastChange]
      rcases since_changed debounceMs holdMs x ih with ⟨j, hj, hlast, hsteady⟩ | ⟨hup, hstable⟩
      · refine .inl ⟨j, Nat.lt_succ_of_le hj, hlast, ?_⟩
        intro k hjk hkn
        rw [hsteady k hjk (Nat.le_of_lt_succ hkn)]
      · refine .inr ⟨hup, ?_⟩
        rcases tick_cases (sampled debounceMs holdMs x n) (Clock.read (x.time n)) (x.level n) with
          ⟨-, -, hnew, -⟩ | ⟨-, hnew, -⟩
        · rw [hnew, hup]
        · rw [hnew, hstable]

/-- An event other than a hold ends a run of samples of its level that lasts the debounce time. -/
theorem event_sound {i : Nat} {l : Bool}
    (h : event debounceMs holdMs x i = if l then .released else .pressed) :
    ∃ j ≤ i, debounceMs.toNat ≤ x.time i - x.time j ∧ x.Steady j i l := by
  rcases tick_cases (sampled debounceMs holdMs x i) (Clock.read (x.time i)) (x.level i) with
    ⟨hmove, hdue, -, hevent⟩ | ⟨-, -, hevent⟩
  -- an event of the level is made by a sample of it, when the change is due
  · have hlevel : x.level i = l := by
      have heq := hevent.symm.trans h
      cases l <;> cases hx : x.level i <;> rw [hx] at heq <;> first | rfl | cases heq
    rw [← hlevel]
    rcases since_changed debounceMs holdMs x (since debounceMs holdMs x i) with
      ⟨j, hj, hlast, hsteady⟩ | ⟨hup, hstable⟩
    · refine ⟨j, hj, ?_, hsteady⟩
      unfold due hasElapsed at hdue
      rw [hlast, Clock.elapsed_iff (x.forward hj), UInt16.toNat_toUInt32] at hdue
      exact hdue.trans (Nat.mod_le _ _)
    · exact absurd (hup.trans hstable.symm) hmove
  · -- the other samples make no event, or report a hold
    cases l <;> rcases hevent with hevent | ⟨hevent, -⟩ <;> cases hevent.symm.trans h

/-! ## Completeness -/

/-- From tick `j` to tick `i`, the pause from each tick to the next is shorter than `bound`. -/
def Samples.Pauses (j i bound : Nat) : Prop :=
  ∀ k, j ≤ k → k < i → x.time (k + 1) - x.time k < bound

/-- `l` was sampled `span` ms ago for the first time: it is stable, or the driver has measured at least
    that span and found it too short. -/
def Settling (b : Button debounceMs holdMs) (now : UInt32) (l : Bool) (span : Nat) : Prop :=
  b.rawState = (!l) ∧
  (b.stableState = (!l) ∨
    span ≤ (now - b.lastChange).toNat ∧ (now - b.lastChange).toNat < debounceMs.toNat)

variable {debounceMs holdMs}

/-- The first sample of the level. -/
theorem settling_start (b : Button debounceMs holdMs) (now : UInt32) (l : Bool) :
    Settling debounceMs holdMs (b.tick now l).1 now l 0 := by
  refine ⟨tick_rawState b now l, ?_⟩
  rw [tick_lastChange]
  rcases tick_cases b now l with ⟨-, -, hnew, -⟩ | ⟨hwhy, hnew, -⟩
  · exact .inl hnew
  · rcases hwhy with hsame | hearly
    · exact .inl (hnew.trans hsame.symm)
    · refine .inr ⟨Nat.zero_le _, ?_⟩
      have hlt := of_decide_eq_false hearly
      rw [UInt32.not_le, UInt32.lt_iff_toNat_lt, UInt16.toNat_toUInt32] at hlt
      exact hlt

/-- A further sample of the level: the measured time grows by the true pause, which is too short to wrap
    it. -/
theorem settling_next {b : Button debounceMs holdMs} {l : Bool} {s t span : Nat} (hst : s ≤ t)
    (hpause : t - s < 4294967296 - debounceMs.toNat)
    (h : Settling debounceMs holdMs b (Clock.read s) l span) :
    Settling debounceMs holdMs (b.tick (Clock.read t) l).1 (Clock.read t) l (span + (t - s)) := by
  obtain ⟨hraw, hcase⟩ := h
  -- the level was sampled before, so the time of its start stays
  have hlast : b.changed (Clock.read t) l = b.lastChange := by
    unfold changed
    rw [if_neg (not_not.mpr hraw.symm)]
  refine ⟨tick_rawState b _ l, ?_⟩
  rw [tick_lastChange, hlast]
  rcases tick_cases b (Clock.read t) l with ⟨-, -, hnew, -⟩ | ⟨hwhy, hnew, -⟩
  · exact .inl hnew
  · rcases hwhy with hsame | hearly
    · exact .inl (hnew.trans hsame.symm)
    · rcases hcase with hstable | ⟨hspan, hshort⟩
      · exact .inl (hnew.trans hstable)
      -- still too short: the driver's measure grows by the pause and does not wrap
      · have hlt := of_decide_eq_false hearly
        rw [hlast, UInt32.not_le, UInt32.lt_iff_toNat_lt, UInt16.toNat_toUInt32] at hlt
        have hgrow := Clock.sub_toNat_add hst b.lastChange
        rw [Nat.mod_eq_of_lt (by omega)] at hgrow
        exact .inr ⟨by omega, hlt⟩

theorem settling_run {i j : Nat} (hji : j ≤ i) {l : Bool} (hsteady : x.Steady j i l)
    (hpause : x.Pauses j i (4294967296 - debounceMs.toNat)) :
    Settling debounceMs holdMs (sampled debounceMs holdMs x (i + 1)) (Clock.read (x.time i)) l
      (x.time i - x.time j) := by
  -- from the first sample of the level on, one sample after the other
  induction i, hji using Nat.le_induction with
  | base =>
      have hstart := settling_start (sampled debounceMs holdMs x j) (Clock.read (x.time j)) l
      rw [Nat.sub_self, sampled, hsteady j (Nat.le_refl j) (Nat.le_refl j)]
      exact hstart
  | succ i hji ih =>
      have hbefore := ih (fun k hjk hki => hsteady k hjk (Nat.le_succ_of_le hki))
        (fun k hjk hki => hpause k hjk (Nat.lt_succ_of_lt hki))
      have hstep := settling_next (x.forward (Nat.le_succ i)) (hpause i hji (Nat.lt_succ_self i)) hbefore
      have hspan : x.time i - x.time j + (x.time (i + 1) - x.time i) = x.time (i + 1) - x.time j := by
        have hfirst : x.time j ≤ x.time i := x.forward hji
        have hlast : x.time i ≤ x.time (i + 1) := x.forward (Nat.le_succ i)
        omega
      rw [hspan] at hstep
      rw [sampled, hsteady (i + 1) (Nat.le_succ_of_le hji) (Nat.le_refl _)]
      exact hstep

theorem stable_complete {i j : Nat} (hji : j ≤ i) {l : Bool} (hsteady : x.Steady j i l)
    (hpause : x.Pauses j i (4294967296 - debounceMs.toNat))
    (hlong : debounceMs.toNat ≤ x.time i - x.time j) :
    (sampled debounceMs holdMs x (i + 1)).stableState = !l := by
  rcases (@settling_run debounceMs holdMs x i j hji l hsteady hpause).2 with hstable | ⟨hspan, hshort⟩
  · exact hstable
  · omega

/-! ## The law -/

variable (debounceMs holdMs)

/-- What a key with this debounce time makes of the samples: presses and releases alternate; each is made exactly
    when the stable level moves, and ends a run of samples that lasts the debounce time; and after such a run the
    level is stable. -/
structure Debounced : Prop where
  press : ∀ i, event debounceMs holdMs x i = .pressed ↔
    (sampled debounceMs holdMs x i).stableState = false ∧
      (sampled debounceMs holdMs x (i + 1)).stableState = true
  release : ∀ i, event debounceMs holdMs x i = .released ↔
    (sampled debounceMs holdMs x i).stableState = true ∧
      (sampled debounceMs holdMs x (i + 1)).stableState = false
  alternates : ∀ n, Alternates false ((List.range n).map (event debounceMs holdMs x))
  pressed : ∀ i, event debounceMs holdMs x i = .pressed →
    ∃ j ≤ i, debounceMs.toNat ≤ x.time i - x.time j ∧ x.Steady j i false
  released : ∀ i, event debounceMs holdMs x i = .released →
    ∃ j ≤ i, debounceMs.toNat ≤ x.time i - x.time j ∧ x.Steady j i true
  settled : ∀ i j l, j ≤ i → debounceMs.toNat ≤ x.time i - x.time j → x.Steady j i l →
    x.Pauses j i (4294967296 - debounceMs.toNat) →
    (sampled debounceMs holdMs x (i + 1)).stableState = !l

/-- **Debouncing is sound and complete**, for every debounce and hold time, at any sampling times. -/
theorem debounced : Debounced debounceMs holdMs x := by
  refine ⟨?_, ?_, ?_, ?_, ?_, ?_⟩
  · exact fun i => event_iff_moves debounceMs holdMs x i false
  · exact fun i => event_iff_moves debounceMs holdMs x i true
  · intro n
    rw [List.range_eq_range']
    exact alternates_from debounceMs holdMs x 0 n
  · intro i h
    exact event_sound debounceMs holdMs x h
  · intro i h
    exact event_sound debounceMs holdMs x h
  · intro i j l hji hlong hsteady hpause
    exact stable_complete x hji hsteady hpause hlong

end Button
end Thermostat
