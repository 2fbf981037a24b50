import Thermostat.Lib.Trace
import Thermostat.Utils.Correctness.Debounce

/-!
# `Utils.Correctness.Holding` — the repetition of hold events

A key that stays pressed is reported as held every `HoldMs`. The driver stores when the next report is due,
and a deadline of `0` means that none is. `Watched` remembers beside the key when it was last reported as
pressed or held, and never restricts a step; `Due` is what the deadline says about that time.

**`held_iff`**: a hold is reported when it is due, unless its deadline falls on tick `0`. There the key is
not reported any more until it is released (`unreported`).
-/

namespace Thermostat
namespace Button

/-- One reading of the clock and of the pin. -/
structure Sample where
  now : UInt32
  level : Bool
deriving DecidableEq, Repr

/-- A key with the tick of its last press or hold event. -/
structure Watched (debounceMs holdMs : UInt16) where
  key : Button debounceMs holdMs
  last : UInt32
deriving DecidableEq, Repr

variable {debounceMs holdMs : UInt16}

def watch (w : Watched debounceMs holdMs) (s : Sample) : Watched debounceMs holdMs × List ButtonEvent :=
  let (key, e) := w.key.tick s.now s.level
  (⟨key, if e = .pressed ∨ e = .held then s.now else w.last⟩, [e])

def fresh : Watched debounceMs holdMs := ⟨new, 0⟩

/-- The key after some run of samples. -/
def Reached (w : Watched debounceMs holdMs) : Prop := ∃ ss, w = (Trace.run watch fresh ss).1

/-- Remembering does not change what the key does. -/
theorem watch_key (w : Watched debounceMs holdMs) (s : Sample) :
    (watch w s).1.key = (w.key.tick s.now s.level).1 ∧ (watch w s).2 = [(w.key.tick s.now s.level).2] :=
  ⟨rfl, rfl⟩

/-- The deadline of a pressed key lies `HoldMs` after its last event. -/
def Due (w : Watched debounceMs holdMs) : Prop :=
  w.key.stableState = true → w.key.holdDeadline = w.last + holdMs.toUInt32

theorem watch_due (w : Watched debounceMs holdMs) (s : Sample) (h : Due w) : Due (watch w s).1 := by
  unfold Due watch at *
  rw [tick_eq]
  by_cases hsame : (!s.level) ≠ w.key.stableState
  · rw [if_pos hsame]
    by_cases hdue : w.key.due s.now s.level = true
    · -- a press sets the deadline; a release ends the obligation
      rw [if_pos hdue]
      intro hstable
      have hlevel : s.level = false := by simpa using hstable
      simp [hlevel]
    · rw [if_neg hdue]
      intro hstable
      simpa using h hstable
  · rw [if_neg hsame]
    by_cases hheld : w.key.stableState ∧ holdMs > 0 ∧ w.key.holdDeadline ≠ 0
        ∧ timeReached s.now w.key.holdDeadline
    · rw [if_pos hheld]
      intro _
      simp
    · rw [if_neg hheld]
      intro hstable
      simpa using h hstable

theorem reached_due {w : Watched debounceMs holdMs} (h : Reached w) : Due w := by
  obtain ⟨ss, rfl⟩ := h
  exact Trace.run_state_invariant Due watch_due (fun hstable => Bool.noConfusion hstable) ss

/-- While less than `2 ^ 31` has gone by, the signed comparison is right. -/
theorem timeReached_add {now last : UInt32} (hearly : (now - last).toNat < 2147483648) :
    timeReached now (last + holdMs.toUInt32) = true ↔ holdMs.toUInt32 ≤ now - last := by
  have hhold : holdMs.toUInt32.toNat < 65536 := by
    rw [UInt16.toNat_toUInt32]
    exact holdMs.toNat_lt
  have hnow := now.toNat_lt
  have hlast := last.toNat_lt
  rw [UInt32.toNat_sub] at hearly
  unfold timeReached Word.reached Word.int32
  rw [decide_eq_true_iff, UInt32.le_iff_toNat_le, UInt32.toNat_sub, UInt32.toNat_sub, UInt32.toNat_add]
  omega

theorem tick_down {b : Button debounceMs holdMs} (hstable : b.stableState = true) (now : UInt32) :
    (b.tick now false).2 = .held ↔
      holdMs > 0 ∧ b.holdDeadline ≠ 0 ∧ timeReached now b.holdDeadline = true := by
  have hsame : ¬ (!false) ≠ b.stableState := by simp [hstable]
  rw [tick_eq, if_neg hsame]
  by_cases hheld : holdMs > 0 ∧ b.holdDeadline ≠ 0 ∧ timeReached now b.holdDeadline = true
  · rw [if_pos ⟨hstable, hheld⟩]
    exact ⟨fun _ => hheld, fun _ => rfl⟩
  · rw [if_neg (fun h => hheld h.2)]
    exact ⟨fun h => ButtonEvent.noConfusion h, fun h => absurd h hheld⟩

/-- **Hold repetition**: whenever a pressed key is sampled pressed, a hold event comes exactly when `HoldMs`
    are over since the last press or hold event, if and only if they are not over or do not end on
    tick `0`. -/
theorem held_iff {w : Watched debounceMs holdMs} (hreach : Reached w) (hhold : holdMs > 0)
    (hdown : w.key.stableState = true) (now : UInt32) (hearly : (now - w.last).toNat < 2147483648) :
    ((w.key.tick now false).2 = .held ↔ holdMs.toUInt32 ≤ now - w.last) ↔
      now - w.last < holdMs.toUInt32 ∨ w.last + holdMs.toUInt32 ≠ 0 := by
  rw [tick_down hdown, reached_due hreach hdown, timeReached_add hearly, ← UInt32.not_le]
  tauto

theorem held_iff_first :
    Reached (⟨⟨true, true, 100, 230⟩, 130⟩ : Watched 30 100) ∧
    ((((⟨true, true, 100, 230⟩ : Button 30 100).tick 230 false).2 = .held ↔ 100 ≤ (230 : UInt32) - 130) ↔
      (230 : UInt32) - 130 < 100 ∨ (130 : UInt32) + 100 ≠ 0) :=
  have hreach : Reached (⟨⟨true, true, 100, 230⟩, 130⟩ : Watched 30 100) :=
    ⟨[⟨100, false⟩, ⟨130, false⟩], by decide⟩
  ⟨hreach, held_iff hreach (by decide) rfl 230 (by decide)⟩

/-- A key that is pressed 100 ms before the counter wraps to `0` is not reported as held 200 ms later. -/
theorem held_missed :
    Reached (⟨⟨true, true, 4294967166, 0⟩, 4294967196⟩ : Watched 30 100) ∧
    ((100 : UInt32) - 4294967196).toNat = 200 ∧
    ¬ (((⟨true, true, 4294967166, 0⟩ : Button 30 100).tick 100 false).2 = .held ↔
      100 ≤ (100 : UInt32) - 4294967196) :=
  ⟨⟨[⟨4294967166, false⟩, ⟨4294967196, false⟩], by decide⟩, by decide, by decide⟩

/-! ## Keys without a deadline -/

theorem tick_unset {b : Button debounceMs holdMs} (hstable : b.stableState = true) (hzero : b.holdDeadline = 0)
    (now : UInt32) (level : Bool) :
    (b.tick now level).2 = .released ∨ (b.tick now level).2 = .none ∧
      (b.tick now level).1.stableState = true ∧ (b.tick now level).1.holdDeadline = 0 := by
  rw [tick_eq]
  by_cases hsame : (!level) ≠ b.stableState
  · have hlevel : level = true := by simpa [hstable] using hsame
    rw [if_pos hsame]
    by_cases hdue : b.due now level = true
    · rw [if_pos hdue]
      exact Or.inl (if_pos hlevel)
    · rw [if_neg hdue]
      exact Or.inr ⟨rfl, hstable, hzero⟩
  · rw [if_neg hsame, if_neg (fun h => h.2.2.1 hzero)]
    exact Or.inr ⟨rfl, hstable, hzero⟩

/-- **A deadline on tick `0` is lost**: up to its release, the key makes no event at all. -/
theorem unreported {w : Watched debounceMs holdMs} (hstable : w.key.stableState = true)
    (hzero : w.key.holdDeadline = 0) (ss : List Sample) :
    ∀ e ∈ (Trace.run watch w ss).2.takeWhile (· ≠ .released), e = .none := by
  induction ss generalizing w with
  | nil => simp
  | cons s ss ih =>
      obtain ⟨hkey, heffects⟩ := watch_key w s
      rw [Trace.run_cons, heffects, List.singleton_append]
      rcases tick_unset hstable hzero s.now s.level with hreleased | ⟨hnone, hstable', hzero'⟩
      · rw [hreleased]
        simp
      · rw [← hkey] at hstable' hzero'
        rw [hnone]
        simpa using ih hstable' hzero'

end Button
end Thermostat
