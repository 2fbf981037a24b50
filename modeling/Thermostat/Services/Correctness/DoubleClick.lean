import Mathlib.Data.Fintype.Basic
import Mathlib.Tactic.FinCases
import Thermostat.Lib.Trace
import Thermostat.Services.ButtonsManager
import Thermostat.Utils.Correctness.Debounce

/-!
# `Services.Correctness.DoubleClick` — releases and double clicks

`poll` samples the four keys one after the other; here they are numbered, so that every key is treated at
once. **`doubled_iff`** says what the code takes for a double click: a press clears the time of the previous
release, so that a release counts as a double click when it comes in the first 250 ms of the tick counter,
whatever came before it. **`doubleClick_iff`** compares that with the releases of the run.
-/

namespace Thermostat
namespace ButtonsManager

open Config Button

/-! ## What one key does -/

section Handle

variable (b : Key) (type : EventType) (lastR : UInt32) (r : KeySample)

theorem handle_type : ∀ e ∈ (handle b type lastR r).2.2, e.type = type := by
  unfold handle
  simp only
  intro e he
  split at he
  · rw [List.mem_singleton.mp he]
  · rw [List.mem_singleton.mp he]
  · rcases List.mem_cons.mp he with rfl | hdouble
    · rfl
    · split_ifs at hdouble
      · rw [List.mem_singleton.mp hdouble]
      · cases hdouble
  · cases he

theorem handle_key : (handle b type lastR r).1 = (b.tick r.tick r.level).1 := by
  unfold handle
  simp only
  split <;> rfl

theorem handle_released_iff :
    ⟨type, 2⟩ ∈ (handle b type lastR r).2.2 ↔ (b.tick r.tick r.level).2 = .released := by
  unfold handle
  simp only
  split <;> rename_i hevent <;> simp [hevent]

theorem handle_doubled_iff :
    ⟨type, 3⟩ ∈ (handle b type lastR r).2.2 ↔
      (b.tick r.tick r.level).2 = .released ∧ r.now - lastR ≤ buttonsDoubleClickGapMs := by
  unfold handle
  simp only
  split <;> rename_i hevent <;> simp [hevent]

/-- The code of a double click follows that of the release. -/
theorem handle_doubled (h : (b.tick r.tick r.level).2 = .released)
    (hgap : r.now - lastR ≤ buttonsDoubleClickGapMs) :
    (handle b type lastR r).2.2 = [⟨type, 2⟩, ⟨type, 3⟩] := by
  unfold handle
  simp only [h, if_pos hgap]

/-- A key that is pressed has no previous release noted. -/
theorem handle_cleared (h : b.stableState = true → lastR = 0) :
    (handle b type lastR r).1.stableState = true → (handle b type lastR r).2.1 = 0 := by
  rw [handle_key]
  intro hdown
  unfold handle
  simp only
  rcases tick_cases b r.tick r.level with ⟨-, -, hstable, hevent⟩ | ⟨-, hstable, hevent⟩
  · -- a change of the level to pressed
    have hlevel : r.level = false := by simpa [hdown] using hstable
    have hpressed : (b.tick r.tick r.level).2 = .pressed := by simpa [hlevel] using hevent
    simp [hpressed]
  · have hlast := h (hstable.symm.trans hdown)
    rcases hevent with hnone | ⟨hheld, -⟩
    · simp [hnone, hlast]
    · simp [hheld, hlast]

/-- A release is a due change of a pressed key. -/
theorem tick_released_iff : (b.tick r.tick r.level).2 = .released ↔
    b.stableState = true ∧ r.level = true ∧ b.due r.tick r.level = true := by
  rcases tick_cases b r.tick r.level with ⟨hmove, hdue, -, hevent⟩ | ⟨hwhy, -, hevent⟩
  · rw [hevent]
    cases hlevel : r.level
    · simp
    · have hdown : b.stableState = true := by simpa [hlevel] using hmove
      simp [hdown, ← hlevel, hdue]
  · have hnot : (b.tick r.tick r.level).2 ≠ .released := by
      rcases hevent with hnone | ⟨hheld, -⟩
      · simp [hnone]
      · simp [hheld]
    refine iff_of_false hnot ?_
    rintro ⟨hdown, hup, hdue⟩
    rcases hwhy with hsame | hearly
    · simp [hdown, hup] at hsame
    · cases hdue.symm.trans hearly

end Handle

theorem checkCombination_type (comboStart : UInt32) (r : ComboSample) :
    ∀ e ∈ (checkCombination comboStart r).2, e.type = .buttonS1 := by
  unfold checkCombination
  simp only
  intro e he
  split_ifs at he <;> first | rw [List.mem_singleton.mp he] | cases he

theorem checkCombination_code (comboStart : UInt32) (r : ComboSample) :
    ∀ e ∈ (checkCombination comboStart r).2, e.value = 9 ∨ e.value = 10 := by
  unfold checkCombination
  simp only
  intro e he
  split_ifs at he <;> first | cases he; done | rw [List.mem_singleton.mp he]; simp

/-! ## The four keys -/

/-- The type of the events of a key. -/
def keyType : Fin 4 → EventType
  | 0 => .buttonS1
  | 1 => .buttonS2
  | 2 => .buttonS3
  | 3 => .buttonS4

/-- What a poll reads of a key. -/
def reading (r : KeyReadings) : Fin 4 → KeySample
  | 0 => r.s1
  | 1 => r.s2
  | 2 => r.s3
  | 3 => r.s4

def button (m : ButtonsManager) : Fin 4 → Key
  | 0 => m.btnS1
  | 1 => m.btnS2
  | 2 => m.btnS3
  | 3 => m.btnS4

variable (m : ButtonsManager) (r : KeyReadings)

/-- The key `k` in a poll. -/
def handled (k : Fin 4) : Key × UInt32 × List Event :=
  handle (m.button k) (keyType k) (m.lastRelease.get k) (reading r k)

theorem keyType_injective : Function.Injective keyType := by
  intro k l h
  fin_cases k <;> fin_cases l <;> first | rfl | cases h

theorem poll_button (k : Fin 4) : (m.poll r).1.button k = (handled m r k).1 := by
  fin_cases k <;> rfl

theorem poll_lastRelease (k : Fin 4) : (m.poll r).1.lastRelease.get k = (handled m r k).2.1 := by
  fin_cases k <;> rfl

theorem poll_events : (m.poll r).2 =
    (List.ofFn fun k => (handled m r k).2.2).flatten ++ (checkCombination m.comboStart r.combo).2 := by
  simp [List.ofFn_succ, poll, handled, button, keyType, reading]

/-- An event of a key in a poll, told by its code from a combination, comes from sampling that key. -/
theorem mem_poll_iff {k : Fin 4} {code : Int} (hcode : code ≤ 3) :
    ⟨keyType k, code⟩ ∈ (m.poll r).2 ↔ ⟨keyType k, code⟩ ∈ (handled m r k).2.2 := by
  rw [poll_events, List.mem_append, List.mem_flatten]
  constructor
  · rintro (⟨es, hes, hmem⟩ | hcombo)
    · obtain ⟨l, rfl⟩ := List.mem_ofFn.mp hes
      obtain rfl : k = l := keyType_injective (handle_type _ _ _ _ _ hmem)
      exact hmem
    · have := checkCombination_code _ _ _ hcombo
      simp only at this
      omega
  · intro hmem
    exact .inl ⟨_, List.mem_ofFn.mpr ⟨k, rfl⟩, hmem⟩

/-! ## Runs -/

/-- A pressed key has no previous release noted. -/
def Cleared (m : ButtonsManager) : Prop :=
  ∀ k, (m.button k).stableState = true → m.lastRelease.get k = 0

theorem poll_cleared (h : Cleared m) : Cleared (m.poll r).1 := by
  intro k
  rw [poll_button, poll_lastRelease]
  exact handle_cleared _ _ _ _ (h k)

/-- The keys after a run of polls. -/
def polled (rs : List KeyReadings) : ButtonsManager := (Trace.run poll new rs).1

theorem polled_cleared (rs : List KeyReadings) : Cleared (polled rs) := by
  apply Trace.run_state_invariant Cleared poll_cleared
  intro k hdown
  fin_cases k <;> cases hdown

/-- The key is released by a poll after the run `rs`. -/
def Released (rs : List KeyReadings) (r : KeyReadings) (k : Fin 4) : Prop :=
  ⟨keyType k, 2⟩ ∈ ((polled rs).poll r).2

instance (rs : List KeyReadings) (r : KeyReadings) (k : Fin 4) : Decidable (Released rs r k) :=
  inferInstanceAs (Decidable (_ ∈ _))

/-- Before the poll the key is pressed, and the poll reads it up for long enough. -/
def ReleaseDue (m : ButtonsManager) (r : KeyReadings) (k : Fin 4) : Prop :=
  (m.button k).stableState = true ∧ (reading r k).level = true ∧
    (m.button k).due (reading r k).tick (reading r k).level = true

theorem released_iff (rs : List KeyReadings) (r : KeyReadings) (k : Fin 4) :
    Released rs r k ↔ ReleaseDue (polled rs) r k := by
  unfold Released ReleaseDue
  rw [mem_poll_iff _ _ (by omega), handled, handle_released_iff, tick_released_iff]

/-- A double click of the key is reported right after its release. -/
def Doubled (rs : List KeyReadings) (r : KeyReadings) (k : Fin 4) : Prop :=
  [⟨keyType k, 2⟩, ⟨keyType k, 3⟩] <:+: ((polled rs).poll r).2

/-- **What the code takes for a double click**: a release in the first 250 ms of the tick counter. -/
theorem doubled_iff (rs : List KeyReadings) (r : KeyReadings) (k : Fin 4) :
    Doubled rs r k ↔ Released rs r k ∧ (reading r k).now ≤ buttonsDoubleClickGapMs := by
  unfold Doubled Released
  rw [mem_poll_iff _ _ (by omega), handled, handle_released_iff]
  constructor
  · intro hinfix
    have hmem : ⟨keyType k, 3⟩ ∈ ((polled rs).poll r).2 := hinfix.subset (by simp)
    rw [mem_poll_iff _ _ (by omega), handled, handle_doubled_iff] at hmem
    obtain ⟨hreleased, hgap⟩ := hmem
    rw [polled_cleared rs k ((tick_released_iff _ _).mp hreleased).1, UInt32.sub_zero] at hgap
    exact ⟨hreleased, hgap⟩
  · rintro ⟨hreleased, hearly⟩
    rw [← UInt32.sub_zero (reading r k).now,
      ← polled_cleared rs k ((tick_released_iff _ _).mp hreleased).1] at hearly
    rw [poll_events, ← handle_doubled _ _ _ _ hreleased hearly]
    apply List.IsInfix.trans _ (List.prefix_append _ _).isInfix
    exact List.infix_of_mem_flatten (List.mem_ofFn.mpr ⟨k, rfl⟩)

/-! ## The releases before -/

/-- The ticks at which the key was released in a run. -/
def releases (k : Fin 4) : ButtonsManager → List KeyReadings → List UInt32
  | _, []      => []
  | m, r :: rs =>
      (if ⟨keyType k, 2⟩ ∈ (m.poll r).2 then [(reading r k).now] else []) ++ releases k (m.poll r).1 rs

/-- The run has a release of the key, and its last one is at most the gap of a double click old. -/
def Recent (rs : List KeyReadings) (r : KeyReadings) (k : Fin 4) : Prop :=
  ∃ t ∈ (releases k new rs).getLast?, (reading r k).now - t ≤ buttonsDoubleClickGapMs

/-- **Double clicks**: in every run of polls and for every key, the double click is reported right after a
    release whose predecessor is at most 250 ms old, and after no other, if and only if at a release the
    tick counter is at 250 or below exactly when the predecessor is so young. -/
theorem doubleClick_iff (rs : List KeyReadings) (r : KeyReadings) (k : Fin 4) :
    (Doubled rs r k ↔ Released rs r k ∧ Recent rs r k) ↔
      (ReleaseDue (polled rs) r k → ((reading r k).now ≤ buttonsDoubleClickGapMs ↔ Recent rs r k)) := by
  rw [doubled_iff, released_iff]
  exact and_congr_right_iff

/-- A reading of S1, with the other keys up. -/
def onlyS1 (now : UInt32) (level : Bool) : KeyReadings :=
  let up : KeySample := ⟨now, now, true⟩
  ⟨⟨now, now, level⟩, up, up, up, ⟨now, level, true⟩⟩

/-- Two presses with 110 ms between their releases are no double click, and the first release after the
    start is one. -/
theorem doubleClick_wrong :
    let first := [onlyS1 1000 false, onlyS1 1030 false, onlyS1 1060 true, onlyS1 1090 true]
    let second := first ++ [onlyS1 1100 false, onlyS1 1130 false, onlyS1 1140 true]
    let start := [onlyS1 0 false, onlyS1 30 false, onlyS1 40 true]
    ¬ (Doubled second (onlyS1 1200 true) 0 ↔
        Released second (onlyS1 1200 true) 0 ∧ Recent second (onlyS1 1200 true) 0) ∧
      ¬ (Doubled start (onlyS1 80 true) 0 ↔
        Released start (onlyS1 80 true) 0 ∧ Recent start (onlyS1 80 true) 0) := by
  unfold Doubled Released Recent
  decide +kernel

end ButtonsManager
end Thermostat
