import Thermostat.Services.Correctness.DoubleClick

/-!
# `Services.Correctness.Combination` — S1 and S2 pressed together

A combination is a maximal run of polls that read both S1 and S2 pressed. Its ending is meant to have
produced one event: long (code 10) if a poll came more than 400 ms after the first one, short (code 9)
otherwise. `comboStart` is the only memory of `checkCombination`; tick `0` stands for no combination, and
the start is cleared when the long event goes out, while the keys are still down.

**`eventOfEach_iff`** says which runs have one event per combination: those whose combinations are all
`Counted`. It rests on `run_zero` and `run_from`, which say what the polls of a combination do to the start.
-/

namespace Thermostat
namespace ButtonsManager

open Config

/-! ## What `checkCombination` does -/

/-- S1 and S2 both read pressed. -/
def Both (r : ComboSample) : Prop := r.levelS1 = false ∧ r.levelS2 = false

instance (r : ComboSample) : Decidable (Both r) := inferInstanceAs (Decidable (_ ∧ _))

def short : Event := ⟨.buttonS1, 9⟩
def long : Event := ⟨.buttonS1, 10⟩

theorem check_zero {r : ComboSample} (h : Both r) : checkCombination 0 r = (r.now, []) := by
  unfold checkCombination
  obtain ⟨h1, h2⟩ := h
  simp [h1, h2, buttonsComboLongThresholdMs]

theorem check_from {r : ComboSample} (h : Both r) {start : UInt32} (hstart : start ≠ 0) :
    checkCombination start r =
      if r.now - start ≤ buttonsComboLongThresholdMs then (start, []) else (0, [long]) := by
  unfold checkCombination
  obtain ⟨h1, h2⟩ := h
  simp only [h1, h2, hstart, if_false]
  by_cases hlate : r.now - start ≤ buttonsComboLongThresholdMs
  · simp [hlate, UInt32.not_lt.mpr hlate]
  · simp [hlate, UInt32.not_le.mp hlate, long]

theorem check_end {r : ComboSample} (h : ¬ Both r) (start : UInt32) :
    checkCombination start r =
      (0, if start ≠ 0 ∧ r.now - start < buttonsComboLongThresholdMs then [short] else []) := by
  unfold checkCombination
  have hup : ¬ ((!r.levelS1) = true ∧ (!r.levelS2) = true) := by simpa [Both] using h
  simp only [if_neg hup]
  rfl

/-! ## The polls of a combination -/

/-- The polls from the first one on whose tick is not 0: the code counts from there. -/
def counted (ts : List ComboSample) : List ComboSample := ts.dropWhile fun t => t.now = 0

/-- The polls from the first one on that comes more than 400 ms after the tick `u`. -/
def late (u : UInt32) (ts : List ComboSample) : List ComboSample :=
  ts.dropWhile fun t => t.now - u ≤ buttonsComboLongThresholdMs

/-- The polls at tick 0 leave no trace. -/
theorem run_zero {ts : List ComboSample} (h : ∀ t ∈ ts, Both t) :
    Trace.run checkCombination 0 ts =
      match counted ts with
      | []        => (0, [])
      | u :: rest => Trace.run checkCombination u.now rest := by
  induction ts with
  | nil => rfl
  | cons t ts ih =>
      unfold counted
      rw [Trace.run_cons, check_zero (h t List.mem_cons_self)]
      by_cases hzero : t.now = 0
      · have hrest := ih (fun t' ht' => h t' (List.mem_cons_of_mem t ht'))
        rw [List.dropWhile_cons_of_pos (by simp [hzero]), hzero, List.nil_append]
        exact hrest
      · rw [List.dropWhile_cons_of_neg (by simp [hzero]), List.nil_append]

/-- The first late poll makes the long event, and the polls after it are a combination of their own. -/
theorem run_from {u : UInt32} (hu : u ≠ 0) {ts : List ComboSample} (h : ∀ t ∈ ts, Both t) :
    Trace.run checkCombination u ts =
      match late u ts with
      | []         => (u, [])
      | _ :: after =>
          ((Trace.run checkCombination 0 after).1, long :: (Trace.run checkCombination 0 after).2) := by
  induction ts with
  | nil => rfl
  | cons t ts ih =>
      unfold late
      rw [Trace.run_cons, check_from (h t List.mem_cons_self) hu]
      by_cases hin : t.now - u ≤ buttonsComboLongThresholdMs
      · have hrest := ih (fun t' ht' => h t' (List.mem_cons_of_mem t ht'))
        rw [List.dropWhile_cons_of_pos (by simp [hin]), if_pos hin, List.nil_append]
        exact hrest
      · rw [List.dropWhile_cons_of_neg (by simp [hin]), if_neg hin]
        rfl

/-- The events of a combination of the polls `ts` that the poll `e` ends. -/
def outcome (ts : List ComboSample) (e : ComboSample) : List Event :=
  (Trace.run checkCombination 0 (ts ++ [e])).2

theorem counted_ne_zero {ts rest : List ComboSample} {u : ComboSample} (h : counted ts = u :: rest) :
    u.now ≠ 0 := by
  have hhead := List.head?_dropWhile_not (fun t : ComboSample => decide (t.now = 0)) ts
  rw [show ts.dropWhile _ = u :: rest from h] at hhead
  simpa using hhead

theorem mem_counted {ts rest : List ComboSample} {u : ComboSample} (h : ∀ t ∈ ts, Both t)
    (hcounted : counted ts = u :: rest) : ∀ t ∈ rest, Both t := by
  intro t ht
  have hmem : t ∈ counted ts := hcounted ▸ List.mem_cons_of_mem u ht
  exact h t ((List.dropWhile_sublist _).subset hmem)

theorem mem_late {ts after : List ComboSample} {u : UInt32} {l : ComboSample} (h : ∀ t ∈ ts, Both t)
    (hlate : late u ts = l :: after) : ∀ t ∈ after, Both t := by
  intro t ht
  have hmem : t ∈ late u ts := hlate ▸ List.mem_cons_of_mem l ht
  exact h t ((List.dropWhile_sublist _).subset hmem)

section Outcome

variable {ts : List ComboSample} (h : ∀ t ∈ ts, Both t) {e : ComboSample}

include h

theorem outcome_long {rest after : List ComboSample} {u l : ComboSample}
    (hcounted : counted ts = u :: rest) (hlate : late u.now rest = l :: after) :
    outcome ts e = long :: outcome after e := by
  have hu := counted_ne_zero hcounted
  unfold outcome
  rw [Trace.run_snoc, Trace.run_snoc, run_zero h, hcounted]
  simp only [run_from hu (mem_counted h hcounted), hlate, List.cons_append]

variable (he : ¬ Both e)

include he

theorem outcome_none (hcounted : counted ts = []) : outcome ts e = [] := by
  unfold outcome
  rw [Trace.run_snoc, run_zero h, hcounted, check_end he]
  rfl

theorem outcome_short {rest : List ComboSample} {u : ComboSample} (hcounted : counted ts = u :: rest)
    (hin : late u.now rest = []) :
    outcome ts e = if e.now - u.now < buttonsComboLongThresholdMs then [short] else [] := by
  have hu := counted_ne_zero hcounted
  unfold outcome
  rw [Trace.run_snoc, run_zero h, hcounted]
  simp only [run_from hu (mem_counted h hcounted), hin, check_end he, List.nil_append]
  simp [hu]

end Outcome

/-! ## The condition -/

/-- A poll comes more than 400 ms after the first one. -/
def Lasts (ts : List ComboSample) : Prop :=
  ∃ first ∈ ts.head?, ∃ t ∈ ts, t.now - first.now > buttonsComboLongThresholdMs

instance (ts : List ComboSample) : Decidable (Lasts ts) := inferInstanceAs (Decidable (∃ _ ∈ _, _))

/-- The polls after a long event make no further one: counted from the first tick that is not 0, none is
    late and the end is. -/
def Silent (ts : List ComboSample) (e : ComboSample) : Prop :=
  ∀ u rest, counted ts = u :: rest →
    late u.now rest = [] ∧ buttonsComboLongThresholdMs ≤ e.now - u.now

/-- Counted from the first tick that is not 0, a short combination ends before the 400 ms are over; a long
    one has a late poll, and is silent from there on. -/
def Counted (ts : List ComboSample) (e : ComboSample) : Prop :=
  ∃ u rest, counted ts = u :: rest ∧
    (¬ Lasts ts → late u.now rest = [] ∧ e.now - u.now < buttonsComboLongThresholdMs) ∧
    (Lasts ts → ∃ l after, late u.now rest = l :: after ∧ Silent after e)

theorem silent_iff {ts rest : List ComboSample} {u e : ComboSample} (hcounted : counted ts = u :: rest) :
    Silent ts e ↔ late u.now rest = [] ∧ buttonsComboLongThresholdMs ≤ e.now - u.now := by
  unfold Silent
  constructor
  · intro h
    exact h u rest hcounted
  · intro h v rest' hsplit
    obtain ⟨rfl, rfl⟩ := List.cons.inj (hcounted.symm.trans hsplit)
    exact h

theorem counted_iff {ts rest : List ComboSample} {u e : ComboSample} (hcounted : counted ts = u :: rest) :
    Counted ts e ↔
      (¬ Lasts ts → late u.now rest = [] ∧ e.now - u.now < buttonsComboLongThresholdMs) ∧
      (Lasts ts → ∃ l after, late u.now rest = l :: after ∧ Silent after e) := by
  unfold Counted
  constructor
  · rintro ⟨v, rest', hsplit, h⟩
    obtain ⟨rfl, rfl⟩ := List.cons.inj (hcounted.symm.trans hsplit)
    exact h
  · intro h
    exact ⟨u, rest, hcounted, h⟩

theorem outcome_silent_iff {ts : List ComboSample} (h : ∀ t ∈ ts, Both t) {e : ComboSample}
    (he : ¬ Both e) : outcome ts e = [] ↔ Silent ts e := by
  cases hcounted : counted ts with
  | nil => simp [outcome_none h he hcounted, Silent, hcounted]
  | cons u rest =>
      rw [silent_iff hcounted]
      cases hlate : late u.now rest with
      | nil =>
          rw [outcome_short h he hcounted hlate]
          simp
      | cons l after =>
          rw [outcome_long h hcounted hlate]
          simp

/-- A combination makes one event, long or short as it lasts, iff it is `Counted`. -/
theorem outcome_iff {ts : List ComboSample} (h : ∀ t ∈ ts, Both t) {e : ComboSample} (he : ¬ Both e) :
    outcome ts e = [if Lasts ts then long else short] ↔ Counted ts e := by
  cases hcounted : counted ts with
  | nil => simp [outcome_none h he hcounted, Counted, hcounted]
  | cons u rest =>
      rw [counted_iff hcounted]
      cases hlate : late u.now rest with
      | nil =>
          -- no long event: the end decides about the short one
          rw [outcome_short h he hcounted hlate]
          by_cases hlasts : Lasts ts <;>
            by_cases hin : e.now - u.now < buttonsComboLongThresholdMs <;> simp [hlasts, hin, short, long]
      | cons l after =>
          have hafter := mem_late (mem_counted h hcounted) hlate
          rw [outcome_long h hcounted hlate]
          by_cases hlasts : Lasts ts
          · simp [hlasts, outcome_silent_iff hafter he]
          · simp [hlasts, short, long]

/-! ## Runs of polls -/

/-- The events of combinations, told by their codes from those of a single key. -/
def isCombo (e : Event) : Bool := e.value = 9 ∨ e.value = 10

theorem handle_code (b : Key) (type : EventType) (lastR : UInt32) (r : KeySample) :
    (handle b type lastR r).2.2.filter isCombo = [] := by
  unfold handle
  simp only
  split
  · rfl
  · rfl
  · split_ifs <;> rfl
  · rfl

theorem checkCombination_filter (comboStart : UInt32) (r : ComboSample) :
    (checkCombination comboStart r).2.filter isCombo = (checkCombination comboStart r).2 := by
  rw [List.filter_eq_self]
  intro e he
  simpa [isCombo] using checkCombination_code comboStart r e he

/-- Of the state, the combinations depend on `comboStart` only. -/
theorem poll_combo (m : ButtonsManager) (r : KeyReadings) :
    (m.poll r).1.comboStart = (checkCombination m.comboStart r.combo).1 ∧
      (m.poll r).2.filter isCombo = (checkCombination m.comboStart r.combo).2 := by
  refine ⟨rfl, ?_⟩
  unfold poll
  simp only [List.filter_append, handle_code, checkCombination_filter, List.nil_append]

theorem run_combo (m : ButtonsManager) (rs : List KeyReadings) :
    (Trace.run poll m rs).2.filter isCombo =
      (Trace.run checkCombination m.comboStart (rs.map (·.combo))).2 := by
  induction rs generalizing m with
  | nil => rfl
  | cons r rs ih =>
      obtain ⟨hstart, hevents⟩ := poll_combo m r
      rw [Trace.run_cons, List.filter_append, hevents, ih, hstart]
      rfl

/-- The combination events of the polls `seg`, after the run `pre`. -/
def produced (pre seg : List KeyReadings) : List Event :=
  (Trace.run poll (polled pre) seg).2.filter isCombo

/-- The run does not end with S1 and S2 pressed. -/
def Apart (pre : List KeyReadings) : Prop := ∀ r ∈ pre.getLast?, ¬ Both r.combo

/-- The polls `ts` after the run `pre` are a combination, and the poll `e` ends it. -/
structure Combination (pre ts : List KeyReadings) (e : KeyReadings) : Prop where
  apart : Apart pre
  nonempty : ts ≠ []
  both : ∀ t ∈ ts, Both t.combo
  ended : ¬ Both e.combo

/-- Outside a combination no start is noted. -/
theorem apart_comboStart {pre : List KeyReadings} (h : Apart pre) : (polled pre).comboStart = 0 := by
  unfold polled
  induction pre using List.reverseRecOn with
  | nil => rfl
  | append_singleton pre r =>
      have hr : ¬ Both r.combo := h r (by simp)
      rw [Trace.run_snoc, (poll_combo _ r).1, check_end hr]

theorem produced_eq {pre : List KeyReadings} (h : Apart pre) (ts : List KeyReadings) (e : KeyReadings) :
    produced pre (ts ++ [e]) = outcome (ts.map (·.combo)) e.combo := by
  unfold produced outcome
  rw [run_combo, apart_comboStart h, List.map_append]
  rfl

/-- Every combination of the run that has ended has produced one event, which says whether it was long, and
    the other polls have produced none. -/
structure EventOfEach (rs : List KeyReadings) : Prop where
  combination : ∀ pre ts e post, rs = pre ++ ts ++ e :: post → Combination pre ts e →
    produced pre (ts ++ [e]) = [if Lasts (ts.map (·.combo)) then long else short]
  idle : ∀ pre e post, rs = pre ++ e :: post → Apart pre → ¬ Both e.combo → produced pre [e] = []

theorem produced_idle {pre : List KeyReadings} (h : Apart pre) {e : KeyReadings} (he : ¬ Both e.combo) :
    produced pre [e] = [] := by
  rw [← List.nil_append [e], produced_eq h, List.map_nil]
  exact outcome_none (fun t ht => absurd ht List.not_mem_nil) he rfl

/-- **One event per combination**: in every run of polls, each combination that has ended has produced one
    event, long or short as it lasted, and the polls outside of them none, iff each is `Counted`. -/
theorem eventOfEach_iff (rs : List KeyReadings) :
    EventOfEach rs ↔ ∀ pre ts e post, rs = pre ++ ts ++ e :: post → Combination pre ts e →
      Counted (ts.map (·.combo)) e.combo := by
  have hiff : ∀ {pre ts e}, Combination pre ts e →
      (produced pre (ts ++ [e]) = [if Lasts (ts.map (·.combo)) then long else short] ↔
        Counted (ts.map (·.combo)) e.combo) := by
    intro pre ts e h
    rw [produced_eq h.apart]
    apply outcome_iff _ h.ended
    intro t ht
    obtain ⟨r, hr, rfl⟩ := List.mem_map.mp ht
    exact h.both r hr
  constructor
  · intro heach pre ts e post hsplit hcombination
    exact (hiff hcombination).mp (heach.combination pre ts e post hsplit hcombination)
  · intro hcounted
    refine ⟨?_, ?_⟩
    · intro pre ts e post hsplit hcombination
      exact (hiff hcombination).mpr (hcounted pre ts e post hsplit hcombination)
    · intro pre e post _ hapart he
      exact produced_idle hapart he

/-- A poll whose only pressed keys can be S1 and S2, together. -/
def together (now : UInt32) (down : Bool) : KeyReadings :=
  let up : KeySample := ⟨now, now, true⟩
  ⟨⟨now, now, !down⟩, ⟨now, now, !down⟩, up, up, ⟨now, !down, !down⟩⟩

/-- A combination of exactly 400 ms makes no event, and one that is polled on after its long event makes a
    short one when it ends. -/
theorem eventOfEach_wrong :
    ¬ EventOfEach [together 1000 true, together 1400 true, together 1400 false] ∧
      ¬ EventOfEach [together 1000 true, together 1401 true, together 1402 true, together 1500 false] := by
  constructor
  · intro h
    have hevent := h.combination [] [together 1000 true, together 1400 true] (together 1400 false) [] rfl
      ⟨by simp [Apart], by simp, by decide, by decide⟩
    revert hevent
    decide +kernel
  · intro h
    have hevent := h.combination [] [together 1000 true, together 1401 true, together 1402 true]
      (together 1500 false) [] rfl ⟨by simp [Apart], by simp, by decide, by decide⟩
    revert hevent
    decide +kernel

end ButtonsManager
end Thermostat
