import Mathlib.Data.List.Basic
import Mathlib.Data.List.Infix

/-!
# `Lib.Trace` — finite runs of a machine that emits effects

A machine is a step function `σ → ι → σ × List ω`: a state, an input, and the effects the step makes
visible. `run` threads a list of inputs through it and concatenates the effects.

## Contents
- **Runs.** `run`, its composition law `run_append`, and the one-step extension `run_snoc`; `mem_run` finds
  the step an effect comes from; `seq` runs a list of steps once.
- **Conditions along a run.** `Along C` says that every step of the run meets `C` in the state it is
  taken in.
- **Invariants.** `run_invariant` (a relation between the state and everything emitted so far) and its
  conditional form `run_invariant_along`; `run_state_invariant` is the form without effects.
- **Draining.** `run_moves` and `run_drains`: effects that are taken from a stock.
- **Progress.** `run_progress`: a goal that is reached because every block of inputs lowers a measure.
- **Exchange of conditions.** `along_congr`: two step conditions that agree wherever an invariant holds
  select the same runs.
- **Runs of runs.** `run_flatMap`: a machine whose steps are runs of another one.
- **Two runs.** `run_bisim`: related states emit the same effects under the same inputs.
- **Refinement.** `run_refines`: a machine whose steps are steps of another one has runs of that one;
  `run_simulates`: a step may also be several steps of the other one, or none.
-/

namespace Trace

variable {σ ι ω : Type*}

/-- Feed a list of inputs to the machine; effects come out in the order they were made. -/
def run (step : σ → ι → σ × List ω) : σ → List ι → σ × List ω
  | s, []      => (s, [])
  | s, i :: is =>
      let rest := run step (step s i).1 is
      (rest.1, (step s i).2 ++ rest.2)

/-- Every step of the run meets `C` in the state it is taken in. -/
def Along (step : σ → ι → σ × List ω) (C : σ → ι → Prop) : σ → List ι → Prop
  | _, []      => True
  | s, i :: is => C s i ∧ Along step C (step s i).1 is

/-- A program made of steps: the run that executes one after the other. -/
def seq (fs : List (σ → σ × List ω)) (s : σ) : σ × List ω := run (fun s f => f s) s fs

variable {step : σ → ι → σ × List ω}

/-! ## Composition of runs -/

@[simp] theorem run_nil (s : σ) : run step s [] = (s, []) := rfl

@[simp] theorem run_cons (s : σ) (i : ι) (is : List ι) :
    run step s (i :: is)
      = ((run step (step s i).1 is).1, (step s i).2 ++ (run step (step s i).1 is).2) := rfl

theorem run_append (s : σ) (xs ys : List ι) :
    run step s (xs ++ ys)
      = ((run step (run step s xs).1 ys).1,
         (run step s xs).2 ++ (run step (run step s xs).1 ys).2) := by
  induction xs generalizing s with
  | nil => simp
  | cons i xs ih => simp only [List.cons_append, run_cons, ih, List.append_assoc]

/-- A run extended by one step. -/
theorem run_snoc (s : σ) (is : List ι) (i : ι) :
    run step s (is ++ [i])
      = ((step (run step s is).1 i).1, (run step s is).2 ++ (step (run step s is).1 i).2) := by
  rw [run_append]
  simp

/-- Every effect is one of some step. -/
theorem mem_run {s : σ} {is : List ι} {o : ω} (h : o ∈ (run step s is).2) :
    ∃ pre i post, is = pre ++ i :: post ∧ o ∈ (step (run step s pre).1 i).2 := by
  induction is generalizing s with
  | nil => cases h
  | cons i is ih =>
      rcases List.mem_append.mp h with hfirst | hlater
      · exact ⟨[], i, is, rfl, hfirst⟩
      · obtain ⟨pre, j, post, rfl, hmem⟩ := ih hlater
        exact ⟨i :: pre, j, post, rfl, hmem⟩

@[simp] theorem seq_nil (s : σ) : seq ([] : List (σ → σ × List ω)) s = (s, []) := rfl

theorem seq_cons (f : σ → σ × List ω) (fs : List (σ → σ × List ω)) (s : σ) :
    seq (f :: fs) s = ((seq fs (f s).1).1, (f s).2 ++ (seq fs (f s).1).2) := rfl

/-- A property of what programs do that holds of the empty one and is kept by composition holds of a
    program whose steps all have it. -/
theorem seq_induction {P : (σ → σ × List ω) → Prop} (hnil : P (fun s => (s, [])))
    (hcons : ∀ f g, P f → P g → P (fun s => ((g (f s).1).1, (f s).2 ++ (g (f s).1).2)))
    {fs : List (σ → σ × List ω)} (h : ∀ f ∈ fs, P f) : P (seq fs) := by
  induction fs with
  | nil => exact hnil
  | cons f fs ih =>
      have hrest : P (seq fs) := ih (fun g hg => h g (List.mem_cons_of_mem f hg))
      exact hcons f (seq fs) (h f List.mem_cons_self) hrest

theorem along_append {C : σ → ι → Prop} {s : σ} {xs ys : List ι} :
    Along step C s (xs ++ ys) ↔ Along step C s xs ∧ Along step C (run step s xs).1 ys := by
  induction xs generalizing s with
  | nil => simp [Along]
  | cons i xs ih => simp only [List.cons_append, Along, ih, run_cons, and_assoc]

/-- **`Along` is about every prefix.** The run meets `C` throughout iff each of its steps does, each
    step being given by the inputs before it. -/
theorem along_iff_prefix {C : σ → ι → Prop} {s : σ} {is : List ι} :
    Along step C s is ↔ ∀ pre i post, is = pre ++ i :: post → C (run step s pre).1 i := by
  constructor
  · rintro h pre i post rfl
    exact (along_append.mp h).2.1
  · intro h
    induction is generalizing s with
    | nil => exact trivial
    | cons i is ih =>
        refine ⟨h [] i is rfl, ih ?_⟩
        intro pre j post hsplit
        have hstep := h (i :: pre) j post (by rw [hsplit, List.cons_append])
        simpa using hstep

theorem along_and {C D : σ → ι → Prop} {s : σ} {is : List ι} :
    Along step (fun s i => C s i ∧ D s i) s is ↔ Along step C s is ∧ Along step D s is := by
  induction is generalizing s with
  | nil => simp [Along]
  | cons i is ih =>
      simp only [Along, ih]
      constructor
      · rintro ⟨⟨hC, hD⟩, hCs, hDs⟩
        exact ⟨⟨hC, hCs⟩, hD, hDs⟩
      · rintro ⟨⟨hC, hCs⟩, hD, hDs⟩
        exact ⟨⟨hC, hD⟩, hCs, hDs⟩

theorem Along.mono {C D : σ → ι → Prop} (hCD : ∀ s i, C s i → D s i) {s : σ} {is : List ι}
    (h : Along step C s is) : Along step D s is := by
  induction is generalizing s with
  | nil => exact trivial
  | cons i is ih => exact ⟨hCD s i h.1, ih h.2⟩

/-- A decidable condition can be checked along a given run. -/
instance decidableAlong {C : σ → ι → Prop} [∀ s i, Decidable (C s i)] :
    ∀ s is, Decidable (Along step C s is)
  | _, []      => isTrue trivial
  | s, i :: is =>
      have := decidableAlong (C := C) (step s i).1 is
      inferInstanceAs (Decidable (C s i ∧ Along step C (step s i).1 is))

/-! ## Invariants -/

/-- **Conditional invariant rule.** A relation between the state and the effects so far that every
    `C`-step preserves holds at the end of every run made of `C`-steps. -/
theorem run_invariant_along (C : σ → ι → Prop) (Inv : σ → List ω → Prop)
    (hstep : ∀ s os i, Inv s os → C s i → Inv (step s i).1 (os ++ (step s i).2))
    {s : σ} {os : List ω} {is : List ι} (h0 : Inv s os) (hC : Along step C s is) :
    Inv (run step s is).1 (os ++ (run step s is).2) := by
  induction is generalizing s os with
  | nil => simpa using h0
  | cons i is ih =>
      -- the effects so far grow by those of the step, and the run goes on from there
      have hnext := ih (hstep s os i h0 hC.1) hC.2
      simpa [List.append_assoc] using hnext

/-- **Invariant rule.** The unconditional form of `run_invariant_along`. -/
theorem run_invariant (Inv : σ → List ω → Prop)
    (hstep : ∀ s os i, Inv s os → Inv (step s i).1 (os ++ (step s i).2))
    {s : σ} {os : List ω} (h0 : Inv s os) (is : List ι) :
    Inv (run step s is).1 (os ++ (run step s is).2) := by
  induction is generalizing s os with
  | nil => simpa using h0
  | cons i is ih =>
      have hnext := ih (hstep s os i h0)
      simpa [List.append_assoc] using hnext

/-- A predicate on states that every step preserves holds after every run. -/
theorem run_state_invariant (I : σ → Prop) (hstep : ∀ s i, I s → I (step s i).1)
    {s : σ} (h0 : I s) (is : List ι) : I (run step s is).1 := by
  induction is generalizing s with
  | nil => exact h0
  | cons i is ih => exact ih (hstep s i h0)

/-! ## Draining

The effects come out of a stock that the state holds, from its front on. -/

theorem run_moves (stock : σ → List ω) (hstep : ∀ s i, (step s i).2 ++ stock (step s i).1 = stock s) (s : σ)
    (is : List ι) : (run step s is).2 ++ stock (run step s is).1 = stock s := by
  induction is generalizing s with
  | nil => rfl
  | cons i is ih => rw [run_cons, List.append_assoc, ih, hstep]

/-- If every step takes something as long as there is something, then enough steps take everything. -/
theorem run_drains (stock : σ → List ω) (hstep : ∀ s i, (step s i).2 ++ stock (step s i).1 = stock s)
    (hprogress : ∀ s i, stock s ≠ [] → (step s i).2 ≠ []) {s : σ} {is : List ι}
    (hlength : (stock s).length ≤ is.length) : (run step s is).2 = stock s := by
  induction is generalizing s with
  | nil => exact (List.length_eq_zero_iff.mp (Nat.le_zero.mp hlength)).symm
  | cons i is ih =>
      have hparts := congrArg List.length (hstep s i)
      rw [List.length_append] at hparts
      rw [List.length_cons] at hlength
      have hrest : (stock (step s i).1).length ≤ is.length := by
        by_cases hempty : stock s = []
        · rw [hempty, List.length_nil] at hparts
          omega
        · have htaken := List.length_pos_iff.mpr (hprogress s i hempty)
          omega
      rw [run_cons, ih hrest, hstep]

/-! ## Progress -/

/-- **Progress rule.** If every block of inputs of the right kind lowers a measure, until a goal is reached that
    is never left, then one block more than the measure says is enough to reach it. -/
theorem run_progress (I : σ → Prop) (Done : σ → Prop) (μ : σ → Nat) {C : σ → List ι → Prop}
    (hI : ∀ s i, I s → I (step s i).1) (hdone : ∀ s i, I s → Done s → Done (step s i).1)
    (hblock : ∀ s b, I s → C s b → ¬ Done (run step s b).1 → μ (run step s b).1 < μ s)
    {s : σ} {blocks : List (List ι)} (h0 : I s) (hC : Along (run step) C s blocks)
    (hmany : μ s < blocks.length) : Done (run step s blocks.flatten).1 := by
  induction blocks generalizing s with
  | nil => exact absurd hmany (Nat.not_lt_zero _)
  | cons b bs ih =>
      have hinv : I (run step s b).1 := run_state_invariant I hI h0 b
      rw [List.flatten_cons, run_append]
      by_cases hgoal : Done (run step s b).1
      · have hstep : ∀ s i, I s ∧ Done s → I (step s i).1 ∧ Done (step s i).1 :=
          fun s i h => ⟨hI s i h.1, hdone s i h.1 h.2⟩
        exact (run_state_invariant (fun s => I s ∧ Done s) hstep ⟨hinv, hgoal⟩ bs.flatten).2
      · have hlower := hblock s b h0 hC.1 hgoal
        rw [List.length_cons] at hmany
        exact ih hinv hC.2 (by omega)

/-! ## Exchange of conditions -/

/-- **Two step conditions that agree under an invariant select the same runs.** The invariant only
    has to survive the steps that meet the first condition: past the first step that fails it, both
    sides are false. -/
theorem along_congr (I : σ → Prop) {C D : σ → ι → Prop}
    (hstep : ∀ s i, I s → C s i → I (step s i).1) (hCD : ∀ s i, I s → (C s i ↔ D s i))
    {s : σ} {is : List ι} (h0 : I s) : Along step C s is ↔ Along step D s is := by
  induction is generalizing s with
  | nil => exact Iff.rfl
  | cons i is ih =>
      constructor
      · rintro ⟨hC, hrest⟩
        exact ⟨(hCD s i h0).mp hC, (ih (hstep s i h0 hC)).mp hrest⟩
      · rintro ⟨hD, hrest⟩
        have hC := (hCD s i h0).mpr hD
        exact ⟨hC, (ih (hstep s i h0 hC)).mpr hrest⟩

/-! ## Runs of runs -/

/-- If one step of a machine is a run of a second one, then a run of it is the run on all these inputs. -/
theorem run_flatMap {κ : Type*} {step' : σ → κ → σ × List ω} {f : κ → List ι}
    (hstep : ∀ s k, step' s k = run step s (f k)) (s : σ) (ks : List κ) :
    run step' s ks = run step s (ks.flatMap f) := by
  induction ks generalizing s with
  | nil => rfl
  | cons k ks ih => rw [run_cons, List.flatMap_cons, run_append, hstep, ih]

/-! ## Two runs of one machine -/

/-- **Bisimulation.** If related states stay related and emit the same effects under every input, then
    two runs on the same inputs from related states emit the same effects. -/
theorem run_bisim (R : σ → σ → Prop)
    (hstep : ∀ s t i, R s t → R (step s i).1 (step t i).1 ∧ (step s i).2 = (step t i).2)
    {s t : σ} (hR : R s t) (is : List ι) : (run step s is).2 = (run step t is).2 := by
  induction is generalizing s t with
  | nil => rfl
  | cons i is ih =>
      obtain ⟨hnext, hout⟩ := hstep s t i hR
      simp only [run_cons, hout, ih hnext]

/-! ## Refinement -/

/-- **Refinement, step by step.** If every step of a machine is a step of a second one, as far as a
    projection of the states and an observation of the effects can tell, then every run is one. -/
theorem run_refines {σ' ι' ω' : Type*} {step' : σ' → ι' → σ' × List ω'} (project : σ → σ')
    (observe : ω → Option ω') (input : σ → ι → ι')
    (hstep : ∀ s i, step' (project s) (input s i)
      = (project (step s i).1, (step s i).2.filterMap observe)) (s : σ) (is : List ι) :
    ∃ js : List ι', js.length = is.length ∧
      run step' (project s) js = (project (run step s is).1, (run step s is).2.filterMap observe) := by
  induction is generalizing s with
  | nil => exact ⟨[], rfl, rfl⟩
  | cons i is ih =>
      obtain ⟨js, hlength, hrun⟩ := ih (step s i).1
      refine ⟨input s i :: js, ?_, ?_⟩
      · rw [List.length_cons, List.length_cons, hlength]
      · rw [run_cons, hstep, run_cons, hrun, List.filterMap_append]

/-- **Simulation.** A relation that every `C`-step of a machine keeps, if the other machine makes the right steps
    for it and shows what can be observed of its effects, is kept by runs. -/
theorem run_simulates {σ' ι' ω' : Type*} {step' : σ' → ι' → σ' × List ω'} (R : σ → σ' → Prop) {C : σ → ι → Prop}
    (observe : ω → Option ω')
    (hstep : ∀ s t i, R s t → C s i → ∃ js,
      R (step s i).1 (run step' t js).1 ∧ (run step' t js).2 = (step s i).2.filterMap observe)
    {s : σ} {t : σ'} (hR : R s t) {is : List ι} (hC : Along step C s is) :
    ∃ js, R (run step s is).1 (run step' t js).1 ∧ (run step' t js).2 = (run step s is).2.filterMap observe := by
  induction is generalizing s t with
  | nil => exact ⟨[], hR, rfl⟩
  | cons i is ih =>
      obtain ⟨js, hnext, hout⟩ := hstep s t i hR hC.1
      obtain ⟨ks, hend, hrest⟩ := ih hnext hC.2
      refine ⟨js ++ ks, ?_, ?_⟩
      · rw [run_append]
        exact hend
      · rw [run_append, run_cons, List.filterMap_append, hout, hrest]

end Trace
