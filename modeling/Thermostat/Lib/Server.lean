import Thermostat.Lib.Trace

/-!
# `Lib.Server` — a server that works off a queue, one job at a time

The specification of any component that accepts jobs, works on one at a time and completes them in the
order of their acceptance: `Server.submit` starts a job at once when the server is free and queues it
otherwise, `Server.complete` ends the job in progress and starts the next.

**`ledger`.** Over every sequence of operations, the jobs submitted are the jobs completed, then the one in
progress, then the ones waiting: exactly once, in order, with nothing lost.
-/

/-- The job in progress, if any, and the jobs waiting, oldest first. -/
structure Server (α : Type*) where
  busy : Option α
  waiting : List α

namespace Server

variable {α : Type*}

inductive Op (α : Type*) where
  | submit (x : α)
  | complete

/-- A free server takes the oldest waiting job. -/
def startNext (s : Server α) : Server α :=
  match s.waiting with
  | [] => ⟨none, []⟩
  | x :: xs => ⟨some x, xs⟩

/-- One operation; the effects are the jobs completed. -/
def step (s : Server α) : Op α → Server α × List α
  | .submit x =>
      match s.busy with
      | none => (startNext ⟨none, s.waiting ++ [x]⟩, [])
      | some _ => (⟨s.busy, s.waiting ++ [x]⟩, [])
  | .complete => (s.startNext, s.busy.toList)

/-- The jobs that the operations submit. -/
def submitted (ops : List (Op α)) : List α :=
  ops.filterMap (fun op => match op with | .submit x => some x | .complete => none)

/-- Everything the server still has to complete, in the order it will. -/
def pending (s : Server α) : List α := s.busy.toList ++ s.waiting

@[simp] theorem submitted_nil : submitted ([] : List (Op α)) = [] := rfl

@[simp] theorem submitted_append (xs ys : List (Op α)) :
    submitted (xs ++ ys) = submitted xs ++ submitted ys := List.filterMap_append

@[simp] theorem submitted_complete (ops : List (Op α)) :
    submitted (.complete :: ops) = submitted ops := rfl

@[simp] theorem startNext_pending (s : Server α) : s.startNext.pending = s.waiting := by
  unfold startNext
  cases s.waiting <;> rfl

/-- One operation moves jobs from pending to completed, and adds what it submits at the end. -/
theorem step_ledger (s : Server α) (op : Op α) :
    s.pending ++ submitted [op] = (s.step op).2 ++ (s.step op).1.pending := by
  cases op with
  | submit x =>
      cases hbusy : s.busy with
      | none =>
          have hnext := startNext_pending ⟨none, s.waiting ++ [x]⟩
          simp only [step, hbusy, List.nil_append]
          rw [hnext, pending, hbusy]
          rfl
      | some y =>
          simp only [step, hbusy, List.nil_append, pending, List.append_assoc]
          rfl
  | complete =>
      have hnext := startNext_pending s
      simp only [step, submitted_complete, submitted_nil, List.append_nil]
      rw [hnext]
      rfl

/-- **The ledger.** -/
theorem ledger (s : Server α) (ops : List (Op α)) :
    s.pending ++ submitted ops = (Trace.run step s ops).2 ++ (Trace.run step s ops).1.pending := by
  induction ops generalizing s with
  | nil => simp
  | cons op ops ih =>
      have hstep := step_ledger s op
      calc s.pending ++ submitted (op :: ops)
          = (s.pending ++ submitted [op]) ++ submitted ops := by
            rw [List.append_assoc, ← submitted_append, List.singleton_append]
        _ = (s.step op).2 ++ ((s.step op).1.pending ++ submitted ops) := by
            rw [hstep, List.append_assoc]
        _ = _ := by rw [ih, Trace.run_cons, List.append_assoc]

end Server
