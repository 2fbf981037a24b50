import Thermostat.Drivers.TwiDriver
import Thermostat.Lib.Server

/-!
# `Drivers.Correctness.TwiCompletion` — requests complete exactly once and in order

The driver is a server of requests. `server` projects a driver to the abstract server of `Lib.Server`, and
`ops` reads off its effects which abstract operations a step performed. `step_simulates` is the simulation;
the ledger of the abstract server then gives the ledger of the driver.

The simulation needs one condition, `IdleQuiet`: the request stays in the context after it has finished, so
an interrupt taken in `Idle` must not find a flag that makes the driver work on it again. Without it a
request completes twice (`completionLaw_fails`).
-/

namespace Thermostat
namespace TwiDriver

/-! ## What a run has accepted and called back -/

/-- The requests accepted, oldest first. -/
def accepted (es : List Effect) : List Request :=
  es.filterMap (fun e => match e with | .submitted r true => some r | _ => none)

/-- The requests called back, oldest first. -/
def called (es : List Effect) : List Request :=
  es.filterMap (fun e => match e with | .callback r _ => some r | _ => none)

/-- The request in progress, as a list of at most one. -/
def inProgress (d : TwiDriver) : List Request := if d.ctx.state = .idle then [] else [d.ctx.req]

/-- The requests that `finish` was run for, oldest first. -/
def finishes (es : List Effect) : List Request :=
  es.filterMap (fun e => match e with | .finished r => some r | _ => none)

/-- The requests that a run has finished. In `Idle` there is none to finish: an error flag found there runs
    `finish` for the last one again. -/
def ended (d : TwiDriver) : List Input → List Request
  | []      => []
  | i :: is => (if d.ctx.state = .idle then [] else finishes (d.step i).2) ++ ended (d.step i).1 is

/-- The ledger of a driver after the effects `es`: the accepted requests are the finished ones, the one in
    progress and the queued ones; the callbacks are those of the finished ones, in order. -/
def Completes (d : TwiDriver) (es : List Effect) (finished : List Request) : Prop :=
  accepted es = finished ++ d.inProgress ++ d.queue.items ∧
  called es = finished.filter (·.callback.isSome)

/-- The law along a run: the ledger after every step, and no callback from an interrupt in `Idle`. -/
def CompletionLaw (d : TwiDriver) (is : List Input) : Prop :=
  ∀ pre i post, is = pre ++ i :: post →
    Completes (Trace.run step d (pre ++ [i])).1 (Trace.run step d (pre ++ [i])).2 (ended d (pre ++ [i])) ∧
    ((Trace.run step d pre).1.ctx.state = .idle → (∃ isr b ns, i = .irq isr b ns) →
      called (step (Trace.run step d pre).1 i).2 = [])

/-- An interrupt taken in `Idle` finds no error flag if the last request has a callback, and no data flag
    if there is no error flag. -/
def IdleQuiet (d : TwiDriver) : Input → Prop
  | .irq isr _ _ => d.ctx.state = .idle →
      if isr.nackf ∨ isr.berr then d.ctx.req.callback = none
      else isr.txis = false ∧ isr.rxne = false
  | _ => True

@[simp] theorem called_append (xs ys : List Effect) : called (xs ++ ys) = called xs ++ called ys :=
  List.filterMap_append

/-! ## The driver as a server -/

/-- The server that a driver is. -/
def server (d : TwiDriver) : Server Request where
  busy := if d.ctx.state = .idle then none else some d.ctx.req
  waiting := d.queue.items

/-- The operations of the server that the effects of a driver amount to. -/
def ops (es : List Effect) : List (Server.Op Request) :=
  es.filterMap (fun e => match e with
    | .submitted r true => some (.submit r)
    | .finished _ => some .complete
    | _ => none)

@[simp] theorem ops_append (xs ys : List Effect) : ops (xs ++ ys) = ops xs ++ ops ys :=
  List.filterMap_append

/-- The operations submit what the effects accept. -/
theorem submitted_ops (es : List Effect) : Server.submitted (ops es) = accepted es := by
  induction es with
  | nil => rfl
  | cons e es ih =>
      cases e with
      | submitted r ok =>
          cases ok with
          | true => exact congrArg (r :: ·) ih
          | false => exact ih
      | _ => exact ih

/-- `out` is what the server does from `d` on: the state it reaches, and the callbacks of the jobs it
    completes. -/
def Simulates (d : TwiDriver) (out : TwiDriver × List Effect) : Prop :=
  (Trace.run Server.step d.server (ops out.2)).1 = out.1.server ∧
  called out.2 = (Trace.run Server.step d.server (ops out.2)).2.filter (·.callback.isSome)

theorem Simulates.refl (d : TwiDriver) : Simulates d (d, []) := ⟨rfl, rfl⟩

theorem Simulates.trans {d d' : TwiDriver} {es : List Effect} {out : TwiDriver × List Effect}
    (h₁ : Simulates d (d', es)) (h₂ : Simulates d' out) : Simulates d (out.1, es ++ out.2) := by
  obtain ⟨hstate, hcalled⟩ := h₁
  refine ⟨?_, ?_⟩
  · show (Trace.run Server.step d.server (ops (es ++ out.2))).1 = _
    rw [ops_append, Trace.run_append, hstate]
    exact h₂.1
  · show called (es ++ out.2) = (Trace.run Server.step d.server (ops (es ++ out.2))).2.filter _
    rw [ops_append, Trace.run_append, hstate, called_append, List.filter_append, hcalled, h₂.2]

/-- A step that makes nothing visible to the server simulates it if it keeps the server. -/
theorem Simulates.of_quiet {d d' : TwiDriver} {es : List Effect} (hops : ops es = [])
    (hcalled : called es = []) (hserver : d'.server = d.server) : Simulates d (d', es) := by
  refine ⟨?_, ?_⟩
  · show (Trace.run Server.step d.server (ops es)).1 = d'.server
    rw [hops, hserver]
    rfl
  · show called es = (Trace.run Server.step d.server (ops es)).2.filter _
    rw [hops, hcalled]
    rfl

/-- Effects that finish nothing complete no job. -/
theorem completes_none {es : List Effect} (h : finishes es = []) (s : Server Request) :
    (Trace.run Server.step s (ops es)).2 = [] := by
  induction es generalizing s with
  | nil => rfl
  | cons e es ih =>
      cases e with
      | finished r => cases h
      | submitted r ok =>
          cases ok with
          | false => exact ih h s
          | true =>
              have hquiet : (s.step (.submit r)).2 = [] := by
                unfold Server.step
                cases s.busy <;> rfl
              show (s.step (.submit r)).2 ++ (Trace.run Server.step (s.step (.submit r)).1 (ops es)).2 = []
              rw [hquiet, ih h, List.nil_append]
      | _ => exact ih h s

/-- Such effects complete in the server what they finish, which is nothing. -/
theorem ends_none {es : List Effect} (h : finishes es = []) (s : Server Request) :
    (Trace.run Server.step s (ops es)).2 = finishes es := (completes_none h s).trans h.symm

@[simp] theorem finishes_append (xs ys : List Effect) : finishes (xs ++ ys) = finishes xs ++ finishes ys :=
  List.filterMap_append

theorem server_setState {d : TwiDriver} {st : State} (hst : st ≠ .idle) (hd : d.ctx.state ≠ .idle) :
    (d.setState st).server = d.server := by
  simp [server, setState, hst, hd]

/-! ## Submissions -/

/-- In `Idle` the driver starts exactly as the free server does. -/
theorem startNext_server {d : TwiDriver} (hidle : d.ctx.state = .idle) :
    d.startNext.1.server = d.server.startNext := by
  unfold startNext
  cases hq : d.queue.front with
  | none =>
      have hitems : d.queue.items = [] := Fifo.front_none.mp hq
      simp [server, hidle, Server.startNext, hitems]
  | some r =>
      have hitems : d.queue.items = r :: d.queue.pop.items := Fifo.front_pop hq
      simp only [server, hidle, Server.startNext, hitems]
      rfl

theorem startNext_ops (d : TwiDriver) : ops d.startNext.2 = [] ∧ called d.startNext.2 = [] := by
  unfold startNext
  cases d.queue.front <;> exact ⟨rfl, rfl⟩

@[simp] theorem startNext_finishes (d : TwiDriver) : finishes d.startNext.2 = [] := by
  unfold startNext
  cases d.queue.front <;> rfl

theorem submit_full {d : TwiDriver} (hfull : d.queue.full = true) (r : Request) :
    d.submit r = (d, [.submitted r false]) := by
  unfold submit
  rw [if_pos hfull]

theorem submit_idle {d : TwiDriver} (hfull : d.queue.full = false) (hidle : d.ctx.state = .idle)
    (r : Request) :
    d.submit r = ((startNext { d with queue := d.queue.push r }).1,
      .submitted r true :: (startNext { d with queue := d.queue.push r }).2) := by
  simp only [submit, hfull, Bool.false_eq_true, if_false, hidle, if_true]

theorem submit_busy {d : TwiDriver} (hfull : d.queue.full = false) (hbusy : d.ctx.state ≠ .idle)
    (r : Request) :
    d.submit r = ({ d with queue := d.queue.push r }, [.submitted r true]) := by
  simp only [submit, hfull, Bool.false_eq_true, if_false, hbusy]

theorem push_items {d : TwiDriver} (hfull : d.queue.full = false) (r : Request) :
    (d.queue.push r).items = d.queue.items ++ [r] :=
  Fifo.push_items (Fifo.not_full_iff.mp hfull) r

theorem submit_simulates (d : TwiDriver) (r : Request) : Simulates d (d.submit r) := by
  cases hfull : d.queue.full with
  | true =>
      rw [submit_full hfull]
      exact Simulates.of_quiet rfl rfl rfl
  | false =>
      have hpush := push_items hfull r
      by_cases hidle : d.ctx.state = .idle
      · have hserver := startNext_server (d := { d with queue := d.queue.push r }) hidle
        obtain ⟨hops, hcalled⟩ := startNext_ops { d with queue := d.queue.push r }
        have hfree : d.server.step (.submit r)
            = ((server { d with queue := d.queue.push r }).startNext, []) := by
          simp [Server.step, server, hidle, hpush]
        rw [submit_idle hfull hidle]
        refine ⟨?_, ?_⟩
        · show (Trace.run Server.step d.server (.submit r :: ops _)).1 = _
          rw [hops, hserver, Trace.run_cons, hfree]
          rfl
        · show called _ = List.filter _ (Trace.run Server.step d.server (.submit r :: ops _)).2
          rw [hops, Trace.run_cons, hfree]
          exact hcalled
      · have hwait : d.server.step (.submit r) = (server { d with queue := d.queue.push r }, []) := by
          simp [Server.step, server, hidle, hpush]
        rw [submit_busy hfull hidle]
        refine ⟨?_, ?_⟩
        · show (Trace.run Server.step d.server [.submit r]).1 = _
          rw [Trace.run_cons, hwait]
          rfl
        · show [] = List.filter _ (Trace.run Server.step d.server [.submit r]).2
          rw [Trace.run_cons, hwait]
          rfl

@[simp] theorem submit_finishes (d : TwiDriver) (r : Request) : finishes (d.submit r).2 = [] := by
  cases hfull : d.queue.full with
  | true =>
      rw [submit_full hfull]
      rfl
  | false =>
      by_cases hidle : d.ctx.state = .idle
      · rw [submit_idle hfull hidle]
        exact startNext_finishes _
      · rw [submit_busy hfull hidle]
        rfl

@[simp] theorem submitAll_finishes (d : TwiDriver) (rs : List Request) : finishes (d.submitAll rs).2 = [] := by
  induction rs generalizing d with
  | nil => rfl
  | cons r rs ih =>
      show finishes ((d.submit r).2 ++ ((d.submit r).1.submitAll rs).2) = []
      rw [finishes_append, submit_finishes, ih, List.append_nil]

theorem submitAll_simulates (d : TwiDriver) (rs : List Request) : Simulates d (d.submitAll rs) := by
  induction rs generalizing d with
  | nil => exact Simulates.refl d
  | cons r rs ih => exact (submit_simulates d r).trans (ih _)

/-- Outside `Idle` a submission leaves the context alone. -/
theorem submit_ctx {d : TwiDriver} (hbusy : d.ctx.state ≠ .idle) (r : Request) :
    (d.submit r).1.ctx = d.ctx ∧ called (d.submit r).2 = [] := by
  cases hfull : d.queue.full with
  | true =>
      rw [submit_full hfull]
      exact ⟨rfl, rfl⟩
  | false =>
      rw [submit_busy hfull hbusy]
      exact ⟨rfl, rfl⟩

theorem submitAll_ctx {d : TwiDriver} (hbusy : d.ctx.state ≠ .idle) (rs : List Request) :
    (d.submitAll rs).1.ctx = d.ctx ∧ called (d.submitAll rs).2 = [] := by
  induction rs generalizing d with
  | nil => exact ⟨rfl, rfl⟩
  | cons r rs ih =>
      obtain ⟨hctx, hcalled⟩ := submit_ctx hbusy r
      obtain ⟨hctx', hcalled'⟩ := ih (d := (d.submit r).1) (by rw [hctx]; exact hbusy)
      refine ⟨hctx'.trans hctx, ?_⟩
      show called ((d.submit r).2 ++ ((d.submit r).1.submitAll rs).2) = []
      rw [called_append, hcalled, hcalled', List.append_nil]

/-! ## Interrupts -/

/-- Without a callback `finish` only moves on. -/
theorem finish_silent {d : TwiDriver} (hnone : d.ctx.req.callback = none) (ok : Bool)
    (nested : List Request) :
    d.finish ok nested =
      ((d.setState .idle).startNext.1, .finished d.ctx.req :: (d.setState .idle).startNext.2) := by
  simp only [finish, hnone]
  rfl

theorem finish_called {d : TwiDriver} {c : Nat} (hsome : d.ctx.req.callback = some c) (ok : Bool)
    (nested : List Request) :
    d.finish ok nested =
      (((d.submitAll nested).1.setState .idle).startNext.1,
        .callback d.ctx.req ok :: (d.submitAll nested).2 ++
          .finished d.ctx.req :: ((d.submitAll nested).1.setState .idle).startNext.2) := by
  simp only [finish, hsome]

/-- Ending the job in progress, as the driver does it, is the server's `complete`. -/
theorem complete_simulates {d : TwiDriver} (hbusy : d.ctx.state ≠ .idle) :
    (Trace.run Server.step d.server [.complete]).1 = (d.setState .idle).startNext.1.server ∧
    (Trace.run Server.step d.server [.complete]).2 = [d.ctx.req] := by
  have hnext := startNext_server (d := d.setState .idle) rfl
  refine ⟨?_, ?_⟩
  · rw [hnext]
    rfl
  · simp [Server.step, server, hbusy]

/-- The callback's own effect is no operation, so the nested submissions come first. -/
theorem called_ops (d : TwiDriver) (ok : Bool) (nested : List Request) :
    ops (.callback d.ctx.req ok :: (d.submitAll nested).2 ++
      .finished d.ctx.req :: ((d.submitAll nested).1.setState .idle).startNext.2)
      = ops (d.submitAll nested).2 ++ [.complete] := by
  show ops ((d.submitAll nested).2 ++ _) = _
  rw [ops_append]
  exact congrArg (fun l => ops (d.submitAll nested).2 ++ .complete :: l) (startNext_ops _).1

/-- `finish` completes the request in progress: nested submissions first, then the next request. -/
theorem finish_simulates {d : TwiDriver} (hbusy : d.ctx.state ≠ .idle) (ok : Bool)
    (nested : List Request) : Simulates d (d.finish ok nested) := by
  cases hcb : d.ctx.req.callback with
  | none =>
      obtain ⟨hstate, hdone⟩ := complete_simulates hbusy
      obtain ⟨hops, hcalled⟩ := startNext_ops (d.setState .idle)
      rw [finish_silent hcb]
      refine ⟨?_, ?_⟩
      · show (Trace.run Server.step d.server (.complete :: ops _)).1 = _
        rw [hops]
        exact hstate
      · show called _ = List.filter _ (Trace.run Server.step d.server (.complete :: ops _)).2
        rw [hops, hdone]
        simp only [List.filter_cons, hcb, Option.isSome_none, List.filter_nil]
        exact hcalled
  | some c =>
      obtain ⟨hctx, hquiet⟩ := submitAll_ctx hbusy nested
      have hbusy' : (d.submitAll nested).1.ctx.state ≠ .idle := by rw [hctx]; exact hbusy
      obtain ⟨hstate, hdone⟩ := complete_simulates hbusy'
      have hcalled := (startNext_ops ((d.submitAll nested).1.setState .idle)).2
      obtain ⟨hsim, hsimc⟩ := submitAll_simulates d nested
      rw [hquiet] at hsimc
      rw [finish_called hcb]
      have hall := called_ops d ok nested
      refine ⟨?_, ?_⟩
      · show (Trace.run Server.step d.server (ops _)).1 = _
        rw [hall, Trace.run_append, hsim]
        exact hstate
      · show called _ = List.filter _ (Trace.run Server.step d.server (ops _)).2
        rw [hall, Trace.run_append, hsim, hdone, List.filter_append, ← hsimc, hctx]
        simp only [List.filter_cons, hcb, Option.isSome_some, if_true, List.filter_nil, List.nil_append]
        show d.ctx.req :: called ((d.submitAll nested).2 ++ _) = _
        rw [called_append, hquiet]
        exact congrArg (d.ctx.req :: ·) hcalled

/-- What it completes is the request it reports as finished. -/
theorem finish_ends {d : TwiDriver} (hbusy : d.ctx.state ≠ .idle) (ok : Bool) (nested : List Request) :
    (Trace.run Server.step d.server (ops (d.finish ok nested).2)).2 = finishes (d.finish ok nested).2 := by
  cases hcb : d.ctx.req.callback with
  | none =>
      obtain ⟨-, hdone⟩ := complete_simulates hbusy
      rw [finish_silent hcb]
      show (Trace.run Server.step d.server (.complete :: ops _)).2 = d.ctx.req :: finishes _
      rw [(startNext_ops _).1, hdone, startNext_finishes]
  | some c =>
      have hctx := (submitAll_ctx hbusy nested).1
      obtain ⟨-, hdone⟩ := complete_simulates (d := (d.submitAll nested).1) (by rw [hctx]; exact hbusy)
      have hquiet := completes_none (submitAll_finishes d nested) d.server
      rw [finish_called hcb, called_ops, Trace.run_append, (submitAll_simulates d nested).1, hquiet, hdone, hctx]
      show [d.ctx.req] = finishes ((d.submitAll nested).2 ++ _)
      rw [finishes_append, submitAll_finishes]
      exact (congrArg (d.ctx.req :: ·) (startNext_finishes _)).symm

theorem irqEnd_simulates {d : TwiDriver} (hbusy : d.ctx.state ≠ .idle) (ok : Bool)
    (nested : List Request) : Simulates d (d.irqEnd ok nested) := finish_simulates hbusy ok nested

theorem irqTx_simulates {d : TwiDriver} (hbusy : d.ctx.state ≠ .idle) (isr : Isr) :
    Simulates d (d.irqTx isr) := by
  unfold irqTx
  simp only
  split_ifs
  · exact Simulates.of_quiet rfl rfl (by simp [server, hbusy])
  · exact Simulates.of_quiet rfl rfl (by simp [server, setState, hbusy])
  · exact Simulates.of_quiet rfl rfl (by simp [server, hbusy])
  · exact Simulates.refl d

theorem irqRx_simulates {d : TwiDriver} (hbusy : d.ctx.state ≠ .idle) (isr : Isr) (rxdr : UInt8) :
    Simulates d (d.irqRx isr rxdr) := by
  unfold irqRx
  simp only
  split_ifs
  · exact Simulates.of_quiet rfl rfl (by simp [server, setState, hbusy])
  · exact Simulates.of_quiet rfl rfl (by simp [server, hbusy])
  · exact Simulates.refl d

theorem irqDefault_simulates {d : TwiDriver} (hbusy : d.ctx.state ≠ .idle) (isr : Isr) :
    Simulates d (d.irqDefault isr) := by
  unfold irqDefault
  split_ifs
  · exact Simulates.of_quiet rfl rfl (server_setState (by decide) hbusy)
  · exact Simulates.of_quiet rfl rfl (server_setState (by decide) hbusy)
  · exact Simulates.refl d

/-- The state in which the cases of `irq` are told apart. -/
def raised (d : TwiDriver) (isr : Isr) : TwiDriver :=
  if isr.nackf ∨ isr.berr then d.setState .error else d

theorem irq_eq (d : TwiDriver) (isr : Isr) (rxdr : UInt8) (nested : List Request) :
    d.irq isr rxdr nested =
      match (d.raised isr).ctx.state with
      | .tx => (d.raised isr).irqTx isr
      | .rx => (d.raised isr).irqRx isr rxdr
      | .stop => (d.raised isr).irqEnd true nested
      | .error => (d.raised isr).irqEnd false nested
      | .idle | .start => (d.raised isr).irqDefault isr := rfl

theorem Simulates.congr {d d' : TwiDriver} {out : TwiDriver × List Effect}
    (hserver : d'.server = d.server) (h : Simulates d' out) : Simulates d out := by
  unfold Simulates at h ⊢
  rw [← hserver]
  exact h

theorem raised_busy {d : TwiDriver} (hbusy : d.ctx.state ≠ .idle) (isr : Isr) :
    (d.raised isr).ctx.state ≠ .idle ∧ (d.raised isr).server = d.server := by
  unfold raised
  split_ifs
  · exact ⟨by simp [setState], server_setState (by decide) hbusy⟩
  · exact ⟨hbusy, rfl⟩

theorem irq_simulates_busy {d : TwiDriver} (hbusy : d.ctx.state ≠ .idle) (isr : Isr) (rxdr : UInt8)
    (nested : List Request) : Simulates d (d.irq isr rxdr nested) := by
  obtain ⟨hraised, hserver⟩ := raised_busy hbusy isr
  apply Simulates.congr hserver
  rw [irq_eq]
  cases hst : (d.raised isr).ctx.state with
  | idle => exact absurd hst hraised
  | start => exact irqDefault_simulates hraised isr
  | tx => exact irqTx_simulates hraised isr
  | rx => exact irqRx_simulates hraised isr rxdr
  | stop => exact irqEnd_simulates hraised true nested
  | error => exact irqEnd_simulates hraised false nested

theorem irqTx_finishes (d : TwiDriver) (isr : Isr) : finishes (d.irqTx isr).2 = [] := by
  unfold irqTx
  simp only
  split_ifs <;> rfl

theorem irqRx_finishes (d : TwiDriver) (isr : Isr) (rxdr : UInt8) : finishes (d.irqRx isr rxdr).2 = [] := by
  unfold irqRx
  simp only
  split_ifs <;> rfl

theorem irqDefault_finishes (d : TwiDriver) (isr : Isr) : finishes (d.irqDefault isr).2 = [] := by
  unfold irqDefault
  split_ifs <;> rfl

/-- Outside `Idle` the server completes what the driver finishes. -/
theorem irq_ends_busy {d : TwiDriver} (hbusy : d.ctx.state ≠ .idle) (isr : Isr) (rxdr : UInt8)
    (nested : List Request) :
    (Trace.run Server.step d.server (ops (d.irq isr rxdr nested).2)).2 = finishes (d.irq isr rxdr nested).2 := by
  obtain ⟨hraised, hserver⟩ := raised_busy hbusy isr
  rw [← hserver, irq_eq]
  cases hst : (d.raised isr).ctx.state with
  | idle => exact absurd hst hraised
  | start => exact ends_none (irqDefault_finishes (d.raised isr) isr) _
  | tx => exact ends_none (irqTx_finishes (d.raised isr) isr) _
  | rx => exact ends_none (irqRx_finishes (d.raised isr) isr rxdr) _
  | stop => exact finish_ends hraised true nested
  | error => exact finish_ends hraised false nested

/-- An error flag runs the error case, also in `Idle`. -/
theorem irq_raised {d : TwiDriver} {isr : Isr} (herr : isr.nackf = true ∨ isr.berr = true)
    (rxdr : UInt8) (nested : List Request) :
    d.irq isr rxdr nested = (d.setState .error).irqEnd false nested := by
  rw [irq_eq, raised, if_pos herr]
  rfl

/-- In `Idle` without an error flag the default case runs. -/
theorem irq_idle_default {d : TwiDriver} (hidle : d.ctx.state = .idle) {isr : Isr}
    (hok : ¬ (isr.nackf = true ∨ isr.berr = true)) (rxdr : UInt8) (nested : List Request) :
    d.irq isr rxdr nested = d.irqDefault isr := by
  rw [irq_eq, raised, if_neg hok, hidle]

/-- In `Idle` an error flag makes the driver finish its last request again; without a callback that is a
    `complete` of a free server. -/
theorem irq_idle_error {d : TwiDriver} (hidle : d.ctx.state = .idle) {isr : Isr}
    (herr : isr.nackf = true ∨ isr.berr = true) (hnone : d.ctx.req.callback = none) (rxdr : UInt8)
    (nested : List Request) :
    Simulates d (d.irq isr rxdr nested) ∧ called (d.irq isr rxdr nested).2 = [] ∧
      (Trace.run Server.step d.server (ops (d.irq isr rxdr nested).2)).2 = [] := by
  have hserver : ((d.setState .error).setState .idle).server = d.server := by
    simp [server, setState, hidle]
  have hnext := startNext_server (d := (d.setState .error).setState .idle) rfl
  obtain ⟨hops, hcalled⟩ := startNext_ops ((d.setState .error).setState .idle)
  have hfree : d.server.busy = none := by simp [server, hidle]
  rw [irq_raised herr, irqEnd, finish_silent (d := d.setState .error) hnone]
  have hnothing : (Trace.run Server.step d.server (.complete :: ops
      ((d.setState .error).setState .idle).startNext.2)).2 = [] := by
    rw [hops, Trace.run_cons, Server.step, hfree]
    rfl
  refine ⟨⟨?_, ?_⟩, hcalled, hnothing⟩
  · show (Trace.run Server.step d.server (.complete :: ops _)).1 = _
    rw [hops, hnext, hserver]
    rfl
  · show called _ = List.filter _ (Trace.run Server.step d.server (.complete :: ops _)).2
    rw [hnothing]
    exact hcalled

theorem irq_idle_quiet {d : TwiDriver} (hidle : d.ctx.state = .idle) {isr : Isr}
    (hok : ¬ (isr.nackf = true ∨ isr.berr = true)) (htxis : isr.txis = false) (hrxne : isr.rxne = false)
    (rxdr : UInt8) (nested : List Request) : d.irq isr rxdr nested = (d, []) := by
  rw [irq_idle_default hidle hok]
  simp [irqDefault, htxis, hrxne]

theorem irq_simulates_idle {d : TwiDriver} (hidle : d.ctx.state = .idle) (isr : Isr) (rxdr : UInt8)
    (nested : List Request) (hquiet : IdleQuiet d (.irq isr rxdr nested)) :
    Simulates d (d.irq isr rxdr nested) ∧ called (d.irq isr rxdr nested).2 = [] ∧
      (Trace.run Server.step d.server (ops (d.irq isr rxdr nested).2)).2 = [] := by
  have hflags := hquiet hidle
  by_cases herr : isr.nackf = true ∨ isr.berr = true
  · rw [if_pos herr] at hflags
    exact irq_idle_error hidle herr hflags rxdr nested
  · rw [if_neg herr] at hflags
    rw [irq_idle_quiet hidle herr hflags.1 hflags.2]
    exact ⟨Simulates.refl d, rfl, rfl⟩

/-! ## Ticks -/

/-- A tick changes the countdown, and may mark the request in progress as failed. -/
theorem tick1ms_ctx (d : TwiDriver) :
    d.tick1ms.queue = d.queue ∧ d.tick1ms.ctx.req = d.ctx.req ∧
    (d.tick1ms.ctx.state = d.ctx.state ∨ d.ctx.state ≠ .idle ∧ d.tick1ms.ctx.state = .error) := by
  unfold tick1ms
  simp only
  split_ifs with hidle hrun hend
  · exact ⟨rfl, rfl, Or.inl rfl⟩
  · exact ⟨rfl, rfl, Or.inr ⟨hidle, rfl⟩⟩
  · exact ⟨rfl, rfl, Or.inl rfl⟩
  · exact ⟨rfl, rfl, Or.inl rfl⟩

theorem tick_simulates (d : TwiDriver) : Simulates d (d.tick1ms, []) := by
  obtain ⟨hqueue, hreq, hstate⟩ := tick1ms_ctx d
  apply Simulates.of_quiet rfl rfl
  rcases hstate with hsame | ⟨hbusy, herr⟩
  · simp [server, hqueue, hreq, hsame]
  · simp [server, hqueue, hreq, hbusy, herr]

/-! ## Whole runs -/

/-- **The simulation.** A quiet step of the driver is what the server does. -/
theorem step_simulates (d : TwiDriver) (i : Input) (hquiet : IdleQuiet d i) :
    Simulates d (d.step i) := by
  cases i with
  | submit r => exact submit_simulates d r
  | irq isr rxdr nested =>
      by_cases hidle : d.ctx.state = .idle
      · exact (irq_simulates_idle hidle isr rxdr nested hquiet).1
      · exact irq_simulates_busy hidle isr rxdr nested
  | tick => exact tick_simulates d

/-- A quiet step completes in the server what the driver finishes outside `Idle`. -/
theorem step_ends (d : TwiDriver) (i : Input) (hquiet : IdleQuiet d i) :
    (Trace.run Server.step d.server (ops (d.step i).2)).2
      = if d.ctx.state = .idle then [] else finishes (d.step i).2 := by
  cases i with
  | submit r =>
      have hnone := submit_finishes d r
      show (Trace.run Server.step d.server (ops (d.submit r).2)).2 = if _ then [] else finishes (d.submit r).2
      rw [completes_none hnone, hnone, ite_self]
  | tick => exact (ite_self _).symm
  | irq isr rxdr nested =>
      by_cases hidle : d.ctx.state = .idle
      · rw [if_pos hidle]
        exact (irq_simulates_idle hidle isr rxdr nested hquiet).2.2
      · rw [if_neg hidle]
        exact irq_ends_busy hidle isr rxdr nested

theorem ended_server {d : TwiDriver} {is : List Input} (hquiet : Trace.Along step IdleQuiet d is) :
    (Trace.run Server.step d.server (ops (Trace.run step d is).2)).2 = ended d is := by
  induction is generalizing d with
  | nil => rfl
  | cons i is ih =>
      have hrest := ih hquiet.2
      rw [Trace.run_cons, ops_append, Trace.run_append, step_ends d i hquiet.1, (step_simulates d i hquiet.1).1,
        hrest]
      rfl

/-- The invariant of a run: all effects so far simulate the server from its free state. -/
theorem run_simulates {is : List Input} (hquiet : Trace.Along step IdleQuiet fresh is) :
    Simulates fresh (Trace.run step fresh is) := by
  have hinv := Trace.run_invariant_along IdleQuiet (fun d es => Simulates fresh (d, es))
    (fun d es i h hq => h.trans (step_simulates d i hq)) (Simulates.refl fresh) hquiet
  exact hinv

theorem pending_server (d : TwiDriver) : d.server.pending = d.inProgress ++ d.queue.items := by
  unfold Server.pending server inProgress
  split_ifs <;> rfl

/-- **The ledger**, from the ledger of the abstract server. -/
theorem run_completes {is : List Input} (hquiet : Trace.Along step IdleQuiet fresh is) :
    Completes (Trace.run step fresh is).1 (Trace.run step fresh is).2 (ended fresh is) := by
  obtain ⟨hstate, hcalled⟩ := run_simulates hquiet
  have hledger := Server.ledger fresh.server (ops (Trace.run step fresh is).2)
  have hfree : fresh.server.pending = [] := rfl
  rw [hstate, submitted_ops, hfree, List.nil_append, pending_server, ended_server hquiet] at hledger
  rw [ended_server hquiet] at hcalled
  refine ⟨?_, hcalled⟩
  rw [List.append_assoc]
  exact hledger

/-- **Exactly once and in order**, in every run whose interrupts taken in `Idle` are quiet. -/
theorem completionLaw_of_quiet {is : List Input} (hquiet : Trace.Along step IdleQuiet fresh is) :
    CompletionLaw fresh is := by
  intro pre i post hsplit
  have hthis := (Trace.along_iff_prefix.mp hquiet) pre i post hsplit
  have hsplit' : is = (pre ++ [i]) ++ post := by simp [hsplit]
  rw [hsplit'] at hquiet
  refine ⟨run_completes (Trace.along_append.mp hquiet).1, ?_⟩
  rintro hidle ⟨isr, rxdr, nested, rfl⟩
  exact (irq_simulates_idle hidle isr rxdr nested hthis).2.1

/-- One byte to write, with a callback. -/
def oneByte : Request := ⟨0x50, fun _ => 0xAA, 1, 0, some 0⟩

/-- Two requests, the second submitted from the callback of the first; both complete. -/
theorem completionLaw_twoRequests :
    CompletionLaw fresh
      [.submit oneByte, .irq ⟨false, false, true, false⟩ 0 [], .irq ⟨false, false, true, false⟩ 0 [],
        .irq ⟨false, false, false, false⟩ 0 [oneByte], .tick, .irq ⟨true, false, false, false⟩ 0 [],
        .irq ⟨false, false, false, false⟩ 0 []] := by
  refine completionLaw_of_quiet ⟨trivial, ?_, ?_, ?_, trivial, ?_, ?_, trivial⟩ <;> intro hidle
  · cases hidle
  · cases hidle
  · cases hidle
  · cases hidle
  · exact ⟨rfl, rfl⟩

/-- The address is not acknowledged, and `NACKF` stays set: the request is called back twice. -/
theorem completionLaw_fails :
    ¬ CompletionLaw fresh
      [.submit oneByte, .irq ⟨true, false, false, false⟩ 0 [], .irq ⟨true, false, false, false⟩ 0 []] := by
  intro hlaw
  have hsilent := (hlaw [.submit oneByte, .irq ⟨true, false, false, false⟩ 0 []] _ [] rfl).2 rfl
    ⟨_, _, _, rfl⟩
  exact List.cons_ne_nil oneByte [] hsilent

/-! ## The timeout -/

/-- 100 ms without an interrupt: one tick after the other. -/
def hundredTicks : List Input := List.replicate 100 .tick

/-- The timeout ends the request in progress: its callback is called once, with `false`, and the driver
    is free, or has started the next request. -/
def TimeoutEnds (d : TwiDriver) : Prop :=
  (Trace.run step d hundredTicks).2.filterMap
      (fun e => match e with | .callback r ok => some (r, ok) | _ => none)
    = (if d.ctx.req.callback.isSome then [(d.ctx.req, false)] else []) ∧
  ((Trace.run step d hundredTicks).1.ctx.state = .idle ∧
      (Trace.run step d hundredTicks).1.queue.items = [] ∨
    ∃ next rest, d.queue.items = next :: rest ∧
      (Trace.run step d hundredTicks).1.ctx.state = .start ∧
      (Trace.run step d hundredTicks).1.ctx.req = next ∧
      (Trace.run step d hundredTicks).1.queue.items = rest)

/-- Ticks alone finish nothing: the queue stays, and a request in progress stays in progress. -/
theorem ticks_keep (d : TwiDriver) (n : Nat) :
    (Trace.run step d (List.replicate n .tick)).1.queue = d.queue ∧
    (d.ctx.state ≠ .idle → (Trace.run step d (List.replicate n .tick)).1.ctx.state ≠ .idle) := by
  induction n generalizing d with
  | zero => exact ⟨rfl, id⟩
  | succ n ih =>
      obtain ⟨hqueue, -, hstate⟩ := tick1ms_ctx d
      obtain ⟨ihqueue, ihstate⟩ := ih d.tick1ms
      refine ⟨ihqueue.trans hqueue, ?_⟩
      intro hbusy
      apply ihstate
      rcases hstate with hsame | ⟨-, herr⟩
      · rw [hsame]
        exact hbusy
      · rw [herr]
        decide

theorem ticks_silent (d : TwiDriver) (n : Nat) : (Trace.run step d (List.replicate n .tick)).2 = [] := by
  induction n generalizing d with
  | zero => rfl
  | succ n ih => exact ih d.tick1ms

/-- **The timeout ends nothing.** Whatever the driver was doing: 100 ms later it still does it. -/
theorem timeout_never_ends {d : TwiDriver} (hbusy : d.ctx.state ≠ .idle) : ¬ TimeoutEnds d := by
  obtain ⟨hqueue, hstate⟩ := ticks_keep d 100
  unfold TimeoutEnds hundredTicks
  rintro ⟨-, ⟨hidle, -⟩ | ⟨next, rest, hitems, -, -, hrest⟩⟩
  · exact hstate hbusy hidle
  · have hsame : rest = next :: rest := by
      rw [← hitems, ← hrest]
      exact congrArg Fifo.items hqueue
    have hlength := congrArg List.length hsame
    simp at hlength

theorem timeout_never_ends_started : ¬ TimeoutEnds (fresh.submit oneByte).1 :=
  timeout_never_ends (by decide)

/-- A request to a device that does not exist, on a bus that raises no interrupt: no callback is made. -/
theorem timeout_misses_callback :
    (fresh.submit oneByte).1.ctx.state = .start ∧ ¬ TimeoutEnds (fresh.submit oneByte).1 := by
  refine ⟨rfl, ?_⟩
  rintro ⟨hcallback, -⟩
  rw [hundredTicks, ticks_silent] at hcallback
  exact List.cons_ne_nil _ [] hcallback.symm

end TwiDriver
end Thermostat
