import Thermostat.App.Correctness.Delivery

/-!
# `App.Correctness.Latency` — when an event is dispatched

Whoever pushes an event, how long it takes to reach the controller depends on nothing but the number of
events that wait in front of it: the main loop dispatches one event an iteration, in the order in which they
were accepted, and never leaves out a turn while one is waiting.

**`event_on_time`**: an event that is pushed while `n` others wait is refused iff `n` is the size of the
queue, and otherwise dispatched in the `n`-th iteration after the one it was pushed in.
-/

namespace Thermostat
namespace App

variable {a : App} {i : Iteration} {before after : List Effect} {p : Producer} {e : Event} {ok : Bool}

/-! ## The place of a push -/

theorem push_traffic (h : (appLoop a i).2 = before ++ .push p e ok :: after) :
    (a.queue.round (offered (appLoop a i).2)).2
      = traffic before ++ .offered e ok :: traffic after := by
  rw [appLoop_round, h, traffic_append]
  rfl

/-- Nothing has been dispatched in an iteration when an event is pushed. -/
theorem push_undispatched (h : (appLoop a i).2 = before ++ .push p e ok :: after) :
    dispatched before = [] := by
  rw [dispatched_eq]
  exact Fifo.round_offered (push_traffic h)

/-- The events that wait when an event is pushed. -/
def waiting (a : App) (before : List Effect) : List Event := a.queue.items ++ accepted before

theorem push_ok_iff (h : (appLoop a i).2 = before ++ .push p e ok :: after) :
    ok = true ↔ (waiting a before).length < Config.eventQueueMaxSize := by
  have hok := Fifo.offered_ok (push_traffic h)
  rw [← accepted_eq, ← dispatched_eq, push_undispatched h] at hok
  rw [hok]
  unfold waiting
  rw [List.length_append]
  exact Iff.rfl

/-! ## Service -/

/-- What is dispatched from an iteration on, as long as something it left behind is there. -/
theorem run_dispatched {post : List Iteration}
    (h : post.length < (a.queue.items ++ accepted (appLoop a i).2).length) :
    dispatched (Trace.run appLoop a (i :: post)).2
      = (a.queue.items ++ accepted (appLoop a i).2).take (post.length + 1) := by
  obtain ⟨rounds, hlength, hrun⟩ := run_rounds (appLoop a i).1 post
  have hround := appLoop_round a i
  have haccepted : accepted (appLoop a i).2 = Fifo.accepted (a.queue.round (offered (appLoop a i).2)).2 := by
    rw [hround, accepted_eq]
  rw [haccepted, ← hlength] at h
  calc dispatched (Trace.run appLoop a (i :: post)).2
      = Fifo.taken (Trace.run Fifo.round a.queue (offered (appLoop a i).2 :: rounds)).2 := by
        rw [dispatched_eq, Trace.run_cons, traffic_append, Trace.run_cons, hround, hrun]
    _ = (a.queue.items ++ accepted (appLoop a i).2).take (post.length + 1) := by
        rw [Fifo.rounds_served h, haccepted, hlength]

/-- **An accepted event is dispatched in its turn**: iteration by iteration, first those that wait are
    dispatched, one in each, and then the event. -/
theorem push_served (h : (appLoop a i).2 = before ++ .push p e true :: after) (post : List Iteration) {n : Nat}
    (hturn : n ≤ (waiting a before).length + 1) (hlong : n ≤ post.length + 1) :
    dispatched (Trace.run appLoop a ((i :: post).take n)).2 = (waiting a before ++ [e]).take n := by
  have hall : a.queue.items ++ accepted (appLoop a i).2
      = (waiting a before ++ [e]) ++ accepted after := by
    rw [h, accepted_append, accepted_push, ← List.append_assoc, List.append_assoc _ [e]]
    rfl
  cases n with
  | zero => rfl
  | succ n =>
      have htaken : (post.take n).length = n := List.length_take_of_le (Nat.le_of_succ_le_succ hlong)
      have hplace : n + 1 ≤ (waiting a before ++ [e]).length := by
        rw [List.length_append]
        exact hturn
      have hthere : (post.take n).length < (a.queue.items ++ accepted (appLoop a i).2).length := by
        rw [hall, htaken, List.length_append]
        exact Nat.lt_of_lt_of_le hplace (Nat.le_add_right _ _)
      rw [List.take_succ_cons, run_dispatched hthere, htaken, hall, List.take_append_of_le_length hplace]

/-! ## Whole runs -/

/-- **Every event has its time.** In every run, an event that is pushed while `waiting` are accepted and not
    yet dispatched is refused iff the queue is full. If it is not, then iteration by iteration the waiting
    events are dispatched, one in each and in their order, and right behind them the event itself. -/
theorem event_on_time {pre post : List Iteration}
    (hpush : (appLoop (Trace.run appLoop boot pre).1 i).2 = before ++ .push p e ok :: after) :
    let sofar := (Trace.run appLoop boot pre).2 ++ before
    ∃ waiting, accepted sofar = dispatched sofar ++ waiting ∧
      (ok = true ↔ waiting.length < Config.eventQueueMaxSize) ∧
      (ok = true → ∀ n, n ≤ waiting.length + 1 → n ≤ post.length + 1 →
        dispatched (Trace.run appLoop boot (pre ++ (i :: post).take n)).2
          = dispatched sofar ++ (waiting ++ [e]).take n) := by
  intro sofar
  have hsofar : dispatched sofar = dispatched (Trace.run appLoop boot pre).2 := by
    rw [dispatched_append, push_undispatched hpush, List.append_nil]
  refine ⟨waiting (Trace.run appLoop boot pre).1 before, ?_, push_ok_iff hpush, ?_⟩
  · rw [hsofar, accepted_append, (queueInv_run pre).accounted, List.append_assoc]
    rfl
  · rintro rfl n hturn hlong
    rw [hsofar, Trace.run_append, dispatched_append, push_served hpush post hturn hlong]

/-- Three keys come in at once. -/
def typed : Iteration :=
  { calm [] with arrivals := [0x31, 0x32, 0x33].map fun byte => ⟨[.arrive byte, .usart1], 0⟩ }

/-- The third press waits for two others. -/
theorem event_on_time_third :
    dispatched (Trace.run appLoop boot ([calm []] ++ [typed, calm [], calm []])).2
      = [⟨.buttonS1, 0⟩, ⟨.buttonS2, 0⟩, ⟨.buttonS3, 0⟩] := by
  have hpush : (appLoop (Trace.run appLoop boot [calm []]).1 typed).2
      = [.push .uart ⟨.buttonS1, 0⟩ true, .push .uart ⟨.buttonS2, 0⟩ true] ++ .push .uart ⟨.buttonS3, 0⟩ true
        :: [.dispatch ⟨.buttonS1, 0⟩, .iwdgReload] := by
    decide +kernel
  have hquiet : (Trace.run appLoop boot [calm []]).2 = [.iwdgReload] := by decide +kernel
  obtain ⟨waiting, hwaiting, -, hserved⟩ :=
    @event_on_time typed _ _ _ _ _ [calm []] [calm [], calm []] hpush
  rw [hquiet] at hwaiting hserved
  obtain rfl : [⟨.buttonS1, 0⟩, ⟨.buttonS2, 0⟩] = waiting := hwaiting
  exact hserved rfl 3 (Nat.le_refl 3) (Nat.le_refl 3)

end App
end Thermostat
