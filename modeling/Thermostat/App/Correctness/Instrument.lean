import Thermostat.App.Correctness.Measurements
import Thermostat.Drivers.Correctness.SensorBus

/-!
# `App.Correctness.Instrument` — the thermostat and its sensor

The main loop, the sensor's timer and a sensor on the bus as one machine, in which no capture is an input any more:
an iteration takes at its head the interrupts of the shot that the timer has made (`Drivers.Correctness.SensorBus`
says why a shot may happen at once). Seen from the bus, a run of it is a run of `SensorBus` (`run_bus`); seen from the
program it is a run of the main loop (`run_app`).

Whatever the sensor and the panel were doing at power-on, and whatever else goes on:

- **`shows_measurements`**: the controller is given what the sensor measures, once and in order, and is never more
  than four measurements behind. The last one that it was given is what the panel shows and what the heater goes by.
- **`measurements_arrive`**: and this does not stop.
-/

namespace Thermostat

open OneWire (Slave Conduct)
open DS18B20 (BusTimer IsTemperature reports)
open HT1621B (Watcher watch)
open App (Effect accepted dispatched)

/-- The interrupts of the sensor's timer and of its DMA. -/
def App.Interrupt.onBus : App.Interrupt → Bool
  | .capture _ | .expire => true
  | _                    => false

/-- The iteration without them. -/
def Iteration.offBus (i : Iteration) : Iteration :=
  { i with
    head := i.head.filter (!·.onBus)
    arrivals := i.arrivals.map fun x => { x with irqs := x.irqs.filter (!·.onBus) }
    timer := i.timer.filter (!·.onBus) }

/-- The samples among the events. -/
def samples (es : List Event) : List Int :=
  es.filterMap fun e => if e.type = .temperatureReady then some e.value else none

@[simp] theorem samples_append (xs ys : List Event) : samples (xs ++ ys) = samples xs ++ samples ys :=
  List.filterMap_append

structure Instrument where
  app : App
  timer : BusTimer
  slave : Slave Reading

namespace Instrument

/-- Power-on; only the record of the measurements is new. -/
def boot (s : Slave Reading) : Instrument := ⟨App.boot, BusTimer.boot, { s with history := [] }⟩

def bus (m : Instrument) : SensorBus := ⟨m.app.sensor, m.timer, m.slave⟩

/-- An iteration, and the shot in front of it, if there was time for one. -/
structure Round where
  shot : Option (Conduct × Reading)
  rest : Iteration

/-- What happens on the bus. -/
def Round.inputs (r : Round) : List SensorBus.Input :=
  match r.shot with
  | some (c, measured) => [.shot c measured, .poll]
  | none               => [.poll]

/-- The interrupts of a shot: the edges, and the end. -/
def irqs (m : Instrument) : Option (Conduct × Reading) → List App.Interrupt
  | some (c, measured) =>
      if m.timer.running then
        (m.slave.spend Reading.bits c measured m.timer.duration m.timer.shot.1).2.map
          (fun e => .capture (UInt16.ofNat e)) ++ [.expire]
      else []
  | none => []

def iteration (m : Instrument) (r : Round) : Iteration :=
  { r.rest.offBus with head := m.irqs r.shot ++ r.rest.offBus.head }

/-- The program runs an iteration; its timer and the sensor go on. -/
def step (m : Instrument) (r : Round) : Instrument × List Effect :=
  let (app, es) := appLoop m.app (m.iteration r)
  let b := (Trace.run SensorBus.step m.bus r.inputs).1
  (⟨app, b.timer, b.slave⟩, es)

/-! ## The bus in the main loop -/

/-- The stage leaves the sensor's driver alone. -/
def OffBus (f : App → App × List Effect) : Prop := ∀ a, (f a).1.sensor = a.sensor

theorem offBus_seq {fs : List (App → App × List Effect)} (h : ∀ f ∈ fs, OffBus f) : OffBus (Trace.seq fs) := by
  apply Trace.seq_induction (P := OffBus)
  · exact fun _ => rfl
  · exact fun f g hf hg a => (hg (f a).1).trans (hf a)
  · exact h

theorem interrupts_offBus {is : List App.Interrupt} (h : ∀ i ∈ is, i.onBus = false) (a : App) :
    (a.interrupts is).sensor = a.sensor := by
  induction is generalizing a with
  | nil => rfl
  | cons i is ih =>
    have hone : (a.interrupt i).sensor = a.sensor := by
      cases i with
      | capture v => cases h _ List.mem_cons_self
      | expire => cases h _ List.mem_cons_self
      | _ => rfl
    exact (ih (fun j hj => h j (List.mem_cons_of_mem i hj)) _).trans hone

theorem filter_offBus (is : List App.Interrupt) : ∀ i ∈ is.filter (!·.onBus), i.onBus = false := by
  intro i hi
  exact (Bool.not_eq_true' _).mp (List.mem_filter.mp hi).2

theorem pressKey_offBus (byte : Int) (now : UInt32) : OffBus (App.pressKey byte now) := by
  intro a
  unfold App.pressKey
  cases App.keyOf byte <;> rfl

theorem readKeys_offBus {xs : List Arrival} (h : ∀ x ∈ xs, ∀ i ∈ x.irqs, i.onBus = false) :
    OffBus (App.readKeys xs) := by
  induction xs with
  | nil => exact fun _ => rfl
  | cons x xs ih =>
    intro a
    have hirqs := interrupts_offBus (h x List.mem_cons_self) a
    have hrest := ih fun y hy => h y (List.mem_cons_of_mem x hy)
    unfold App.readKeys
    simp only
    split_ifs
    · exact hirqs
    · refine Eq.trans (offBus_seq ?_ _) hirqs
      intro f hf
      rcases List.mem_cons.mp hf with rfl | hf
      · exact pressKey_offBus _ _
      · rw [List.mem_singleton.mp hf]
        exact hrest
    · exact hirqs

/-- Behind the poll nothing happens to the sensor's driver. -/
theorem middle_offBus (i : Iteration) (harrivals : ∀ x ∈ i.arrivals, ∀ j ∈ x.irqs, j.onBus = false)
    (htimer : ∀ j ∈ i.timer, j.onBus = false) : OffBus (Trace.seq (App.middle i)) := by
  apply offBus_seq
  intro f hf
  simp only [App.middle, List.mem_cons, List.not_mem_nil, or_false] at hf
  rcases hf with rfl | rfl | rfl | rfl | rfl | rfl | rfl
  · exact fun a => App.pushAll_sensor .buttons _ _
  · exact fun _ => rfl
  · exact fun _ => rfl
  · exact App.releaseKey_sensor i.releaseNow
  · apply readKeys_offBus
    intro x hx
    rcases List.mem_append.mp hx with hx | hx
    · exact harrivals x hx
    · rw [List.eq_of_mem_replicate hx]
      exact fun j hj => absurd hj List.not_mem_nil
  · exact interrupts_offBus htimer
  · exact App.timerTick_sensor

/-- What an iteration does to the sensor's driver: the interrupts at its head, and a poll. -/
theorem appLoop_polls {i : Iteration} (harrivals : ∀ x ∈ i.arrivals, ∀ j ∈ x.irqs, j.onBus = false)
    (htimer : ∀ j ∈ i.timer, j.onBus = false) (a : App) :
    (appLoop a i).1.sensor = (a.interrupts i.head).sensor.poll.1 := by
  have hfront : (App.front i a).1 = (Trace.seq (App.middle i) (App.pollSensor (a.interrupts i.head)).1).1 := by
    simp only [App.front, Trace.seq_cons, Trace.seq_nil]
    rfl
  have hpoll : (App.pollSensor (a.interrupts i.head)).1.sensor = (a.interrupts i.head).sensor.poll.1 :=
    App.callbacks_sensor _ _
  rw [App.appLoop_eq, App.processQueue_sensor, hfront, middle_offBus i harrivals htimer, hpoll]

theorem interrupts_captures (a : App) (edges : List Nat) :
    (a.interrupts (edges.map fun e => .capture (UInt16.ofNat e))).sensor = SensorBus.captures a.sensor edges := by
  induction edges generalizing a with
  | nil => rfl
  | cons e edges ih => exact ih (a.interrupt (.capture (UInt16.ofNat e)))

theorem interrupts_append (a : App) (is js : List App.Interrupt) :
    a.interrupts (is ++ js) = (a.interrupts is).interrupts js := List.foldl_append

/-- The program sees of a shot what the driver sees. -/
theorem irqs_shot (m : Instrument) (c : Conduct) (measured : Reading) :
    (m.app.interrupts (m.irqs (some (c, measured)))).sensor = (m.bus.shot c measured).driver := by
  cases hon : m.timer.running with
  | true =>
    have hirqs : m.irqs (some (c, measured)) =
        (m.slave.spend Reading.bits c measured m.timer.duration m.timer.shot.1).2.map
          (fun e => .capture (UInt16.ofNat e)) ++ [.expire] := if_pos hon
    have hshot : m.bus.shot c measured =
        ⟨(SensorBus.captures m.app.sensor
            (m.slave.spend Reading.bits c measured m.timer.duration m.timer.shot.1).2).expire,
          m.timer.shot.2, (m.slave.spend Reading.bits c measured m.timer.duration m.timer.shot.1).1⟩ := if_pos hon
    rw [hirqs, hshot, interrupts_append]
    exact congrArg DS18B20.expire (interrupts_captures m.app _)
  | false =>
    have hno : ¬ m.timer.running = true := by rw [hon]; exact Bool.false_ne_true
    have hirqs : m.irqs (some (c, measured)) = [] := if_neg hno
    have hshot : m.bus.shot c measured = m.bus := if_neg hno
    rw [hirqs, hshot]
    rfl

/-- The bus at the time of the poll. -/
def atPoll (m : Instrument) (r : Round) : SensorBus :=
  match r.shot with
  | some (c, measured) => m.bus.shot c measured
  | none               => m.bus

theorem run_inputs (m : Instrument) (r : Round) :
    Trace.run SensorBus.step m.bus r.inputs = (m.atPoll r).poll := by
  obtain ⟨shot, rest⟩ := r
  cases shot with
  | none =>
    show ((m.bus.poll).1, (m.bus.poll).2 ++ []) = m.bus.poll
    rw [List.append_nil]
  | some x =>
    show (((m.bus.shot x.1 x.2).poll).1, [] ++ (((m.bus.shot x.1 x.2).poll).2 ++ [])) = (m.bus.shot x.1 x.2).poll
    rw [List.append_nil, List.nil_append]

theorem head_sensor (m : Instrument) (r : Round) :
    (m.app.interrupts (m.iteration r).head).sensor = (m.atPoll r).driver := by
  have hhead : (m.iteration r).head = m.irqs r.shot ++ r.rest.offBus.head := rfl
  have hrest : ∀ i ∈ r.rest.offBus.head, i.onBus = false := filter_offBus r.rest.head
  rw [hhead, interrupts_append, interrupts_offBus hrest]
  obtain ⟨shot, rest⟩ := r
  cases shot with
  | none => rfl
  | some x => exact irqs_shot m x.1 x.2

/-- **On the bus a round is a shot and a poll.** -/
theorem step_bus (m : Instrument) (r : Round) : (step m r).1.bus = (Trace.run SensorBus.step m.bus r.inputs).1 := by
  have harrivals : ∀ x ∈ (m.iteration r).arrivals, ∀ j ∈ x.irqs, j.onBus = false := by
    intro x hx
    obtain ⟨y, -, rfl⟩ := List.mem_map.mp hx
    exact filter_offBus y.irqs
  have hsensor : (step m r).1.app.sensor = (m.atPoll r).driver.poll.1 := by
    rw [← head_sensor m r]
    exact appLoop_polls harrivals (filter_offBus r.rest.timer) m.app
  have hdriver : (Trace.run SensorBus.step m.bus r.inputs).1.driver = (m.atPoll r).driver.poll.1 := by
    rw [run_inputs]
    rfl
  unfold bus
  rw [hsensor, ← hdriver]
  rfl

theorem run_bus (m : Instrument) (rs : List Round) :
    (Trace.run step m rs).1.bus = (Trace.run SensorBus.step m.bus (rs.flatMap Round.inputs)).1 := by
  induction rs generalizing m with
  | nil => rfl
  | cons r rs ih => rw [Trace.run_cons, List.flatMap_cons, Trace.run_append, ih, step_bus]

theorem run_app (m : Instrument) (rs : List Round) :
    ∃ is, is.length = rs.length ∧
      Trace.run appLoop m.app is = ((Trace.run step m rs).1.app, (Trace.run step m rs).2) := by
  have hstep : ∀ m r, appLoop m.app (iteration m r) = ((step m r).1.app, (step m r).2.filterMap some) := by
    intro m r
    rw [List.filterMap_some]
    rfl
  obtain ⟨is, hlength, hrun⟩ := Trace.run_refines Instrument.app some iteration hstep m rs
  rw [List.filterMap_some] at hrun
  exact ⟨is, hlength, hrun⟩

/-! ## What the sensor pushes -/

/-- Between two iterations there is room, and so the callback's temperatures become samples. -/
theorem callbacks_samples {es : List DS18B20.Effect} {a : App} (hone : (reports es).length ≤ 1)
    (htemps : ∀ t ∈ reports es, IsTemperature t) (hroom : a.queue.items.length < Config.eventQueueMaxSize) :
    samples (accepted (Trace.seq (es.map App.sensorEffect) a).2) = reports es := by
  induction es generalizing a with
  | nil => rfl
  | cons o es ih =>
    rw [List.map_cons, Trace.seq_cons, App.accepted_append, samples_append]
    cases o with
    | tempReady t =>
      have ht : IsTemperature t := htemps t List.mem_cons_self
      have hnone : (reports es).length = 0 := Nat.le_zero.mp (Nat.le_of_succ_le_succ hone)
      have hlater : (Trace.seq (es.map App.sensorEffect) (App.sensorEffect (.tempReady t) a).1).2 = [] := by
        have hlength := App.callbacks_length es (App.sensorEffect (.tempReady t) a).1
        exact List.length_eq_zero_iff.mp (by omega)
      have hpush : (App.sensorEffect (.tempReady t) a).2 = [.push .sensor ⟨.temperatureReady, t⟩ true] := by
        have hcall : App.sensorEffect (.tempReady t) a = a.push .sensor ⟨.temperatureReady, t⟩ := by
          show App.ds18b20TempReady t a = _
          unfold App.ds18b20TempReady
          rw [if_neg ht.2.1, if_neg ht.2.2, if_neg ht.1]
        rw [hcall]
        exact congrArg (fun ok => [Effect.push .sensor ⟨.temperatureReady, t⟩ ok]) (Fifo.offer_ok.mpr hroom)
      rw [hlater, hpush]
      show t :: ([] : List Int) = t :: reports es
      rw [List.length_eq_zero_iff.mp hnone]
    | _ => exact ih hone htemps hroom

/-- Only the sensor's pushes are samples. -/
theorem samples_others {es : List Effect} (hgenuine : ∀ o ∈ es, o.Genuine)
    (hothers : ∀ o ∈ es, o.bySensor = false) : samples (accepted es) = [] := by
  apply List.filterMap_eq_nil_iff.mpr
  intro e he
  obtain ⟨p, hp⟩ := App.mem_accepted he
  split_ifs with htype
  · obtain rfl := hgenuine _ hp htype
    cases hothers _ hp
  · rfl

theorem step_samples {m : Instrument} {r : Round} (hroom : m.app.queue.items.length < Config.eventQueueMaxSize)
    (hkeys : App.KeysOnly m.app)
    (htemps : ∀ t ∈ reports (Trace.run SensorBus.step m.bus r.inputs).2, IsTemperature t) :
    samples (accepted (step m r).2) = reports (Trace.run SensorBus.step m.bus r.inputs).2 := by
  obtain ⟨rest, hrest, hothers⟩ := App.appLoop_sensor m.app (m.iteration r)
  have hgenuine : ∀ o ∈ rest, o.Genuine := by
    intro o ho
    exact (App.appLoop_honest (m.iteration r) m.app).genuine hkeys o (by rw [hrest]; exact List.mem_append_right _ ho)
  have hstep : (step m r).2 = (App.pollSensor (m.app.interrupts (m.iteration r).head)).2 ++ rest := hrest
  have hpoll : (Trace.run SensorBus.step m.bus r.inputs).2 =
      (m.app.interrupts (m.iteration r).head).sensor.poll.2 := by
    rw [run_inputs, head_sensor]
    rfl
  rw [hpoll] at htemps ⊢
  rw [hstep, App.accepted_append, samples_append, samples_others hgenuine hothers, List.append_nil]
  refine callbacks_samples (DS18B20.poll_reports _) htemps ?_
  show (m.app.interrupts (m.iteration r).head).queue.items.length < _
  rw [App.interrupts_queue]
  exact hroom

/-- **What the driver reports, and nothing else, is accepted as a sample.** -/
theorem run_samples (s : Slave Reading) (rs : List Round) :
    samples (accepted (Trace.run step (boot s) rs).2) =
      reports (Trace.run SensorBus.step (SensorBus.boot s) (rs.flatMap Round.inputs)).2 := by
  induction rs using List.reverseRecOn with
  | nil => rfl
  | append_singleton rs r ih =>
    have hbus : (Trace.run step (boot s) rs).1.bus =
        (Trace.run SensorBus.step (SensorBus.boot s) (rs.flatMap Round.inputs)).1 := run_bus (boot s) rs
    obtain ⟨is, -, hrun⟩ := run_app (boot s) rs
    have hqueue := App.queueInv_run is
    have hkeys := (Trace.run_invariant App.GenuineInv App.genuineInv_step App.genuineInv_boot is).keys
    rw [show Trace.run appLoop App.boot is = _ from hrun] at hqueue hkeys
    have htemps := SensorBus.reports_temperature s ((rs ++ [r]).flatMap Round.inputs)
    have hreports : reports (Trace.run SensorBus.step (SensorBus.boot s) ((rs ++ [r]).flatMap Round.inputs)).2 =
        reports (Trace.run SensorBus.step (SensorBus.boot s) (rs.flatMap Round.inputs)).2 ++
          reports (Trace.run SensorBus.step (Trace.run step (boot s) rs).1.bus r.inputs).2 := by
      rw [List.flatMap_append, List.flatMap_singleton, Trace.run_append, DS18B20.reports_append, hbus]
    rw [hreports] at htemps ⊢
    rw [Trace.run_snoc, App.accepted_append, samples_append, ih, step_samples hqueue.room hkeys]
    exact fun t ht => htemps t (List.mem_append_right _ ht)

/-! ## How far behind -/

/-- In fifteen iterations everything that waited is dispatched. -/
theorem queue_served (pre post : List Iteration) (hlong : 15 ≤ post.length) :
    accepted (Trace.run appLoop App.boot pre).2 <+: dispatched (Trace.run appLoop App.boot (pre ++ post)).2 := by
  have hpre := App.queueInv_run pre
  obtain ⟨rounds, hlength, hrun⟩ := App.run_rounds (Trace.run appLoop App.boot pre).1 post
  have hserved := Fifo.rounds_progress (Trace.run appLoop App.boot pre).1.queue rounds
  have henough : (Trace.run appLoop App.boot pre).1.queue.items.length ≤ rounds.length := by
    rw [hlength]
    exact Nat.le_trans (Nat.le_of_lt_succ hpre.room) hlong
  rw [hrun, ← App.dispatched_eq, List.take_of_length_le henough] at hserved
  rw [Trace.run_append, App.dispatched_append, hpre.accounted]
  exact (List.prefix_append_right_inj _).mpr hserved

theorem inputs_length (r : Round) : r.inputs.length ≤ 2 := by
  unfold Round.inputs
  split
  · exact Nat.le_refl 2
  · exact Nat.le_succ 1

theorem flatMap_inputs_length (rs : List Round) : (rs.flatMap Round.inputs).length ≤ 2 * rs.length := by
  induction rs with
  | nil => exact Nat.le_refl 0
  | cons r rs ih =>
    have hone := inputs_length r
    rw [List.flatMap_cons, List.length_append, List.length_cons]
    omega

/-- What was reported fifteen rounds ago has been dispatched. -/
theorem reports_served (s : Slave Reading) (pre post : List Round) (hlong : 15 ≤ post.length) :
    (reports (Trace.run SensorBus.step (SensorBus.boot s) (pre.flatMap Round.inputs)).2).length ≤
      (samples (dispatched (Trace.run step (boot s) (pre ++ post)).2)).length := by
  obtain ⟨is, -, hpre⟩ := run_app (boot s) pre
  obtain ⟨js, hlength, hpost⟩ := run_app (Trace.run step (boot s) pre).1 post
  have hboot : Trace.run appLoop App.boot is = ((Trace.run step (boot s) pre).1.app, (Trace.run step (boot s) pre).2) :=
    hpre
  have hserved := queue_served is js (by rw [hlength]; exact hlong)
  rw [Trace.run_append, hboot, hpost] at hserved
  rw [← run_samples, Trace.run_append]
  exact (hserved.filterMap _).length_le

/-- The controller is at most three samples behind. -/
theorem reports_behind (s : Slave Reading) (rs : List Round) :
    (reports (Trace.run SensorBus.step (SensorBus.boot s) (rs.flatMap Round.inputs)).2).length ≤
      (samples (dispatched (Trace.run step (boot s) rs).2)).length + 3 := by
  have hsplit : rs.take (rs.length - 15) ++ rs.drop (rs.length - 15) = rs := List.take_append_drop _ rs
  have hshort : (rs.drop (rs.length - 15)).length ≤ 15 := by rw [List.length_drop]; omega
  have hinputs := flatMap_inputs_length (rs.drop (rs.length - 15))
  have hrate := SensorBus.reports_rate s ((rs.take (rs.length - 15)).flatMap Round.inputs)
    ((rs.drop (rs.length - 15)).flatMap Round.inputs) (by omega)
  rw [← List.flatMap_append, hsplit] at hrate
  refine Nat.le_trans hrate (Nat.add_le_add_right ?_ 3)
  by_cases hlong : 15 ≤ rs.length
  · have hserved := reports_served s (rs.take (rs.length - 15)) (rs.drop (rs.length - 15))
      (by rw [List.length_drop]; omega)
    rw [hsplit] at hserved
    exact hserved
  · -- too early for any report to have come in so long ago
    rw [show rs.length - 15 = 0 by omega]
    exact Nat.zero_le _

/-! ## The results -/

theorem samples_last {log : List Event} {v : Int} : (samples log).getLast? = some v ↔ LastSample log v := by
  constructor
  · induction log using List.reverseRecOn with
    | nil => exact nofun
    | append_singleton log e ih =>
      rw [samples_append]
      intro h
      by_cases he : e.type = .temperatureReady
      · obtain ⟨type, value⟩ := e
        obtain rfl : type = .temperatureReady := he
        obtain rfl : value = v := by simpa [samples] using h
        exact LastSample.snoc_sample log value
      · have hnone : samples [e] = [] := by simp [samples, he]
        rw [hnone, List.append_nil] at h
        exact (ih h).snoc he
  · rintro ⟨before, after, rfl, hafter⟩
    have hnone : samples after = [] := by
      apply List.filterMap_eq_nil_iff.mpr
      exact fun e he => if_neg (hafter e he)
    have hsample : samples (⟨.temperatureReady, v⟩ :: after) = [v] := by
      show v :: samples after = [v]
      rw [hnone]
    rw [samples_append, hsample, List.getLast?_concat]

/-- The measurements that have been dispatched, and the others. -/
theorem history_split (s : Slave Reading) (rs : List Round) :
    ∃ shown behind, (Trace.run step (boot s) rs).1.slave.history = shown ++ behind ∧ behind.length ≤ 4 ∧
      shown.map Reading.temp = samples (dispatched (Trace.run step (boot s) rs).2) := by
  obtain ⟨is, -, hrun⟩ := run_app (boot s) rs
  have hqueue := App.queueInv_run is
  rw [show Trace.run appLoop App.boot is = _ from hrun] at hqueue
  have hsplit : samples (accepted (Trace.run step (boot s) rs).2) =
      samples (dispatched (Trace.run step (boot s) rs).2) ++
        samples (Trace.run step (boot s) rs).1.app.queue.items := by
    rw [← samples_append]
    exact congrArg samples hqueue.accounted
  have hbus : (Trace.run step (boot s) rs).1.slave =
      (Trace.run SensorBus.step (SensorBus.boot s) (rs.flatMap Round.inputs)).1.slave :=
    congrArg SensorBus.slave (run_bus (boot s) rs)
  obtain ⟨waiting, hone, hhistory⟩ := (SensorBus.run_inv s (rs.flatMap Round.inputs)).reported
  have hbehind := reports_behind s rs
  rw [← hbus, ← run_samples, hsplit, List.append_assoc] at hhistory
  have hlength := congrArg List.length hhistory
  rw [← run_samples, hsplit, List.length_append] at hbehind
  rw [List.length_map, List.length_append, List.length_append] at hlength
  refine ⟨_, _, (List.take_append_drop (samples (dispatched (Trace.run step (boot s) rs).2)).length _).symm, ?_, ?_⟩
  · rw [List.length_drop]
    omega
  · rw [List.map_take, hhistory, List.take_left]

/-- **The controller is given what the sensor measures**, and shows and uses it. Whatever state the sensor and the
    panel were in at power-on, whatever the sensor measures and whenever its edges come, and whatever the keys, the
    serial port and the timer do: of the measurements that were ever started, all but the last four at most have
    been dispatched as samples, once and in order, and no other sample has been. The panel shows the setpoint, or
    the last measurement that was dispatched, and the heater is on for that one only. -/
theorem shows_measurements (s : Slave Reading) (w : Watcher) (rs : List Round) :
    let m := (Trace.run step (boot s) rs).1
    ∃ shown behind display heater, m.slave.history = shown ++ behind ∧ behind.length ≤ 4 ∧
      shown.map Reading.temp = samples (dispatched (Trace.run step (boot s) rs).2) ∧
      m.app.ctrl.display = some display ∧ (watch w (HT1621B.new.wires ++ display.wires)).2.Running ∧
      (if m.app.ctrl.showingSetpoint then
        Controller.Displays (watch w (HT1621B.new.wires ++ display.wires)).2.ram '2' m.app.ctrl.setpoint
      else ∀ r, shown.getLast? = some r →
        Controller.Displays (watch w (HT1621B.new.wires ++ display.wires)).2.ram '1' r.temp) ∧
      m.app.ctrl.heater = some heater ∧
      (heater.ccr1 ≠ 0 → ∃ r, shown.getLast? = some r ∧
        r.temp ≤ m.app.ctrl.setpoint + Config.controllerErrorDelta) := by
  intro m
  obtain ⟨shown, behind, hhistory, hbehind, hshown⟩ := history_split s rs
  obtain ⟨is, -, hrun⟩ := run_app (boot s) rs
  have hscreen := App.run_screenInv w is
  have hheat := App.run_heatInv is
  rw [show Trace.run appLoop App.boot is = _ from hrun] at hscreen hheat
  obtain ⟨display, hdisplay, hread⟩ := hscreen.readOut
  have hlast : ∀ v, LastSample (dispatched (Trace.run step (boot s) rs).2) v ↔
      ∃ r, shown.getLast? = some r ∧ r.temp = v := by
    intro v
    rw [← samples_last, ← hshown, List.getLast?_map, Option.map_eq_some_iff]
  refine ⟨shown, behind, display, _, hhistory, hbehind, hshown, hdisplay, ?_, ?_, hheat.wired, ?_⟩
  · rw [HT1621B.watch_append]
    exact hread.running
  · rw [HT1621B.watch_append]
    split_ifs with hshow
    · exact hread.setpoint hshow
    · exact fun r hr => hread.sample (Bool.eq_false_iff.mpr hshow) r.temp ((hlast _).mpr ⟨r, hr, rfl⟩)
  · intro hon
    obtain ⟨hsample, hcool⟩ := hheat.source hon
    obtain ⟨r, hr, hvalue⟩ := (hlast _).mp hsample
    exact ⟨r, hr, by rw [hvalue]; exact hcool⟩

end Instrument
end Thermostat
