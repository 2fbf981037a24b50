import Thermostat.App.AppLoop
import Thermostat.Drivers.Correctness.Cycle
import Thermostat.Lib.Rounds

/-!
# `App.Correctness.Delivery` — no temperature sample is lost

An iteration of the main loop is a round of the event queue: the stages up to the timer only offer
events, and then one event is taken out (`appLoop_round`). The sensor is polled first, so its sample is
the first offer of its round (`sensor_first`), and the queue of 16 never refuses that one.
-/

namespace Thermostat
namespace App

open Fifo (Traffic)

/-! ## The traffic of the queue -/

def Effect.traffic : Effect → Option (Traffic Event)
  | .push _ e ok => some (.offered e ok)
  | .dispatch e  => some (.taken e)
  | .iwdgReload  => none

def traffic (es : List Effect) : List (Traffic Event) := es.filterMap Effect.traffic

/-- The events that were pushed, with or without success. -/
def offered (es : List Effect) : List Event :=
  es.filterMap (fun o => match o with | .push _ e _ => some e | _ => none)

/-- The events that the queue took in. -/
def accepted (es : List Effect) : List Event :=
  es.filterMap (fun o => match o with | .push _ e true => some e | _ => none)

/-- The events that were handed to the controller. -/
def dispatched (es : List Effect) : List Event :=
  es.filterMap (fun o => match o with | .dispatch e => some e | _ => none)

theorem traffic_append (es fs : List Effect) : traffic (es ++ fs) = traffic es ++ traffic fs :=
  List.filterMap_append

theorem offered_append (es fs : List Effect) : offered (es ++ fs) = offered es ++ offered fs :=
  List.filterMap_append

@[simp] theorem accepted_append (es fs : List Effect) : accepted (es ++ fs) = accepted es ++ accepted fs :=
  List.filterMap_append

@[simp] theorem accepted_push (p : Producer) (e : Event) (es : List Effect) :
    accepted (.push p e true :: es) = e :: accepted es := rfl

@[simp] theorem dispatched_append (es fs : List Effect) :
    dispatched (es ++ fs) = dispatched es ++ dispatched fs :=
  List.filterMap_append

/-- The accepted events, and the dispatched ones, as the queue sees them. -/
theorem accepted_eq (es : List Effect) : accepted es = Fifo.accepted (traffic es) := by
  unfold accepted Fifo.accepted traffic
  rw [List.filterMap_filterMap]
  congr 1
  funext o
  cases o with
  | push p e ok => cases ok <;> rfl
  | _ => rfl

theorem dispatched_eq (es : List Effect) : dispatched es = Fifo.taken (traffic es) := by
  unfold dispatched Fifo.taken traffic
  rw [List.filterMap_filterMap]
  congr 1
  funext o
  cases o <;> rfl

/-! ## Stages that only offer -/

/-- The queue after a stage is the queue before it with the stage's pushes offered one by one, and the
    producers of these pushes satisfy `P`. -/
structure FeedsAt (P : Producer → Prop) (q : EventQueue) (r : App × List Effect) : Prop where
  queue : Trace.run Fifo.step q ((offered r.2).map Fifo.Op.offer) = (r.1.queue, traffic r.2)
  source : ∀ p e ok, Effect.push p e ok ∈ r.2 → P p

def Feeds (P : Producer → Prop) (f : App → App × List Effect) : Prop := ∀ a, FeedsAt P a.queue (f a)

variable {P : Producer → Prop}

/-- A stage without effects that leaves the queue alone. -/
theorem feedsAt_quiet {q : EventQueue} {a : App} (h : a.queue = q) : FeedsAt P q (a, []) := by
  refine ⟨?_, ?_⟩
  · rw [← h]
    rfl
  · intro p e ok hmem
    cases hmem

/-- A push is an offer to the queue, by its producer. -/
theorem push_feeds (p : Producer) (e : Event) : Feeds (· = p) (push p e) := by
  intro a
  refine ⟨rfl, ?_⟩
  intro p' e' ok hmem
  have heq := List.mem_singleton.mp hmem
  cases heq
  rfl

/-- Two stages, one after the other. -/
theorem FeedsAt.append {q : EventQueue} {r s : App × List Effect} (hr : FeedsAt P q r)
    (hs : FeedsAt P r.1.queue s) : FeedsAt P q (s.1, r.2 ++ s.2) := by
  refine ⟨?_, ?_⟩
  · rw [offered_append, List.map_append, Trace.run_append, hr.queue, hs.queue, traffic_append]
  · intro p e ok hmem
    rcases List.mem_append.mp hmem with h | h
    · exact hr.source p e ok h
    · exact hs.source p e ok h

/-- **A sequence of stages** feeds the queue if each of them does. -/
theorem feeds_seq {fs : List (App → App × List Effect)} (h : ∀ f ∈ fs, Feeds P f) :
    Feeds P (Trace.seq fs) := by
  apply Trace.seq_induction (P := Feeds P)
  · intro a
    exact feedsAt_quiet rfl
  · intro f g hf hg a
    exact (hf a).append (hg (f a).1)
  · exact h

/-- A wider set of producers. -/
theorem Feeds.mono {Q : Producer → Prop} (hPQ : ∀ p, P p → Q p) {f : App → App × List Effect}
    (h : Feeds P f) : Feeds Q f := by
  intro a
  exact ⟨(h a).queue, fun p e ok hmem => hPQ p ((h a).source p e ok hmem)⟩

/-! ## The stages of an iteration -/

/-- Interrupts do not touch the queue. -/
theorem take_feeds (is : List Interrupt) : Feeds P (take is) := by
  intro a
  exact feedsAt_quiet (interrupts_queue a is)

/-- The callback pushes a temperature, and of an error code nothing. -/
theorem ds18b20TempReady_feeds (temp : Int) : Feeds (· = .sensor) (ds18b20TempReady temp) := by
  intro a
  unfold ds18b20TempReady
  split_ifs
  · exact feedsAt_quiet rfl
  · exact feedsAt_quiet rfl
  · exact feedsAt_quiet rfl
  · exact push_feeds .sensor ⟨.temperatureReady, temp⟩ a

/-- What the driver does reaches the queue through its callback only. -/
theorem sensorEffect_feeds (o : DS18B20.Effect) : Feeds (· = .sensor) (sensorEffect o) := by
  cases o with
  | tempReady temp => exact ds18b20TempReady_feeds temp
  | _ =>
      intro a
      exact feedsAt_quiet rfl

theorem pollSensor_feeds : Feeds (· = .sensor) pollSensor := by
  intro a
  have hseq : Feeds (· = .sensor) (Trace.seq (a.sensor.poll.2.map sensorEffect)) := by
    apply feeds_seq
    intro f hf
    obtain ⟨o, -, rfl⟩ := List.mem_map.mp hf
    exact sensorEffect_feeds o
  exact hseq { a with sensor := a.sensor.poll.1 }

/-- The buttons push what their manager reports, one event after the other. -/
theorem pollButtons_feeds (keys : KeyReadings) : Feeds (· = .buttons) (pollButtons keys) := by
  intro a
  have hseq : Feeds (· = .buttons) (Trace.seq ((a.buttons.poll keys).2.map (push .buttons))) := by
    apply feeds_seq
    intro f hf
    obtain ⟨e, -, rfl⟩ := List.mem_map.mp hf
    exact push_feeds .buttons e
  exact hseq { a with buttons := (a.buttons.poll keys).1 }

/-- The release of a serial key, if it is due. -/
theorem releaseKey_feeds (now : UInt32) : Feeds (· = .uart) (releaseKey now) := by
  intro a
  unfold releaseKey
  cases a.pendingUartRelease with
  | none => exact feedsAt_quiet rfl
  | some e =>
      by_cases hdue : now ≥ a.pendingUartReleaseDeadline
      · have hpush := push_feeds .uart e a
        simp only [if_pos hdue]
        exact ⟨hpush.queue, hpush.source⟩
      · simp only [if_neg hdue]
        exact feedsAt_quiet rfl

theorem pressKey_feeds (byte : Int) (now : UInt32) : Feeds (· = .uart) (pressKey byte now) := by
  intro a
  unfold pressKey
  cases keyOf byte with
  | none => exact feedsAt_quiet rfl
  | some type =>
      have hpush := push_feeds .uart ⟨type, 0⟩ a
      exact ⟨hpush.queue, hpush.source⟩

/-- By induction on the turns of the loop: each takes interrupts, and pushes a key if there is one. -/
theorem readKeys_feeds (xs : List Arrival) : Feeds (· = .uart) (readKeys xs) := by
  induction xs with
  | nil =>
      intro a
      exact feedsAt_quiet rfl
  | cons x xs ih =>
      intro a
      cases hitems : (a.interrupts x.irqs).uart.rxBuf.items with
      | nil =>
          rw [readKeys_empty hitems]
          exact feedsAt_quiet (interrupts_queue a x.irqs)
      | cons byte bytes =>
          obtain ⟨a', -, hqueue, hloop⟩ := readKeys_cons hitems xs
          rw [hloop, ← hqueue]
          apply feeds_seq
          intro f hf
          rcases List.mem_cons.mp hf with rfl | hf
          · exact pressKey_feeds _ _
          · rw [List.mem_singleton.mp hf]
            exact ih

theorem timerTick_feeds : Feeds (· = .timer) timerTick := by
  intro a
  unfold timerTick
  split_ifs
  · simp only
    split_ifs
    · exact push_feeds .timer ⟨.tick100ms, 0⟩ { a with tim17 := a.tim17.decIrqCount, tick100 := 0 }
    · exact feedsAt_quiet rfl
  · exact feedsAt_quiet rfl

/-- The stages between the sensor and the queue. -/
def middle (i : Iteration) : List (App → App × List Effect) :=
  [ pollButtons i.keys,
    pollCtrl i.ctrlNow,
    pollBeep i.beepNow,
    releaseKey i.releaseNow,
    readKeys (i.arrivals ++ quiet i.lateNow),
    take i.timer,
    timerTick ]

/-- Between the sensor and the queue nobody pushes for the sensor. -/
theorem middle_feeds (i : Iteration) : Feeds (· ≠ .sensor) (Trace.seq (middle i)) := by
  apply feeds_seq
  intro f hf
  simp only [middle, List.mem_cons, List.not_mem_nil, or_false] at hf
  rcases hf with rfl | rfl | rfl | rfl | rfl | rfl | rfl
  · exact (pollButtons_feeds i.keys).mono (by simp)
  · exact fun a => feedsAt_quiet rfl
  · exact fun a => feedsAt_quiet rfl
  · exact (releaseKey_feeds i.releaseNow).mono (by simp)
  · exact (readKeys_feeds _).mono (by simp)
  · exact take_feeds i.timer
  · exact timerTick_feeds.mono (by simp)

/-! ## An iteration is a round -/

/-- The stages up to the timer. -/
def front (i : Iteration) : App → App × List Effect :=
  Trace.seq [take i.head, pollSensor, Trace.seq (middle i)]

/-- All stages before the queue only feed it. -/
theorem front_feeds (i : Iteration) : Feeds (fun _ => True) (front i) := by
  apply feeds_seq
  intro f hf
  simp only [List.mem_cons, List.not_mem_nil, or_false] at hf
  rcases hf with rfl | rfl | rfl
  · exact take_feeds i.head
  · exact pollSensor_feeds.mono (fun _ _ => trivial)
  · exact (middle_feeds i).mono (fun _ _ => trivial)

/-- An iteration: what feeds the queue, then the queue, then the watchdog. -/
theorem appLoop_eq (a : App) (i : Iteration) :
    appLoop a i
      = ((processQueue i.dispatchNow (front i a).1).1,
         (front i a).2 ++ (processQueue i.dispatchNow (front i a).1).2 ++ [.iwdgReload]) := by
  simp only [appLoop, front, middle, Trace.seq_cons, Trace.seq_nil, List.append_nil, List.append_assoc]
  rfl

/-- The queue stage serves the queue. -/
theorem processQueue_serve (now : UInt32) (a : App) :
    a.queue.serve = ((processQueue now a).1.queue, traffic (processQueue now a).2) := by
  unfold processQueue EventQueue.pop Fifo.serve
  cases a.queue.front with
  | none => rfl
  | some e =>
      show _ = ((dispatchEvent e now _).1.queue, _)
      rw [dispatchEvent_queue]
      rfl

/-- The queue stage offers nothing. -/
theorem processQueue_offered (now : UInt32) (a : App) : offered (processQueue now a).2 = [] := by
  unfold processQueue EventQueue.pop
  cases a.queue.front <;> rfl

/-- **An iteration of the main loop is a round of its queue.** -/
theorem appLoop_round (a : App) (i : Iteration) :
    a.queue.round (offered (appLoop a i).2) = ((appLoop a i).1.queue, traffic (appLoop a i).2) := by
  have hfront := (front_feeds i a).queue
  have hserve := processQueue_serve i.dispatchNow (front i a).1
  have hoffered : offered (appLoop a i).2 = offered (front i a).2 := by
    rw [appLoop_eq, offered_append, offered_append, processQueue_offered]
    show offered (front i a).2 ++ [] ++ [] = _
    rw [List.append_nil, List.append_nil]
  rw [hoffered, appLoop_eq]
  unfold Fifo.round
  rw [Trace.run_snoc, hfront]
  simp only [Fifo.step, hserve, traffic_append]
  rw [show traffic [Effect.iwdgReload] = [] from rfl, List.append_nil]

/-- **The account of an iteration**: what was queued and what was accepted is what was dispatched and what is queued. -/
theorem appLoop_accepted (a : App) (i : Iteration) :
    a.queue.items ++ accepted (appLoop a i).2
      = dispatched (appLoop a i).2 ++ (appLoop a i).1.queue.items := by
  have hledger := Fifo.ledger a.queue ((offered (appLoop a i).2).map Fifo.Op.offer ++ [.serve])
  have hround := appLoop_round a i
  unfold Fifo.round at hround
  rw [hround] at hledger
  rw [accepted_eq, dispatched_eq]
  exact hledger

/-! ## The sensor comes first -/

/-- The callback leaves at most one effect for a report, and none for anything else. -/
theorem callbacks_length (es : List DS18B20.Effect) (a : App) :
    (Trace.seq (es.map sensorEffect) a).2.length ≤ (DS18B20.reports es).length := by
  induction es generalizing a with
  | nil => exact Nat.le_refl 0
  | cons o es ih =>
      rw [List.map_cons, Trace.seq_cons, List.length_append]
      have hrest := ih (sensorEffect o a).1
      cases o with
      | tempReady temp =>
          have hone : (sensorEffect (.tempReady temp) a).2.length ≤ 1 := by
            show (ds18b20TempReady temp a).2.length ≤ 1
            unfold ds18b20TempReady
            split_ifs <;> simp [push]
          show _ ≤ (DS18B20.reports es).length + 1
          omega
      | _ =>
          show 0 + _ ≤ (DS18B20.reports es).length
          rw [Nat.zero_add]
          exact hrest

/-- The sensor pushes at most once in an iteration. -/
theorem pollSensor_length (a : App) : (pollSensor a).2.length ≤ 1 := by
  have hcallbacks := callbacks_length a.sensor.poll.2 { a with sensor := a.sensor.poll.1 }
  exact hcallbacks.trans (DS18B20.poll_reports a.sensor)

/-- The queue stage pushes nothing. -/
theorem processQueue_pushes (now : UInt32) (a : App) (p : Producer) (e : Event) (ok : Bool) :
    Effect.push p e ok ∉ (processQueue now a).2 := by
  unfold processQueue EventQueue.pop
  cases a.queue.front with
  | none => exact List.not_mem_nil
  | some d =>
      intro hmem
      cases List.mem_singleton.mp hmem

/-- **A push by the sensor is the first thing that happens in its iteration.** -/
theorem sensor_first {a : App} {i : Iteration} {before after : List Effect} {e : Event} {ok : Bool}
    (h : (appLoop a i).2 = before ++ .push .sensor e ok :: after) : before = [] := by
  obtain ⟨b, rest, hsplit, hlength, hrest⟩ : ∃ b rest, (appLoop a i).2 = (pollSensor b).2 ++ rest ∧
      (pollSensor b).2.length ≤ 1 ∧ Effect.push .sensor e ok ∉ rest := by
    let b := (take i.head a).1
    let m := Trace.seq (middle i) (pollSensor b).1
    refine ⟨b, m.2 ++ (processQueue i.dispatchNow m.1).2 ++ [.iwdgReload], ?_, pollSensor_length b, ?_⟩
    · rw [appLoop_eq]
      simp only [front, Trace.seq_cons, Trace.seq_nil, List.append_nil, List.append_assoc]
      rfl
    · intro hmem
      rcases List.mem_append.mp hmem with hmem | hmem
      · rcases List.mem_append.mp hmem with hmem | hmem
        · exact (middle_feeds i (pollSensor b).1).source _ _ _ hmem rfl
        · exact processQueue_pushes _ _ _ _ _ hmem
      · cases List.mem_singleton.mp hmem
  rw [hsplit] at h
  -- the push lies among the effects of the sensor's stage, which are one at most
  rcases List.append_eq_append_iff.mp h with ⟨gap, -, hgap⟩ | ⟨gap, hsensor, hgap⟩
  · exact absurd (by rw [hgap]; simp) hrest
  · cases gap with
    | nil => exact absurd (by rw [← List.nil_append rest, ← hgap]; simp) hrest
    | cons o gap =>
        rw [hsensor, List.length_append, List.length_cons] at hlength
        exact List.length_eq_zero_iff.mp (by omega)

/-! ## Whole runs -/

/-- What holds between two iterations, `es` being all effects so far: there is room in the queue, and what
    it accepted is what was dispatched, followed by what is queued. -/
structure QueueInv (a : App) (es : List Effect) : Prop where
  room : a.queue.items.length < Config.eventQueueMaxSize
  accounted : accepted es = dispatched es ++ a.queue.items

theorem queueInv_boot : QueueInv boot [] := ⟨by decide, rfl⟩

/-- An iteration leaves room, as it serves the queue last. -/
theorem queueInv_step (a : App) (es : List Effect) (i : Iteration) (h : QueueInv a es) :
    QueueInv (appLoop a i).1 (es ++ (appLoop a i).2) := by
  refine ⟨?_, ?_⟩
  · have hroom := Fifo.round_room (by decide) a.queue (offered (appLoop a i).2)
    rw [appLoop_round] at hroom
    exact hroom
  · rw [accepted_append, dispatched_append, h.accounted, List.append_assoc, appLoop_accepted,
      List.append_assoc]

/-- **The queue after any run.** -/
theorem queueInv_run (is : List Iteration) :
    QueueInv (Trace.run appLoop boot is).1 (Trace.run appLoop boot is).2 := by
  have hinv := Trace.run_invariant QueueInv queueInv_step queueInv_boot is
  rwa [List.nil_append] at hinv

/-- Every run of the main loop is a run of rounds. -/
theorem run_rounds (a : App) (is : List Iteration) :
    ∃ rounds : List (List Event), rounds.length = is.length ∧
      Trace.run Fifo.round a.queue rounds
        = ((Trace.run appLoop a is).1.queue, traffic (Trace.run appLoop a is).2) :=
  Trace.run_refines (·.queue) Effect.traffic (fun a i => offered (appLoop a i).2) appLoop_round a is

/-- **A push is refused exactly when sixteen events are queued**, whoever makes it. -/
theorem push_accepted {is : List Iteration} {before after : List Effect} {p : Producer} {e : Event}
    {ok : Bool} (h : (Trace.run appLoop boot is).2 = before ++ .push p e ok :: after) :
    ok = true ↔ (accepted before).length < (dispatched before).length + Config.eventQueueMaxSize := by
  obtain ⟨rounds, -, hrun⟩ := run_rounds boot is
  have hops : Trace.run Fifo.round boot.queue rounds = _ :=
    Trace.run_flatMap (fun _ _ => rfl) boot.queue rounds
  rw [hrun, h, traffic_append] at hops
  have hok := Fifo.offered_ok (congrArg Prod.snd hops).symm
  have hempty : boot.queue.items.length = 0 := rfl
  rw [accepted_eq, dispatched_eq, hok, hempty, Nat.zero_add, Nat.add_comm _ Config.eventQueueMaxSize]

/-- A sample that is pushed into a queue with room is accepted, and comes out behind what is queued, at the
    latest in the sixteenth iteration. -/
theorem sample_served {a : App} {i : Iteration} {es : List Effect} {e : Event} {ok : Bool}
    (hroom : a.queue.items.length < Config.eventQueueMaxSize)
    (h : (appLoop a i).2 = .push .sensor e ok :: es) :
    ok = true ∧ ∀ is : List Iteration, 15 ≤ is.length →
      a.queue.items ++ [e] <+: dispatched (Trace.run appLoop a (i :: is)).2 := by
  have hround := appLoop_round a i
  rw [h] at hround
  -- the sample is the first offer of the round
  change a.queue.round (e :: offered es) = (_, Traffic.offered e ok :: traffic es) at hround
  refine ⟨?_, ?_⟩
  · rw [Fifo.round_cons hroom] at hround
    have hhead := (List.cons.inj (congrArg Prod.snd hround)).1
    cases hhead
    rfl
  · intro is hlong
    obtain ⟨rounds, hlength, hrun⟩ := run_rounds (appLoop a i).1 is
    have henough : Config.eventQueueMaxSize ≤ rounds.length + 1 := by
      rw [hlength]
      exact Nat.succ_le_succ hlong
    have htaken := Fifo.first_offer_taken hroom e (offered es) henough
    rw [Trace.run_cons, hround, hrun] at htaken
    rw [dispatched_eq, Trace.run_cons, traffic_append, h]
    exact htaken

/-- The effects of a run that is split at one of its iterations. -/
theorem run_split (pre post : List Iteration) (i : Iteration) :
    (Trace.run appLoop boot (pre ++ i :: post)).2
      = (Trace.run appLoop boot pre).2
        ++ (Trace.run appLoop (Trace.run appLoop boot pre).1 (i :: post)).2 := by
  rw [Trace.run_append]

/-- An iteration with these interrupts at its head; no key is pressed and no time goes by. -/
def calm (head : List Interrupt) : Iteration where
  head := head
  keys := ⟨⟨0, 0, true⟩, ⟨0, 0, true⟩, ⟨0, 0, true⟩, ⟨0, 0, true⟩, ⟨0, true, true⟩⟩
  ctrlNow := 0
  beepNow := 0
  releaseNow := 0
  arrivals := []
  lateNow := 0
  timer := []
  dispatchNow := 0

/-- A measurement up to the poll in `READ`, during which sixteen key bytes come in on the serial port. -/
def flooded : List Iteration :=
  [ calm [],
    calm [.capture 500, .capture 600, .expire],
    calm [.expire],
    calm [.expire],
    calm [.capture 500, .capture 600, .expire],
    { calm [.expire] with arrivals := List.replicate 16 ⟨[.arrive 0x31, .usart1], 0⟩ } ]

/-- The sensor sends a frame, and the driver decodes it. -/
def decoding (bytes : List UInt8) : Iteration :=
  calm ((bytes.flatMap DS18B20.byteToPulses).map (fun p => .capture p.toUInt16) ++ [.expire])

/-- The bound is sharp: with one iteration less, the sample is still queued behind the key presses. -/
example : (⟨.temperatureReady, 850⟩ : Event) ∉ dispatched (Trace.run appLoop boot
    (flooded ++ decoding DS18B20.powerOnFrame :: List.replicate 14 (calm []))).2 := by
  decide +kernel

end App
end Thermostat
