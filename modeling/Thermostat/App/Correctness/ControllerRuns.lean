import Thermostat.App.Correctness.Delivery
import Thermostat.App.Correctness.Samples

/-!
# `App.Correctness.ControllerRuns` — the controller in the main loop

In an iteration the controller is polled once and gets the event that is dispatched, if there is one; the
beeper that it owns is also driven past it. Every other stage stands aside (`Aside`). So an invariant of the
controller and the dispatched events that is kept by `poll` and by `processEvent`, and does not look at the
beeper, holds in every run of the main loop (`run_ctrl_invariant`).

The same pass over the stages says where samples come from: nobody but the sensor pushes one
(`run_genuine`).
-/

namespace Thermostat

/-- The keys push no samples. -/
theorem ButtonsManager.poll_type (m : ButtonsManager) (r : KeyReadings) :
    ∀ e ∈ (m.poll r).2, e.type ≠ .temperatureReady := by
  intro e he
  rw [poll_events, List.mem_append, List.mem_flatten] at he
  rcases he with ⟨es, hes, hkey⟩ | hcombo
  · obtain ⟨k, rfl⟩ := List.mem_ofFn.mp hes
    rw [handle_type _ _ _ _ e hkey]
    fin_cases k <;> exact nofun
  · simp [checkCombination_type _ _ e hcombo]

namespace App

/-! ## Stages that stand aside -/

/-- The release that waits is no sample. -/
def KeysOnly (a : App) : Prop := ∀ e ∈ a.pendingUartRelease, e.type ≠ .temperatureReady

/-- If the effect pushes a sample, then the sensor does it. -/
def Effect.Genuine : Effect → Prop
  | .push p e _ => e.type = .temperatureReady → p = .sensor
  | _           => True

/-- No sample gets in but by the sensor. -/
structure HonestAt (a : App) (r : App × List Effect) : Prop where
  keys : KeysOnly a → KeysOnly r.1
  genuine : KeysOnly a → ∀ o ∈ r.2, o.Genuine

/-- The controller is as it was, and nothing has been dispatched. -/
structure AsideAt (a : App) (r : App × List Effect) : Prop extends HonestAt a r where
  ctrl : r.1.ctrl = a.ctrl
  undispatched : dispatched r.2 = []

def Honest (f : App → App × List Effect) : Prop := ∀ a, HonestAt a (f a)

def Aside (f : App → App × List Effect) : Prop := ∀ a, AsideAt a (f a)

theorem Aside.honest {f : App → App × List Effect} (h : Aside f) : Honest f := fun a => (h a).toHonestAt

/-- Two honest stages, one after the other. -/
theorem HonestAt.append {a : App} {r s : App × List Effect} (hr : HonestAt a r) (hs : HonestAt r.1 s) :
    HonestAt a (s.1, r.2 ++ s.2) := by
  refine ⟨fun h => hs.keys (hr.keys h), ?_⟩
  intro h o ho
  rcases List.mem_append.mp ho with hmem | hmem
  · exact hr.genuine h o hmem
  · exact hs.genuine (hr.keys h) o hmem

/-- Two stages that stand aside do so together. -/
theorem AsideAt.append {a : App} {r s : App × List Effect} (hr : AsideAt a r) (hs : AsideAt r.1 s) :
    AsideAt a (s.1, r.2 ++ s.2) := by
  refine ⟨hr.toHonestAt.append hs.toHonestAt, hs.ctrl.trans hr.ctrl, ?_⟩
  rw [dispatched_append, hr.undispatched, hs.undispatched]
  rfl

/-- Effects that push nothing, and no new release. -/
theorem honestAt_of_pushless {a b : App} {es : List Effect} (hpending : b.pendingUartRelease = a.pendingUartRelease)
    (hpushless : ∀ p e ok, Effect.push p e ok ∉ es) : HonestAt a (b, es) := by
  refine ⟨?_, ?_⟩
  · intro h e he
    rw [hpending] at he
    exact h e he
  · intro _ o ho
    cases o with
    | push p e ok => exact absurd ho (hpushless p e ok)
    | _ => trivial

/-- A stage without effects that changes neither the controller nor the release that waits. -/
theorem asideAt_quiet {a b : App} (hctrl : b.ctrl = a.ctrl)
    (hpending : b.pendingUartRelease = a.pendingUartRelease) : AsideAt a (b, []) :=
  ⟨honestAt_of_pushless hpending fun _ _ _ => List.not_mem_nil, hctrl, rfl⟩

/-- A sequence of honest stages is honest. -/
theorem honest_seq {fs : List (App → App × List Effect)} (h : ∀ f ∈ fs, Honest f) :
    Honest (Trace.seq fs) := by
  apply Trace.seq_induction (P := Honest)
  · intro a
    exact (asideAt_quiet rfl rfl).toHonestAt
  · intro f g hf hg a
    exact (hf a).append (hg (f a).1)
  · exact h

/-- A sequence of stages that stand aside stands aside. -/
theorem aside_seq {fs : List (App → App × List Effect)} (h : ∀ f ∈ fs, Aside f) : Aside (Trace.seq fs) := by
  apply Trace.seq_induction (P := Aside)
  · intro a
    exact asideAt_quiet rfl rfl
  · intro f g hf hg a
    exact (hf a).append (hg (f a).1)
  · exact h

/-- A push stands aside, if a sample is pushed by the sensor only. -/
theorem push_aside {p : Producer} {e : Event} (he : e.type = .temperatureReady → p = .sensor) :
    Aside (push p e) := by
  intro a
  refine ⟨⟨fun h => h, ?_⟩, rfl, rfl⟩
  intro _ o ho
  rw [List.mem_singleton.mp ho]
  exact he

/-- No handler touches the controller, or the release of a key that is pending. -/
theorem interrupts_aside (is : List Interrupt) (a : App) :
    (a.interrupts is).ctrl = a.ctrl ∧ (a.interrupts is).pendingUartRelease = a.pendingUartRelease := by
  induction is generalizing a with
  | nil => exact ⟨rfl, rfl⟩
  | cons i is ih =>
      obtain ⟨hctrl, hpending⟩ := ih (a.interrupt i)
      have hone : (a.interrupt i).ctrl = a.ctrl ∧
          (a.interrupt i).pendingUartRelease = a.pendingUartRelease := by
        cases i <;> exact ⟨rfl, rfl⟩
      exact ⟨hctrl.trans hone.1, hpending.trans hone.2⟩

theorem take_aside (is : List Interrupt) : Aside (take is) := by
  intro a
  obtain ⟨hctrl, hpending⟩ := interrupts_aside is a
  exact asideAt_quiet hctrl hpending

/-- The callback pushes samples, and for the sensor. -/
theorem sensorEffect_aside (o : DS18B20.Effect) : Aside (sensorEffect o) := by
  intro a
  cases o with
  | tempReady temp =>
      show AsideAt a (ds18b20TempReady temp a)
      unfold ds18b20TempReady
      split_ifs
      · exact asideAt_quiet rfl rfl
      · exact asideAt_quiet rfl rfl
      · exact asideAt_quiet rfl rfl
      · exact push_aside (fun _ => rfl) a
  | _ => exact asideAt_quiet rfl rfl

theorem pollSensor_aside : Aside pollSensor := by
  intro a
  have hseq : Aside (Trace.seq (a.sensor.poll.2.map sensorEffect)) := by
    apply aside_seq
    intro f hf
    obtain ⟨o, -, rfl⟩ := List.mem_map.mp hf
    exact sensorEffect_aside o
  have hpoll := hseq { a with sensor := a.sensor.poll.1 }
  exact ⟨⟨hpoll.keys, hpoll.genuine⟩, hpoll.ctrl, hpoll.undispatched⟩

/-- No event of a button is a sample. -/
theorem pollButtons_aside (keys : KeyReadings) : Aside (pollButtons keys) := by
  intro a
  have hseq : Aside (Trace.seq ((a.buttons.poll keys).2.map (push .buttons))) := by
    apply aside_seq
    intro f hf
    obtain ⟨e, he, rfl⟩ := List.mem_map.mp hf
    exact push_aside (fun htype => absurd htype (a.buttons.poll_type keys e he))
  have hpoll := hseq { a with buttons := (a.buttons.poll keys).1 }
  exact ⟨⟨hpoll.keys, hpoll.genuine⟩, hpoll.ctrl, hpoll.undispatched⟩

/-- The release that is pushed was pending, and is forgotten. -/
theorem releaseKey_aside (now : UInt32) : Aside (releaseKey now) := by
  intro a
  unfold releaseKey
  cases hpending : a.pendingUartRelease with
  | none => exact asideAt_quiet rfl rfl
  | some e =>
      by_cases hdue : now ≥ a.pendingUartReleaseDeadline
      · simp only [if_pos hdue]
        refine ⟨⟨?_, ?_⟩, rfl, rfl⟩
        · intro _ d hd
          cases hd
        · intro hkeys o ho
          rw [List.mem_singleton.mp ho]
          exact fun htype => absurd htype (hkeys e hpending)
      · simp only [if_neg hdue]
        exact asideAt_quiet rfl rfl

/-- Neither a press nor the release that it leaves pending is a sample. -/
theorem pressKey_aside (byte : Int) (now : UInt32) : Aside (pressKey byte now) := by
  intro a
  unfold pressKey
  cases hkey : keyOf byte with
  | none => exact asideAt_quiet rfl rfl
  | some type =>
      refine ⟨⟨?_, ?_⟩, rfl, rfl⟩
      · intro _ d hd
        cases hd
        exact keyOf_type hkey
      · intro _ o ho
        rw [List.mem_singleton.mp ho]
        exact fun htype => absurd htype (keyOf_type hkey)

/-- By induction on the turns of the loop. -/
theorem readKeys_aside (xs : List Arrival) : Aside (readKeys xs) := by
  induction xs with
  | nil => exact fun a => asideAt_quiet rfl rfl
  | cons x xs ih =>
      intro a
      obtain ⟨hctrl, hpending⟩ := interrupts_aside x.irqs a
      unfold readKeys
      simp only
      split_ifs
      -- a byte taken out changes the receive buffer only
      · exact asideAt_quiet hctrl hpending
      · have hloop : Aside (Trace.seq [pressKey (a.interrupts x.irqs).uart.readByte.2 x.now, readKeys xs]) := by
          apply aside_seq
          intro f hf
          rcases List.mem_cons.mp hf with rfl | hf
          · exact pressKey_aside _ _
          · rw [List.mem_singleton.mp hf]
            exact ih
        have htaken : AsideAt a ({ a.interrupts x.irqs with
            uart := (a.interrupts x.irqs).uart.readByte.1 }, []) := asideAt_quiet hctrl hpending
        exact htaken.append (hloop _)
      · exact asideAt_quiet hctrl hpending

theorem timerTick_aside : Aside timerTick := by
  intro a
  unfold timerTick
  split_ifs
  · simp only
    split_ifs
    · have hpush := push_aside (p := .timer) (e := ⟨.tick100ms, 0⟩) (fun htype => by cases htype)
        { a with tim17 := a.tim17.decIrqCount, tick100 := 0 }
      exact ⟨⟨hpush.keys, hpush.genuine⟩, hpush.ctrl, hpush.undispatched⟩
    · exact asideAt_quiet rfl rfl
  · exact asideAt_quiet rfl rfl

/-! ## Invariants of the controller -/

section Invariant

/-- A property of the controller and of the events dispatched so far that an iteration keeps. -/
structure Upheld (I : Controller → List Event → Prop) : Prop where
  beep : ∀ s log b, I s log → I { s with beep := b } log
  poll : ∀ s log now, I s log → I (s.poll now) log
  event : ∀ s log e now, I s log → I (s.processEvent e now) (log ++ [e])

variable {I : Controller → List Event → Prop}

/-- The stage keeps the property. -/
def Upholds (I : Controller → List Event → Prop) (f : App → App × List Effect) : Prop :=
  ∀ a log, I a.ctrl log → I (f a).1.ctrl (log ++ dispatched (f a).2)

/-- Who stands aside changes nothing that is said of controller and log. -/
theorem Aside.upholds {f : App → App × List Effect} (hf : Aside f) : Upholds I f := by
  intro a log h
  rw [(hf a).ctrl, (hf a).undispatched, List.append_nil]
  exact h

/-- A sequence of stages upholds what each of them upholds. -/
theorem upholds_seq {fs : List (App → App × List Effect)} (h : ∀ f ∈ fs, Upholds I f) :
    Upholds I (Trace.seq fs) := by
  apply Trace.seq_induction (P := Upholds I)
  · intro a log ha
    rw [show dispatched ([] : List Effect) = [] from rfl, List.append_nil]
    exact ha
  · intro f g hf hg a log ha
    rw [dispatched_append, ← List.append_assoc]
    exact hg _ _ (hf a log ha)
  · exact h

/-- **The dispatch** is where the controller processes an event, and where the log grows by it. -/
theorem dispatchEvent_upholds (hI : Upheld I) (e : Event) (now : UInt32) : Upholds I (dispatchEvent e now) := by
  intro a log h
  unfold dispatchEvent
  split_ifs
  · exact hI.event _ _ e now (hI.beep _ _ _ h)
  · exact hI.event _ _ e now (hI.beep _ _ _ h)
  · exact hI.event _ _ e now h
  · exact hI.event _ _ e now h

/-- The queue stage dispatches one event, or none. -/
theorem processQueue_upholds (hI : Upheld I) (now : UInt32) : Upholds I (processQueue now) := by
  intro a log h
  unfold processQueue EventQueue.pop
  cases a.queue.front with
  | none =>
      show I a.ctrl (log ++ [])
      rw [List.append_nil]
      exact h
  | some e => exact dispatchEvent_upholds hI e now { a with queue := Fifo.pop a.queue } log h

/-- **An iteration** upholds what the controller upholds. -/
theorem appLoop_upholds (hI : Upheld I) (i : Iteration) : Upholds I (appLoop · i) := by
  apply upholds_seq
  intro f hf
  simp only [List.mem_cons, List.not_mem_nil, or_false] at hf
  rcases hf with rfl | rfl | rfl | rfl | rfl | rfl | rfl | rfl | rfl | rfl | rfl
  · exact (take_aside i.head).upholds
  · exact pollSensor_aside.upholds
  · exact (pollButtons_aside i.keys).upholds
  · intro a log h
    rw [show dispatched (pollCtrl i.ctrlNow a).2 = [] from rfl, List.append_nil]
    exact hI.poll _ _ i.ctrlNow h
  · intro a log h
    rw [show dispatched (pollBeep i.beepNow a).2 = [] from rfl, List.append_nil]
    exact hI.beep _ _ _ h
  · exact (releaseKey_aside i.releaseNow).upholds
  · exact (readKeys_aside _).upholds
  · exact (take_aside i.timer).upholds
  · exact timerTick_aside.upholds
  · exact processQueue_upholds hI i.dispatchNow
  · intro a log h
    rw [show dispatched (iwdgReload a).2 = [] from rfl, List.append_nil]
    exact h

/-- **Invariant rule for the controller of the application.** -/
theorem run_ctrl_invariant (hI : Upheld I) {a : App} {log : List Event} (h : I a.ctrl log)
    (is : List Iteration) :
    I (Trace.run appLoop a is).1.ctrl (log ++ dispatched (Trace.run appLoop a is).2) := by
  induction is generalizing a log with
  | nil =>
      rw [Trace.run_nil, show dispatched ([] : List Effect) = [] from rfl, List.append_nil]
      exact h
  | cons i is ih =>
      rw [Trace.run_cons, dispatched_append, ← List.append_assoc]
      exact ih (appLoop_upholds hI i a log h)

end Invariant

/-! ## Where samples come from -/

theorem dispatchEvent_pending (e : Event) (now : UInt32) (a : App) :
    (dispatchEvent e now a).1.pendingUartRelease = a.pendingUartRelease := by
  unfold dispatchEvent
  split_ifs <;> rfl

/-- The queue stage pushes nothing. -/
theorem processQueue_honest (now : UInt32) : Honest (processQueue now) := by
  intro a
  have hpending : (processQueue now a).1.pendingUartRelease = a.pendingUartRelease := by
    unfold processQueue EventQueue.pop
    cases a.queue.front with
    | none => rfl
    | some e => exact dispatchEvent_pending e now _
  exact honestAt_of_pushless hpending (processQueue_pushes now a)

/-- In an iteration samples are pushed by the sensor only. -/
theorem appLoop_honest (i : Iteration) : Honest (appLoop · i) := by
  apply honest_seq
  intro f hf
  simp only [List.mem_cons, List.not_mem_nil, or_false] at hf
  rcases hf with rfl | rfl | rfl | rfl | rfl | rfl | rfl | rfl | rfl | rfl | rfl
  · exact (take_aside i.head).honest
  · exact pollSensor_aside.honest
  · exact (pollButtons_aside i.keys).honest
  · exact fun a => honestAt_of_pushless rfl fun _ _ _ => List.not_mem_nil
  · exact fun a => honestAt_of_pushless rfl fun _ _ _ => List.not_mem_nil
  · exact (releaseKey_aside i.releaseNow).honest
  · exact (readKeys_aside _).honest
  · exact (take_aside i.timer).honest
  · exact timerTick_aside.honest
  · exact processQueue_honest i.dispatchNow
  · exact fun a => honestAt_of_pushless rfl fun p e ok hmem => by cases List.mem_singleton.mp hmem

/-- The release that waits is no sample, and neither is anything that the sensor did not push. -/
structure GenuineInv (a : App) (es : List Effect) : Prop where
  keys : KeysOnly a
  genuine : ∀ o ∈ es, o.Genuine

/-- No iteration brings in a sample from elsewhere. -/
theorem genuineInv_step (a : App) (es : List Effect) (i : Iteration) (h : GenuineInv a es) :
    GenuineInv (appLoop a i).1 (es ++ (appLoop a i).2) := by
  refine ⟨(appLoop_honest i a).keys h.keys, ?_⟩
  intro o ho
  rcases List.mem_append.mp ho with hmem | hmem
  · exact h.genuine o hmem
  · exact (appLoop_honest i a).genuine h.keys o hmem

theorem genuineInv_boot : GenuineInv boot [] := by
  refine ⟨?_, ?_⟩
  · intro e he
    cases he
  · intro o ho
    cases ho

/-- **Samples come from the sensor**, in every run. -/
theorem run_genuine (is : List Iteration) : ∀ o ∈ (Trace.run appLoop boot is).2, o.Genuine := by
  have hinv := Trace.run_invariant GenuineInv genuineInv_step genuineInv_boot is
  rw [List.nil_append] at hinv
  exact hinv.genuine

/-- An accepted event has been pushed by someone. -/
theorem mem_accepted {es : List Effect} {e : Event} (h : e ∈ accepted es) :
    ∃ p, Effect.push p e true ∈ es := by
  obtain ⟨o, ho, heq⟩ := List.mem_filterMap.mp h
  cases o with
  | push p d ok =>
      cases ok with
      | true =>
          cases heq
          exact ⟨p, ho⟩
      | false => cases heq
  | dispatch d => cases heq
  | iwdgReload => cases heq

/-- A sample that has been dispatched was pushed by the sensor. -/
theorem sample_pushed {is : List Iteration} {v : Int}
    (h : ⟨.temperatureReady, v⟩ ∈ dispatched (Trace.run appLoop boot is).2) :
    Effect.push .sensor ⟨.temperatureReady, v⟩ true ∈ (Trace.run appLoop boot is).2 := by
  have haccepted : ⟨.temperatureReady, v⟩ ∈ accepted (Trace.run appLoop boot is).2 := by
    rw [(queueInv_run is).accounted]
    exact List.mem_append_left _ h
  obtain ⟨p, hp⟩ := mem_accepted haccepted
  obtain rfl := run_genuine is _ hp rfl
  exact hp

end App
end Thermostat
