import Thermostat.App.Correctness.ReadOut
import Thermostat.Drivers.Correctness.Readings

/-!
# `App.Correctness.Measurements` — from the bus to the glass

Both ends of a measurement: the pulses that the sensor's timer captures, and what is read off the panel.

- `run_holds`: the invariant of the capture buffers (`Drivers.Correctness.Freshness`) holds in the main loop.
- **`sample_decoded`**: nothing is dispatched as a sample but a temperature that `DECODE` found in the
  capture buffer, in a frame whose CRC matches; with seventy-two captures it is what these say.
- **`frame_shown`**: and the temperature of a frame that comes in whole is on the panel fifteen iterations
  later.
-/

namespace Thermostat

open HT1621B (Watcher watch)

namespace App

open DS18B20 (Holds Carries Decodes IsTemperature reportOfFrame)

/-! ## The sensor in the main loop -/

/-- The sensor pushes something. -/
def Effect.bySensor : Effect → Bool
  | .push .sensor _ _ => true
  | _                 => false

/-- The stage keeps the invariant of the capture buffers. -/
def KeepsHolds (f : App → App × List Effect) : Prop := ∀ a, Holds a.sensor → Holds (f a).1.sensor

theorem keepsHolds_of_same {f : App → App × List Effect} (h : ∀ a, (f a).1.sensor = a.sensor) :
    KeepsHolds f := by
  intro a ha
  rw [h]
  exact ha

theorem keepsHolds_seq {fs : List (App → App × List Effect)} (h : ∀ f ∈ fs, KeepsHolds f) :
    KeepsHolds (Trace.seq fs) := by
  apply Trace.seq_induction (P := KeepsHolds)
  · exact fun _ ha => ha
  · exact fun f g hf hg a ha => hg _ (hf a ha)
  · exact h

theorem interrupts_holds {a : App} (ha : Holds a.sensor) (is : List Interrupt) :
    Holds (a.interrupts is).sensor := by
  induction is generalizing a with
  | nil => exact ha
  | cons i is ih =>
      apply ih
      cases i with
      | capture v => exact DS18B20.holds_capture ha v
      | expire => exact DS18B20.holds_expire ha
      | _ => exact ha

theorem pushAll_sensor (p : Producer) (es : List Event) (a : App) :
    (Trace.seq (es.map (push p)) a).1.sensor = a.sensor := by
  induction es generalizing a with
  | nil => rfl
  | cons e es ih =>
      rw [List.map_cons, Trace.seq_cons]
      exact ih _

/-- The callbacks leave the driver alone. -/
theorem callbacks_sensor (es : List DS18B20.Effect) (a : App) :
    (Trace.seq (es.map sensorEffect) a).1.sensor = a.sensor := by
  induction es generalizing a with
  | nil => rfl
  | cons o es ih =>
      have hone : (sensorEffect o a).1.sensor = a.sensor := by
        cases o with
        | tempReady temp =>
            show (ds18b20TempReady temp a).1.sensor = a.sensor
            unfold ds18b20TempReady
            split_ifs <;> rfl
        | _ => rfl
      rw [List.map_cons, Trace.seq_cons]
      exact (ih _).trans hone

theorem pollSensor_holds : KeepsHolds pollSensor := by
  intro a ha
  have hpoll : (pollSensor a).1.sensor = a.sensor.poll.1 := callbacks_sensor _ _
  rw [hpoll]
  exact DS18B20.holds_step ha .poll

theorem readKeys_holds (xs : List Arrival) : KeepsHolds (readKeys xs) := by
  induction xs with
  | nil => exact fun _ ha => ha
  | cons x xs ih =>
      intro a ha
      have hirqs := interrupts_holds ha x.irqs
      unfold readKeys
      simp only
      split_ifs
      · exact hirqs
      · apply keepsHolds_seq
        · intro f hf
          rcases List.mem_cons.mp hf with rfl | hf
          · apply keepsHolds_of_same
            intro a
            unfold pressKey
            cases keyOf (App.interrupts _ x.irqs).uart.readByte.2 <;> rfl
          · rw [List.mem_singleton.mp hf]
            exact ih
        · exact hirqs
      · exact hirqs

theorem releaseKey_sensor (now : UInt32) (a : App) : (releaseKey now a).1.sensor = a.sensor := by
  unfold releaseKey
  cases a.pendingUartRelease with
  | none => rfl
  | some e =>
      simp only
      split_ifs <;> rfl

theorem timerTick_sensor (a : App) : (timerTick a).1.sensor = a.sensor := by
  unfold timerTick
  split_ifs
  · simp only
    split_ifs <;> rfl
  · rfl

theorem processQueue_sensor (now : UInt32) (a : App) : (processQueue now a).1.sensor = a.sensor := by
  unfold processQueue EventQueue.pop
  cases a.queue.front with
  | none => rfl
  | some e =>
      simp only
      unfold dispatchEvent
      split_ifs <;> rfl

theorem appLoop_holds (i : Iteration) : KeepsHolds (appLoop · i) := by
  apply keepsHolds_seq
  intro f hf
  simp only [List.mem_cons, List.not_mem_nil, or_false] at hf
  rcases hf with rfl | rfl | rfl | rfl | rfl | rfl | rfl | rfl | rfl | rfl | rfl
  · exact fun _ ha => interrupts_holds ha i.head
  · exact pollSensor_holds
  · exact keepsHolds_of_same fun a => pushAll_sensor .buttons _ _
  · exact fun _ ha => ha
  · exact fun _ ha => ha
  · exact keepsHolds_of_same (releaseKey_sensor i.releaseNow)
  · exact readKeys_holds _
  · exact fun _ ha => interrupts_holds ha i.timer
  · exact keepsHolds_of_same timerTick_sensor
  · exact keepsHolds_of_same (processQueue_sensor i.dispatchNow)
  · exact fun _ ha => ha

theorem run_holds (is : List Iteration) : Holds (Trace.run appLoop boot is).1.sensor :=
  Trace.run_state_invariant (fun a => Holds a.sensor) (fun a i ha => appLoop_holds i a ha)
    (show Holds boot.sensor from trivial) is

/-! ## Samples and measurements -/

theorem sensorEffect_push {o : DS18B20.Effect} {a : App} {p : Producer} {e : Event} {ok : Bool}
    (h : .push p e ok ∈ (sensorEffect o a).2) :
    ∃ v, o = .tempReady v ∧ IsTemperature v ∧ e = ⟨.temperatureReady, v⟩ := by
  cases o with
  | tempReady temp =>
      change _ ∈ (ds18b20TempReady temp a).2 at h
      unfold ds18b20TempReady at h
      split_ifs at h with hmissing hcrc hgeneric
      · cases h
      · cases h
      · cases h
      · cases List.mem_singleton.mp h
        exact ⟨temp, rfl, ⟨hgeneric, hmissing, hcrc⟩, rfl⟩
  | _ => cases h

theorem callbacks_push {es : List DS18B20.Effect} {a : App} {p : Producer} {e : Event} {ok : Bool}
    (h : .push p e ok ∈ (Trace.seq (es.map sensorEffect) a).2) :
    ∃ v, .tempReady v ∈ es ∧ IsTemperature v ∧ e = ⟨.temperatureReady, v⟩ := by
  induction es generalizing a with
  | nil => cases h
  | cons o es ih =>
      rw [List.map_cons, Trace.seq_cons] at h
      rcases List.mem_append.mp h with hnow | hlater
      · obtain ⟨v, rfl, hv, he⟩ := sensorEffect_push hnow
        exact ⟨v, List.mem_cons_self, hv, he⟩
      · obtain ⟨v, hmem, hv, he⟩ := ih hlater
        exact ⟨v, List.mem_cons_of_mem o hmem, hv, he⟩

theorem pollSensor_push {a : App} (ha : Holds a.sensor) {p : Producer} {e : Event} {ok : Bool}
    (h : .push p e ok ∈ (pollSensor a).2) : ∃ v, e = ⟨.temperatureReady, v⟩ ∧ Decodes a.sensor v := by
  obtain ⟨v, hreport, hv, he⟩ := callbacks_push h
  exact ⟨v, he, DS18B20.poll_decodes ha hreport hv⟩

/-- The sensor's stage and the stages behind it. -/
theorem appLoop_sensor (a : App) (i : Iteration) : ∃ rest,
    (appLoop a i).2 = (pollSensor (a.interrupts i.head)).2 ++ rest ∧
      ∀ o ∈ rest, o.bySensor = false := by
  let m := Trace.seq (middle i) (pollSensor (a.interrupts i.head)).1
  refine ⟨m.2 ++ ((processQueue i.dispatchNow m.1).2 ++ [.iwdgReload]), ?_, ?_⟩
  · rw [appLoop_eq]
    simp only [front, Trace.seq_cons, Trace.seq_nil, List.append_nil, List.append_assoc]
    rfl
  · intro o hmem
    cases o with
    | dispatch e => rfl
    | iwdgReload => rfl
    | push p e ok =>
        cases p with
        | sensor =>
            rcases List.mem_append.mp hmem with hmem | hmem
            · exact absurd rfl ((middle_feeds i _).source _ _ _ hmem)
            · rcases List.mem_append.mp hmem with hmem | hmem
              · exact absurd hmem (processQueue_pushes _ _ _ _ _)
              · cases List.mem_singleton.mp hmem
        | _ => rfl

/-- **Samples come out of `DECODE`.** Whatever is dispatched as a sample, in any run: in some iteration the sensor's
    driver was due in `DECODE`, and decoded it from a frame whose CRC matches. If seventy-two pulses had been
    captured in that reading, it is the temperature that they carry. -/
theorem sample_decoded {is : List Iteration} {v : Int}
    (h : ⟨.temperatureReady, v⟩ ∈ dispatched (Trace.run appLoop boot is).2) :
    ∃ pre i post, is = pre ++ i :: post ∧
      Decodes ((Trace.run appLoop boot pre).1.interrupts i.head).sensor v := by
  obtain ⟨pre, i, post, hsplit, hpush⟩ := Trace.mem_run (sample_pushed h)
  refine ⟨pre, i, post, hsplit, ?_⟩
  obtain ⟨rest, hrest, hno⟩ := appLoop_sensor (Trace.run appLoop boot pre).1 i
  rw [hrest] at hpush
  rcases List.mem_append.mp hpush with hmem | hmem
  · obtain ⟨u, heq, hdecodes⟩ := pollSensor_push (interrupts_holds (run_holds pre) i.head) hmem
    cases heq
    exact hdecodes
  · cases hno _ hmem

/-- The measurement of `warm`, and its sample at the end of the queue. -/
theorem sample_decoded_warm : ∃ pre i post, warm = pre ++ i :: post ∧
    Decodes ((Trace.run appLoop boot pre).1.interrupts i.head).sensor 250 :=
  sample_decoded (by decide +kernel)

/-! ## Frames and the panel -/

/-- A frame that has come in whole is the first thing that happens in its iteration. -/
theorem frame_pushed {a : App} {i : Iteration} (ha : Holds a.sensor)
    (hdue : (a.interrupts i.head).sensor.tim.uif = true)
    (hdecode : (a.interrupts i.head).sensor.current = .decode) {frame : Bytes 9}
    (hframe : Carries (a.interrupts i.head).sensor.log frame) {t : Int}
    (hreport : reportOfFrame frame = .tempReady t) (ht : IsTemperature t) :
    ∃ ok after, (appLoop a i).2 = [] ++ .push .sensor ⟨.temperatureReady, t⟩ ok :: after ∧
      ∀ o ∈ after, o.bySensor = false := by
  obtain ⟨rest, hrest, hno⟩ := appLoop_sensor a i
  have hpoll := DS18B20.poll_carried (interrupts_holds ha i.head) hdue hdecode hframe
  rw [hreport] at hpoll
  have hpush : ∃ ok, (pollSensor (a.interrupts i.head)).2 = [.push .sensor ⟨.temperatureReady, t⟩ ok] := by
    unfold pollSensor
    simp only [hpoll, List.map_cons, List.map_nil, Trace.seq_cons, Trace.seq_nil, sensorEffect,
      List.nil_append, List.append_nil]
    unfold ds18b20TempReady
    rw [if_neg ht.2.1, if_neg ht.2.2, if_neg ht.1]
    exact ⟨_, rfl⟩
  obtain ⟨ok, hpush⟩ := hpush
  refine ⟨ok, rest, ?_, hno⟩
  rw [hrest, hpush]
  rfl

/-- Without another push of the sensor, the sample is the last one. -/
theorem lastSample_of_pushed {pre post : List Iteration} {i : Iteration} {after : List Effect} {t : Int}
    {ok : Bool}
    (hpush : (appLoop (Trace.run appLoop boot pre).1 i).2
      = [] ++ .push .sensor ⟨.temperatureReady, t⟩ ok :: after)
    (hafter : ∀ o ∈ after, o.bySensor = false) (hlong : 15 ≤ post.length)
    (hlater : ∀ o ∈ (Trace.run appLoop (appLoop (Trace.run appLoop boot pre).1 i).1 post).2,
      o.bySensor = false) :
    LastSample (dispatched (Trace.run appLoop boot (pre ++ i :: post)).2) t := by
  obtain ⟨ahead, served, hlog, hserved⟩ := sample_logged hpush hlong
  refine ⟨ahead, served, hlog, ?_⟩
  intro e he htype
  obtain ⟨p, hp⟩ := mem_accepted (hserved.subset he)
  -- who pushes a sample is the sensor, and it has pushed nothing more
  have hrun : Effect.push p e true ∈ (Trace.run appLoop boot (pre ++ i :: post)).2 := by
    rw [run_split, Trace.run_cons, hpush]
    rcases List.mem_append.mp hp with hmem | hmem <;> simp [hmem]
  obtain rfl := run_genuine _ _ hrun htype
  rcases List.mem_append.mp hp with hmem | hmem
  · cases hafter _ hmem
  · cases hlater _ hmem

/-- **What comes in on the bus is what is read off the panel.** In any run, let the driver be due in `DECODE`
    with all pulses of a frame captured that reports a temperature. Once fifteen more iterations are over, and
    for as long as no other sample is pushed, the panel reads as that temperature, or as the setpoint while
    that is shown, whatever else goes on and whatever state the panel was in at power-on. -/
theorem frame_shown (w : Watcher) {pre post : List Iteration} {i : Iteration} {frame : Bytes 9} {t : Int}
    (hdue : ((Trace.run appLoop boot pre).1.interrupts i.head).sensor.tim.uif = true)
    (hdecode : ((Trace.run appLoop boot pre).1.interrupts i.head).sensor.current = .decode)
    (hframe : Carries ((Trace.run appLoop boot pre).1.interrupts i.head).sensor.log frame)
    (hreport : reportOfFrame frame = .tempReady t) (ht : IsTemperature t) (hlong : 15 ≤ post.length)
    (hlater : ∀ o ∈ (Trace.run appLoop (appLoop (Trace.run appLoop boot pre).1 i).1 post).2,
      o.bySensor = false) :
    ∃ d, (Trace.run appLoop boot (pre ++ i :: post)).1.ctrl.display = some d ∧
      (watch w (HT1621B.new.wires ++ d.wires)).2.Running ∧
      if (Trace.run appLoop boot (pre ++ i :: post)).1.ctrl.showingSetpoint then
        Controller.Displays (watch w (HT1621B.new.wires ++ d.wires)).2.ram '2'
          (Trace.run appLoop boot (pre ++ i :: post)).1.ctrl.setpoint
      else Controller.Displays (watch w (HT1621B.new.wires ++ d.wires)).2.ram '1' t := by
  obtain ⟨ok, after, hpush, hafter⟩ := frame_pushed (run_holds pre) hdue hdecode hframe hreport ht
  have hlast := lastSample_of_pushed hpush hafter hlong hlater
  obtain ⟨d, hd, hread⟩ := (run_screenInv w (pre ++ i :: post)).readOut
  refine ⟨d, hd, ?_⟩
  rw [HT1621B.watch_append]
  refine ⟨hread.running, ?_⟩
  split_ifs with hshow
  · exact hread.setpoint hshow
  · exact hread.sample (Bool.eq_false_iff.mpr hshow) t hlast

/-- The frame of a DS18B20 at 25 degrees. -/
def warmFrame : Bytes 9 := #v[0x90, 0x01, 0x4B, 0x46, 0x7F, 0xFF, 0x0F, 0x10, 0x66]

theorem frame_shown_warm :
    ∃ d, (Trace.run appLoop boot
        (warm.take 6 ++ decoding warmFrame.toList :: List.replicate 15 typed)).1.ctrl.display = some d ∧
      (watch (⟨none, true, true⟩, ⟨Bytes.zeros 32, false, false, false, .third⟩)
        (HT1621B.new.wires ++ d.wires)).2.Running := by
  have hlog : ((Trace.run appLoop boot (warm.take 6)).1.interrupts (decoding warmFrame.toList).head).sensor.log
      = (warmFrame.toList.flatMap DS18B20.byteToPulses).map UInt8.toUInt16 := by decide +kernel
  have hcarries := DS18B20.carries_pulses warmFrame
  rw [← hlog] at hcarries
  obtain ⟨d, hd, hrunning, -⟩ := @frame_shown (⟨none, true, true⟩, ⟨Bytes.zeros 32, false, false, false, .third⟩)
    (warm.take 6) (List.replicate 15 typed) (decoding warmFrame.toList) warmFrame 250 (by decide +kernel)
    (by decide +kernel) hcarries (by decide +kernel) (by decide) (by decide) (by decide +kernel)
  exact ⟨d, hd, hrunning⟩

end App
end Thermostat
