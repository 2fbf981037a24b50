import Thermostat.App.AppLoop
import Thermostat.Drivers.Correctness.Cycle
import Thermostat.Drivers.Correctness.Frames
import Thermostat.Services.Correctness.Colder
import Thermostat.Services.Correctness.DoubleClick

/-!
# `App.Correctness.Samples` — which samples reach the controller

An event carries its temperature as an `int`, but only the sensor's callback puts one into the queue, and
the driver reports values of `int16_t`. `Fed` is what follows in every run of the main loop: the samples
that wait in the queue are of that range, and so is the memory of the regulator. With it, colder never
means less heat for the controller of the application either (`run_colder_heats`).

A frame that was corrupted on the wire within the strength of its CRC never gets that far
(`corrupt_not_pushed`).
-/

namespace Thermostat

open Heating (FromSensor)

/-! ## What the sensor reports -/

namespace DS18B20

/-- What has been cut to `int16_t` is within its range. -/
theorem int16_fromSensor (x : Int) : FromSensor (Word.int16 x) := by
  unfold FromSensor Word.int16
  omega

/-- Both formulas end in `int16_t`. -/
theorem decodeTemperature_fromSensor {family : UInt8} {m : Bytes 72} {t : Int}
    (h : decodeTemperature family m = some t) : FromSensor t := by
  unfold decodeTemperature at h
  simp only at h
  -- both families cut their result to 16 bits
  split_ifs at h
  · rw [← Option.some.inj h]
    exact int16_fromSensor _
  · rw [← Option.some.inj h]
    exact int16_fromSensor _

/-- A report is a temperature that was decoded, or an error code. -/
theorem decodeReport_fromSensor {family : UInt8} {m : Bytes 72} {t : Int}
    (h : decodeReport family m = .tempReady t) : FromSensor t := by
  unfold decodeReport at h
  split_ifs at h
  · cases hdecode : decodeTemperature family m with
    | none =>
        rw [hdecode] at h
        cases h
    | some temp =>
        rw [hdecode] at h
        cases h
        exact decodeTemperature_fromSensor hdecode
  · cases h
    exact ⟨by decide, by decide⟩

/-- Only three actions report anything, each within the range. -/
theorem fire_fromSensor {a : Action} {next : FsmStates} {d : DS18B20} {t : Int}
    (h : .tempReady t ∈ (fire a next d).2) : FromSensor t := by
  have hcode : FromSensor tempErrorNoSensor := ⟨by decide, by decide⟩
  unfold fire at h
  rw [perform_effects] at h
  cases a with
  | convertFail =>
      obtain rfl : t = tempErrorNoSensor := by simpa using h
      exact hcode
  | requestFail =>
      obtain rfl : t = tempErrorNoSensor := by simpa using h
      exact hcode
  | decode =>
      have hreport : Effect.tempReady t
          = decodeReport (detectSensorType (decodeScratchpad d.mem)) (decodeScratchpad d.mem) := by
        simpa using h
      exact decodeReport_fromSensor hreport.symm
  | _ => simp at h

/-- **What a poll reports** is a value of `int16_t`, be it a temperature or a code. -/
theorem poll_fromSensor {d : DS18B20} {t : Int} (h : .tempReady t ∈ d.poll.2) : FromSensor t := by
  cases huif : d.tim.uif with
  | false =>
      rw [poll_quiet huif] at h
      cases h
  | true =>
      rw [poll_eq huif] at h
      cases hc : d.current with
      | idle =>
          rw [hc] at h
          rcases List.mem_append.mp h with hidle | hstart
          · exact fire_fromSensor hidle
          · exact fire_fromSensor hstart
      | convert =>
          rw [hc] at h
          cases hp : d.checkPresence <;> rw [hp] at h <;> exact fire_fromSensor h
      | request =>
          rw [hc] at h
          cases hp : d.checkPresence <;> rw [hp] at h <;> exact fire_fromSensor h
      | error =>
          rw [hc] at h
          cases List.mem_singleton.mp h
          exact ⟨by decide, by decide⟩
      | _ =>
          rw [hc] at h
          exact fire_fromSensor h

end DS18B20

/-! ## What is pushed -/

/-- A sample in the event is one that the sensor can report. -/
def Event.FromSensor (e : Event) : Prop := e.type = .temperatureReady → Heating.FromSensor e.value

theorem Event.fromSensor_of_type {e : Event} (h : e.type ≠ .temperatureReady) : e.FromSensor :=
  fun htype => absurd htype h

namespace ButtonsManager

/-- The keys push no samples. -/
theorem poll_fromSensor (m : ButtonsManager) (r : KeyReadings) : ∀ e ∈ (m.poll r).2, e.FromSensor := by
  intro e he
  apply Event.fromSensor_of_type
  rw [poll_events, List.mem_append, List.mem_flatten] at he
  rcases he with ⟨es, hes, hkey⟩ | hcombo
  · obtain ⟨k, rfl⟩ := List.mem_ofFn.mp hes
    rw [handle_type _ _ _ _ e hkey]
    fin_cases k <;> exact nofun
  · simp [checkCombination_type _ _ e hcombo]

end ButtonsManager

namespace App

/-- The samples in the queue come from the sensor, the pending release is none, and the controller's memory
    is in the range that such samples leave. -/
structure Fed (a : App) : Prop where
  queued : ∀ e ∈ a.queue.items, e.FromSensor
  pending : ∀ e ∈ a.pendingUartRelease, e.FromSensor
  driven : a.ctrl.Driven
  sound : a.ctrl.heating.Sound
  ranged : a.ctrl.heating.Ranged

def KeepsFed (f : App → App × List Effect) : Prop := ∀ a, Fed a → Fed (f a).1

/-- A sequence of stages that keep the queue fed with samples of the sensor. -/
theorem keepsFed_seq {fs : List (App → App × List Effect)} (h : ∀ f ∈ fs, KeepsFed f) :
    KeepsFed (Trace.seq fs) := by
  apply Trace.seq_induction (P := KeepsFed)
  · intro a ha
    exact ha
  · intro f g hf hg a ha
    exact hg _ (hf a ha)
  · exact h

/-- A push adds what it pushes, or nothing. -/
theorem push_keepsFed (p : Producer) {e : Event} (he : e.FromSensor) : KeepsFed (push p e) := by
  intro a ha
  refine ⟨?_, ha.pending, ha.driven, ha.sound, ha.ranged⟩
  intro d hd
  change d ∈ (a.queue.offer e).1.items at hd
  rw [Fifo.offer_items] at hd
  -- an offer appends its event, or nothing
  rcases List.mem_append.mp hd with hold | hnew
  · exact ha.queued d hold
  · split_ifs at hnew
    · rw [List.mem_singleton.mp hnew]
      exact he
    · cases hnew

/-! ## The stages of an iteration -/

theorem interrupt_fed {a : App} (ha : Fed a) (i : Interrupt) : Fed (a.interrupt i) := by
  cases i <;> exact ⟨ha.queued, ha.pending, ha.driven, ha.sound, ha.ranged⟩

/-- Handlers push nothing. -/
theorem interrupts_fed {a : App} (ha : Fed a) (is : List Interrupt) : Fed (a.interrupts is) := by
  induction is generalizing a with
  | nil => exact ha
  | cons i is ih => exact ih (interrupt_fed ha i)

theorem take_keepsFed (is : List Interrupt) : KeepsFed (take is) := by
  intro a ha
  exact interrupts_fed ha is

/-- The callback pushes what the driver reports. -/
theorem sensorEffect_keepsFed {o : DS18B20.Effect} (ho : ∀ t, o = .tempReady t → FromSensor t) :
    KeepsFed (sensorEffect o) := by
  intro a ha
  cases o with
  | tempReady temp =>
      show Fed (ds18b20TempReady temp a).1
      unfold ds18b20TempReady
      split_ifs
      · exact ⟨ha.queued, ha.pending, ha.driven, ha.sound, ha.ranged⟩
      · exact ⟨ha.queued, ha.pending, ha.driven, ha.sound, ha.ranged⟩
      · exact ⟨ha.queued, ha.pending, ha.driven, ha.sound, ha.ranged⟩
      · exact push_keepsFed .sensor (fun _ => ho temp rfl) a ha
  | _ => exact ha

/-- The poll reports within the range. -/
theorem pollSensor_keepsFed : KeepsFed pollSensor := by
  intro a ha
  have hseq : KeepsFed (Trace.seq (a.sensor.poll.2.map sensorEffect)) := by
    apply keepsFed_seq
    intro f hf
    obtain ⟨o, ho, rfl⟩ := List.mem_map.mp hf
    apply sensorEffect_keepsFed
    rintro t rfl
    exact DS18B20.poll_fromSensor ho
  apply hseq { a with sensor := a.sensor.poll.1 }
  exact ⟨ha.queued, ha.pending, ha.driven, ha.sound, ha.ranged⟩

/-- Buttons push no samples. -/
theorem pollButtons_keepsFed (keys : KeyReadings) : KeepsFed (pollButtons keys) := by
  intro a ha
  have hseq : KeepsFed (Trace.seq ((a.buttons.poll keys).2.map (push .buttons))) := by
    apply keepsFed_seq
    intro f hf
    obtain ⟨e, he, rfl⟩ := List.mem_map.mp hf
    exact push_keepsFed .buttons (a.buttons.poll_fromSensor keys e he)
  apply hseq { a with buttons := (a.buttons.poll keys).1 }
  exact ⟨ha.queued, ha.pending, ha.driven, ha.sound, ha.ranged⟩

/-- The calls of the main loop keep the controller's part. -/
theorem feed_fed {a : App} (ha : Fed a) {i : Controller.Input} (hi : Controller.Call.FromSensor (.input i)) :
    Fed { a with ctrl := (a.ctrl.feed i).1 } := by
  refine ⟨ha.queued, ha.pending, ?_, ?_, ?_⟩
  · exact Controller.feed_driven i ha.driven
  · exact Controller.feed_sound i ha.sound
  · exact Controller.call_ranged hi ha.sound ha.ranged

theorem pollCtrl_keepsFed (now : UInt32) : KeepsFed (pollCtrl now) := by
  intro a ha
  exact feed_fed (i := .poll now) ha trivial

theorem pollBeep_keepsFed (now : UInt32) : KeepsFed (pollBeep now) := by
  intro a ha
  exact ⟨ha.queued, ha.pending, ha.driven, ha.sound, ha.ranged⟩

/-- The pending release is no sample. -/
theorem releaseKey_keepsFed (now : UInt32) : KeepsFed (releaseKey now) := by
  intro a ha
  unfold releaseKey
  cases hpending : a.pendingUartRelease with
  | none => exact ha
  | some e =>
      simp only
      split_ifs
      · have hpush := push_keepsFed .uart (ha.pending e hpending) a ha
        refine ⟨hpush.queued, ?_, hpush.driven, hpush.sound, hpush.ranged⟩
        intro d hd
        cases hd
      · exact ha

/-- A serial key stands for a button. -/
theorem keyOf_type {byte : Int} {type : EventType} (h : keyOf byte = some type) :
    type ≠ .temperatureReady := by
  rintro rfl
  unfold keyOf at h
  split_ifs at h <;> cases h

/-- Neither the press of a key nor its release is a sample. -/
theorem pressKey_keepsFed (byte : Int) (now : UInt32) : KeepsFed (pressKey byte now) := by
  intro a ha
  unfold pressKey
  cases hkey : keyOf byte with
  | none => exact ha
  | some type =>
      have hpush := push_keepsFed .uart (Event.fromSensor_of_type (e := ⟨type, 0⟩) (keyOf_type hkey)) a ha
      refine ⟨hpush.queued, ?_, hpush.driven, hpush.sound, hpush.ranged⟩
      intro d hd
      cases hd
      exact Event.fromSensor_of_type (keyOf_type hkey)

/-- By induction on the turns of the loop. -/
theorem readKeys_keepsFed (xs : List Arrival) : KeepsFed (readKeys xs) := by
  induction xs with
  | nil =>
      intro a ha
      exact ha
  | cons x xs ih =>
      intro a ha
      have hirqs := interrupts_fed ha x.irqs
      unfold readKeys
      simp only
      split_ifs
      -- a byte taken out changes the receive buffer only
      · exact ⟨hirqs.queued, hirqs.pending, hirqs.driven, hirqs.sound, hirqs.ranged⟩
      · apply keepsFed_seq
        · intro f hf
          rcases List.mem_cons.mp hf with rfl | hf
          · exact pressKey_keepsFed _ _
          · rw [List.mem_singleton.mp hf]
            exact ih
        · exact ⟨hirqs.queued, hirqs.pending, hirqs.driven, hirqs.sound, hirqs.ranged⟩
      · exact hirqs

theorem timerTick_keepsFed : KeepsFed timerTick := by
  intro a ha
  unfold timerTick
  split_ifs
  · simp only
    split_ifs
    · apply push_keepsFed .timer (Event.fromSensor_of_type (by simp))
      exact ⟨ha.queued, ha.pending, ha.driven, ha.sound, ha.ranged⟩
    · exact ⟨ha.queued, ha.pending, ha.driven, ha.sound, ha.ranged⟩
  · exact ha

/-- The controller processes a sample of the sensor, or something else. -/
theorem dispatchEvent_fed {a : App} (ha : Fed a) {e : Event} (he : e.FromSensor) (now : UInt32) :
    Fed (dispatchEvent e now a).1 := by
  -- the dispatcher's own way to the piezo leaves the controller's memory alone
  have hpiezo : ∀ power, Fed (a.setPiezoPower power) := fun power =>
    ⟨ha.queued, ha.pending, ha.driven, ha.sound, ha.ranged⟩
  unfold dispatchEvent
  split_ifs
  · exact feed_fed (i := .event e now) (hpiezo 500) he
  · exact feed_fed (i := .event e now) (hpiezo 0) he
  · exact feed_fed (i := .event e now) ha he
  · exact feed_fed (i := .event e now) ha he

/-- The event that is dispatched comes out of the queue. -/
theorem processQueue_keepsFed (now : UInt32) : KeepsFed (processQueue now) := by
  intro a ha
  unfold processQueue EventQueue.pop
  cases hfront : a.queue.front with
  | none => exact ha
  | some e =>
      -- the event that is dispatched was one of those that waited
      have hitems := Fifo.front_pop hfront
      have hrest : Fed { a with queue := Fifo.pop a.queue } := by
        refine ⟨?_, ha.pending, ha.driven, ha.sound, ha.ranged⟩
        intro d hd
        apply ha.queued
        rw [hitems]
        exact List.mem_cons_of_mem e hd
      apply dispatchEvent_fed hrest
      apply ha.queued
      rw [hitems]
      exact List.mem_cons_self

/-- **An iteration** keeps queue, pending release and controller within the range. -/
theorem appLoop_fed {a : App} (ha : Fed a) (i : Iteration) : Fed (appLoop a i).1 := by
  apply keepsFed_seq _ a ha
  intro f hf
  simp only [List.mem_cons, List.not_mem_nil, or_false] at hf
  rcases hf with rfl | rfl | rfl | rfl | rfl | rfl | rfl | rfl | rfl | rfl | rfl
  · exact take_keepsFed i.head
  · exact pollSensor_keepsFed
  · exact pollButtons_keepsFed i.keys
  · exact pollCtrl_keepsFed i.ctrlNow
  · exact pollBeep_keepsFed i.beepNow
  · exact releaseKey_keepsFed i.releaseNow
  · exact readKeys_keepsFed _
  · exact take_keepsFed i.timer
  · exact timerTick_keepsFed
  · exact processQueue_keepsFed i.dispatchNow
  · exact fun _ ha => ha

theorem boot_fed : Fed boot := by
  refine ⟨?_, ?_, Controller.driven_new _ _ _, Controller.sound_new _ _ _, ?_⟩
  · intro e he
    cases he
  · intro e he
    cases he
  · exact Heating.ranged_of_empty Heating.default_onGrid rfl rfl

/-- **Every sample that waits for the controller comes from the sensor**, in every run. -/
theorem run_fed (is : List Iteration) : Fed (Trace.run appLoop boot is).1 :=
  Trace.run_state_invariant Fed (fun _ i ha => appLoop_fed ha i) boot_fed is

/-- **Colder never means less heat**, for the controller of the application after any run. -/
theorem run_colder_heats (is : List Iteration) {c₁ c₂ : Int} (hle : c₁ ≤ c₂) (h₁ : FromSensor c₁)
    (h₂ : FromSensor c₂) {now : UInt32}
    (hinc₁ : (Trace.run appLoop boot is).1.ctrl.heating.IncrementFits c₁ now)
    (hinc₂ : (Trace.run appLoop boot is).1.ctrl.heating.IncrementFits c₂ now) :
    ((Trace.run appLoop boot is).1.ctrl.processEvent ⟨.temperatureReady, c₂⟩ now).lastPower
      ≤ ((Trace.run appLoop boot is).1.ctrl.processEvent ⟨.temperatureReady, c₁⟩ now).lastPower := by
  have hfed := run_fed is
  exact Controller.colder_of_ranged hfed.driven hfed.sound hfed.ranged hle h₁ h₂ hinc₁ hinc₂

end App
/-! ## Corrupted frames -/

namespace DS18B20

/-- **A corrupted scratchpad** is reported as a wrong CRC, whatever family it says it is of. -/
theorem decodeReport_corrupt {m read : Bytes 72} {error : Bytes 9} (hvalid : m.rd 8 = checkScratchpadCrc m)
    (hne : flips error ≠ [])
    (hsmall : (flips error).length ≤ 3 ∨ ∃ i, ∀ j ∈ flips error, i ≤ j ∧ j < i + 8)
    (hread : ∀ i, i < 9 → read.rd i = (corrupt m error).rd i) (family : UInt8) :
    decodeReport family read = .tempReady tempErrorCrcFail := by
  have hrejected := corrupt_rejected hvalid hne hsmall
  rw [← hread 8 (by omega), ← checkScratchpadCrc_congr hread] at hrejected
  unfold decodeReport
  rw [if_neg hrejected]

end DS18B20

namespace App

open DS18B20

/-- **A corrupted frame is reported as such, and nothing is pushed for it.** -/
theorem corrupt_not_pushed {m : Bytes 72} {error : Bytes 9} (hvalid : m.rd 8 = checkScratchpadCrc m)
    (hne : flips error ≠ [])
    (hsmall : (flips error).length ≤ 3 ∨ ∃ i, ∀ j ∈ flips error, i ≤ j ∧ j < i + 8) {a : App}
    (huif : a.sensor.tim.uif = true) (hstate : a.sensor.current = .decode)
    (hread : ∀ i, i < 9 → (decodeScratchpad a.sensor.mem).rd i = (corrupt m error).rd i) :
    a.sensor.poll.2 = [.action .decode, .tempReady tempErrorCrcFail, .startTimer] ∧
      a.pollSensor.2 = [] ∧ a.pollSensor.1.queue = a.queue := by
  have hpoll : a.sensor.poll.2 = [.action .decode, .tempReady tempErrorCrcFail, .startTimer] := by
    rw [poll_eq huif, hstate]
    show Effect.action .decode :: (Action.perform .decode a.sensor.cleared).2 = _
    rw [perform_effects]
    show [_, decodeReport _ (decodeScratchpad a.sensor.mem), _] = _
    rw [decodeReport_corrupt hvalid hne hsmall hread]
  have hseq : a.pollSensor = Trace.seq (a.sensor.poll.2.map sensorEffect) { a with sensor := a.sensor.poll.1 } :=
    rfl
  rw [hseq, hpoll]
  -- the callback writes its message to the serial port
  exact ⟨rfl, rfl, rfl⟩

/-- The frame of a DS18B20 at 25 degrees, and the pulses of the same frame with its lowest bit flipped. -/
theorem corrupt_not_pushed_bit :
    let m := loaded [0x91, 1, 0x4B, 0x46, 0x7F, 0xFF, 0x0F, 0x10, 0x25]
    let error : Bytes 9 := (Bytes.zeros 9).wr 0 1
    let a := { boot with sensor := { DS18B20.init with
      mem := loaded (makeCommand [0x90, 1, 0x4B, 0x46, 0x7F, 0xFF, 0x0F, 0x10, 0x25]).dropLast
      current := .decode } }
    (m.rd 8 = checkScratchpadCrc m ∧ flips error = [0]) ∧
      a.sensor.poll.2 = [.action .decode, .tempReady tempErrorCrcFail, .startTimer] ∧
      a.pollSensor.2 = [] ∧ a.pollSensor.1.queue = a.queue := by
  intro m error a
  have hvalid : m.rd 8 = checkScratchpadCrc m := by decide +kernel
  have hflips : flips error = [0] := by decide +kernel
  have hread : ∀ i, i < 9 → (decodeScratchpad a.sensor.mem).rd i = (corrupt m error).rd i := by decide +kernel
  refine ⟨⟨hvalid, hflips⟩, corrupt_not_pushed hvalid ?_ (Or.inl ?_) rfl rfl hread⟩
  · rw [hflips]
    exact List.cons_ne_nil 0 []
  · rw [hflips]
    exact Nat.le_add_left 1 2

end App
end Thermostat
