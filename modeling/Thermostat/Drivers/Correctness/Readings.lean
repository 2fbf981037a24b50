import Thermostat.Drivers.Correctness.Frames
import Thermostat.Drivers.Correctness.Freshness
import Thermostat.Drivers.Correctness.Pulses

/-!
# `Drivers.Correctness.Readings` — what comes of a frame

`Carries` says that captured pulses are those of a frame, whatever their exact widths.

- **`poll_decodes`**: only a poll in `DECODE` reports a temperature, and it finds it in a frame whose CRC matches; with
  seventy-two captures that is the frame that was captured.
- **`poll_carried`**: a frame that was captured whole is reported.
-/

namespace Thermostat
namespace DS18B20

/-- The pulses of a frame: one for each bit, and a short one for each 1. Channel 3 keeps the low byte of a
    width. -/
structure Carries (log : List UInt16) (frame : Bytes 9) : Prop where
  complete : log.length = 72
  bits : ∀ b i, b < 9 → i < 8 → ((frame.rd b).toNat.testBit i = true ↔
    UInt8.ofNat (log.getD (b * 8 + i) 0).toNat ≤ shortPulseMax)

/-- The widths with which the driver itself would send a frame carry it. -/
theorem carries_pulses (frame : Bytes 9) :
    Carries ((frame.toList.flatMap byteToPulses).map UInt8.toUInt16) frame := by
  have hlength : frame.toList.length = 9 := by simp
  refine ⟨?_, ?_⟩
  · rw [List.length_map, ← makeCommand_dropLast, makeCommand_length, hlength]
  · intro b i hb hi
    have hbyte : frame.rd b = frame.toList[b] := by
      unfold Bytes.rd
      simp [hb]
    rw [List.getD_eq_getElem?_getD, List.getElem?_map, pulses_getElem? _ (by omega) hi, hbyte]
    simp only [Option.map_some, Option.getD_some, UInt8.toNat_toUInt16, UInt8.ofNat_toNat]
    exact (bitToPulse_short _ i).symm

/-- The frame, laid out as the scratchpad is. -/
def scratch (frame : Bytes 9) : Bytes 72 := Bytes.tabulate 72 frame.rd

theorem decode_carried {log : List UInt16} {frame : Bytes 9} (h : Carries log frame) {b : Nat} (hb : b < 9) :
    (decodeScratchpad (pulseMemory log)).rd b = (scratch frame).rd b := by
  unfold scratch
  rw [decodeScratchpad_rd _ hb, Bytes.rd_tabulate (by omega)]
  apply byte_ext
  intro i hi
  have hpulse : (pulseMemory log).rd (b * 8 + i) = UInt8.ofNat (log.getD (b * 8 + i) 0).toNat := by
    unfold pulseMemory
    rw [Bytes.rd_tabulate (by omega)]
  rw [partly_testBit _ _ (Nat.le_refl 8) hi, if_pos hi, hpulse]
  exact Bool.eq_iff_iff.mpr (decide_eq_true_iff.trans (h.bits b i hb hi).symm)

/-- The report looks at the nine bytes of the scratchpad only. -/
theorem decodeReport_congr {m m' : Bytes 72} (h : ∀ b, b < 9 → m.rd b = m'.rd b) :
    decodeReport (detectSensorType m) m = decodeReport (detectSensorType m') m' := by
  have hfamily : detectSensorType m = detectSensorType m' := by
    unfold detectSensorType
    rw [h 4 (by omega)]
  have htemperature : ∀ family, decodeTemperature family m = decodeTemperature family m' := by
    intro family
    unfold decodeTemperature rawTemperature
    rw [h 0 (by omega), h 1 (by omega), h 6 (by omega), h 7 (by omega)]
  unfold decodeReport
  rw [hfamily, htemperature, h 8 (by omega), checkScratchpadCrc_congr h]

/-- What is reported of a frame. -/
def reportOfFrame (frame : Bytes 9) : Effect :=
  decodeReport (detectSensorType (scratch frame)) (scratch frame)

theorem reportOf_carried {log : List UInt16} {frame : Bytes 9} (h : Carries log frame) :
    reportOf (pulseMemory log) = reportOfFrame frame := decodeReport_congr fun _ hb => decode_carried h hb

/-- The next poll decodes `v`, in a frame whose CRC matches. The buffer begins with the pulses captured in this
    reading. If there are seventy-two of them, `v` is what they say; the driver does not count them, and if there
    are fewer, it decodes what is left over behind them as well. -/
structure Decodes (d : DS18B20) (v : Int) : Prop where
  due : d.tim.uif = true
  decoding : d.current = .decode
  checked : (decodeScratchpad d.mem).rd 8 = checkScratchpadCrc (decodeScratchpad d.mem)
  value : decodeTemperature (detectSensorType (decodeScratchpad d.mem)) (decodeScratchpad d.mem) = some v
  temperature : IsTemperature v
  captured : ∀ k e, d.log[k]? = some e → d.mem.rd k = UInt8.ofNat e.toNat
  source : d.log.length = 72 ∧ reportOf (pulseMemory d.log) = .tempReady v ∨ d.log.length < 72

theorem decodeReport_temperature {family : UInt8} {m : Bytes 72} {v : Int}
    (h : decodeReport family m = .tempReady v) (hv : IsTemperature v) :
    m.rd 8 = checkScratchpadCrc m ∧ decodeTemperature family m = some v := by
  unfold decodeReport at h
  split_ifs at h with hcrc
  · refine ⟨hcrc, ?_⟩
    cases hdecode : decodeTemperature family m with
    | none =>
        rw [hdecode] at h
        cases h
    | some t =>
        rw [hdecode] at h
        cases h
        rfl
  · cases h
    exact absurd rfl hv.2.2

theorem fire_temperature {a : Action} {next : FsmStates} {d : DS18B20} {v : Int}
    (h : .tempReady v ∈ (fire a next d).2) (hv : IsTemperature v) :
    a = .decode ∧ reportOf d.mem = .tempReady v := by
  unfold fire at h
  rw [perform_effects] at h
  cases a with
  | convertFail =>
      obtain rfl : v = tempErrorNoSensor := by simpa using h
      exact absurd rfl hv.2.1
  | requestFail =>
      obtain rfl : v = tempErrorNoSensor := by simpa using h
      exact absurd rfl hv.2.1
  | decode =>
      have hreport : Effect.tempReady v
          = decodeReport (detectSensorType (decodeScratchpad d.mem)) (decodeScratchpad d.mem) := by
        simpa using h
      exact ⟨rfl, hreport.symm⟩
  | _ => simp at h

/-- **Only a poll in `DECODE` reports a temperature.** -/
theorem poll_decodes {d : DS18B20} (hholds : Holds d) {v : Int} (h : .tempReady v ∈ d.poll.2)
    (hv : IsTemperature v) : Decodes d v := by
  cases huif : d.tim.uif with
  | false =>
      rw [poll_quiet huif] at h
      cases h
  | true =>
      rw [poll_eq huif] at h
      unfold Holds at hholds
      cases hc : d.current with
      | idle =>
          rw [hc] at h
          rcases List.mem_append.mp h with hidle | hstart
          · cases (fire_temperature hidle hv).1
          · cases (fire_temperature hstart hv).1
      | convert =>
          rw [hc] at h
          cases hp : d.checkPresence <;> rw [hp] at h <;> cases (fire_temperature h hv).1
      | request =>
          rw [hc] at h
          cases hp : d.checkPresence <;> rw [hp] at h <;> cases (fire_temperature h hv).1
      | decode =>
          rw [hc] at h hholds
          have hreport : reportOf d.mem = .tempReady v := (fire_temperature h hv).2
          obtain ⟨hchecked, hvalue⟩ := decodeReport_temperature hreport hv
          have hmoved := hholds.moved
          have hroom := hholds.room
          refine ⟨huif, hc, hchecked, hvalue, hv, hholds.stored, ?_⟩
          rcases Nat.lt_or_ge d.log.length 72 with hfew | hall
          · exact Or.inr hfew
          · have hfull : d.log.length = 72 := by omega
            rw [mem_eq_pulses hholds hfull] at hreport
            exact Or.inl ⟨hfull, hreport⟩
      | error =>
          rw [hc] at h
          cases List.mem_singleton.mp h
          exact absurd rfl hv.1
      | _ =>
          rw [hc] at h
          cases (fire_temperature h hv).1

/-- A frame that has come in whole is reported. -/
theorem poll_carried {d : DS18B20} (hholds : Holds d) (huif : d.tim.uif = true) (hc : d.current = .decode)
    {frame : Bytes 9} (hframe : Carries d.log frame) :
    d.poll.2 = [.action .decode, reportOfFrame frame, .startTimer] := by
  unfold Holds at hholds
  rw [hc] at hholds
  have hmem : d.mem = pulseMemory d.log := mem_eq_pulses hholds hframe.complete
  rw [poll_eq huif, hc]
  show Effect.action .decode :: (Action.perform .decode d.cleared).2 = _
  rw [perform_effects]
  show [_, reportOf d.mem, _] = _
  rw [hmem, reportOf_carried hframe]

end DS18B20
end Thermostat
