import Thermostat.Drivers.BusTimer

/-!
# `Drivers.Correctness.BusPulses` — what the driver sends

Between two shots the timer is `Quiet`: whatever is started then pulls the bus low only if it writes a compare value
itself. **`armed`** gives the pulses for every action, and says that the timer is quiet again behind them. For a
command this is the work of its final `0`, the last value that the DMA moves; for a reset and a reading it is the `0`
that waits in the preload register.
-/

namespace Thermostat
namespace DS18B20
namespace BusTimer

/-! ## Periods -/

/-- A wave that is low up to a count. -/
theorem wave_eq {f : Nat → Bool} {a b : Nat} (hlow : ∀ count < a, f count = true)
    (hhigh : ∀ count, a ≤ count → f count = false) :
    (List.range (a + b)).map f = List.replicate a true ++ List.replicate b false := by
  rw [List.range_add, List.map_append, List.map_map]
  congr 1
  · refine List.eq_replicate_iff.mpr ⟨by simp, ?_⟩
    intro x hx
    obtain ⟨count, hcount, rfl⟩ := List.mem_map.mp hx
    exact hlow count (List.mem_range.mp hcount)
  · refine List.eq_replicate_iff.mpr ⟨by simp, ?_⟩
    intro x hx
    obtain ⟨count, -, rfl⟩ := List.mem_map.mp hx
    exact hhigh (a + count) (Nat.le_add_right a count)

/-- A period is low up to the compare value. A value that comes in the middle of it must not be above the count at
    which it comes. -/
theorem period_wave {t : BusTimer} (hlate : t.active ≤ t.arr)
    (hnext : ∀ v, t.next = some v → t.active ≤ t.ccr4 ∧ v.toNat ≤ t.ccr4) :
    t.period.1 = List.replicate t.active true ++ List.replicate (t.arr - t.active + 1) false := by
  have hsplit : t.arr + 1 = t.active + (t.arr - t.active + 1) := by omega
  unfold period
  cases hv : t.next with
  | none =>
    rw [hsplit]
    exact wave_eq (fun count hcount => decide_eq_true hcount) fun count hcount => decide_eq_false (by omega)
  | some v =>
    obtain ⟨hactive, hvalue⟩ := hnext v hv
    have hnew : ({ t with feed := t.feed.tail }.writeCcr1 v.toNat).active ≤ t.ccr4 := by
      unfold writeCcr1
      simp only
      split_ifs
      · exact hactive
      · exact hvalue
    rw [hsplit]
    refine wave_eq (fun count hcount => decide_eq_true ?_) fun count hcount => decide_eq_false ?_
    · rw [if_pos (Nat.lt_of_lt_of_le hcount hactive)]
      exact hcount
    · split_ifs <;> omega

theorem period_none {t : BusTimer} (h : t.next = none) : t.period.2 = t := by
  unfold period
  rw [h]

theorem period_some {t : BusTimer} {v : UInt8} (h : t.next = some v) :
    t.period.2 = { t with feed := t.feed.tail }.writeCcr1 v.toNat := by
  unfold period
  rw [h]

/-- The pulses of a period in front of others. -/
theorem pulses_period {t : BusTimer} (hlate : t.active ≤ t.arr)
    (hnext : ∀ v, t.next = some v → t.active ≤ t.ccr4 ∧ v.toNat ≤ t.ccr4) (wave : List Bool) :
    OneWire.pulses (t.period.1 ++ wave) = (if t.active = 0 then [] else [t.active]) ++ OneWire.pulses wave := by
  rw [period_wave hlate hnext, List.append_assoc]
  exact OneWire.pulses_slot t.active (Nat.succ_ne_zero _) wave

/-! ## Shots -/

/-- Without the DMA all periods are alike. -/
theorem shot_plain {t : BusTimer} (hnext : t.next = none) (hlate : t.active ≤ t.arr) :
    t.shot = (if t.active = 0 then [] else List.replicate (t.left + 1) t.active,
      { t with active := t.ccr1, running := false }) := by
  have hperiods : ∀ n, OneWire.pulses (t.periods n).1 = (if t.active = 0 then [] else List.replicate n t.active) ∧
      (t.periods n).2 = t := by
    intro n
    induction n with
    | zero => exact ⟨by split_ifs <;> rfl, rfl⟩
    | succ n ih =>
      have hquiet : ∀ v, t.next = some v → t.active ≤ t.ccr4 ∧ v.toNat ≤ t.ccr4 := by
        intro v hv
        rw [hnext] at hv
        cases hv
      unfold periods
      rw [pulses_period hlate hquiet, period_none hnext, ih.1, ih.2]
      refine ⟨?_, rfl⟩
      split_ifs <;> rfl
  obtain ⟨hpulses, hstate⟩ := hperiods (t.left + 1)
  unfold shot
  simp only [hpulses, hstate]

/-- With it, every period has the next value. -/
theorem periods_feed : ∀ (xs : List UInt8) {t : BusTimer}, t.feed = xs → t.dier &&& dierCc4de ≠ 0 →
    t.preload = false → t.ccr4 ≤ t.arr → t.active ≤ t.ccr4 → t.ccr1 = t.active → (∀ x ∈ xs, x.toNat ≤ t.ccr4) →
    OneWire.pulses (t.periods xs.length).1 = ((t.active :: xs.map UInt8.toNat).dropLast).filter (· ≠ 0) ∧
    (t.periods xs.length).2 =
      { t with
        feed := [], ccr1 := (xs.map UInt8.toNat).getLastD t.ccr1, active := (xs.map UInt8.toNat).getLastD t.ccr1 }
  | [], t, hfeed, _, _, _, _, hsame, _ => by
    refine ⟨rfl, ?_⟩
    obtain ⟨arr, rcr, ccr1, ccr4, ccmr1, dier, active, left, feed, running⟩ := t
    obtain rfl : feed = [] := hfeed
    obtain rfl : ccr1 = active := hsame
    rfl
  | x :: xs, t, hfeed, hdier, hpreload, hccr4, hactive, _, hsmall => by
    have hnext : t.next = some x := by
      unfold next
      rw [if_pos ⟨hdier, hccr4⟩, hfeed]
      rfl
    have hx : x.toNat ≤ t.ccr4 := hsmall x List.mem_cons_self
    have hfirst : ∀ v, t.next = some v → t.active ≤ t.ccr4 ∧ v.toNat ≤ t.ccr4 := by
      intro v hv
      rw [hnext] at hv
      obtain rfl : x = v := Option.some.inj hv
      exact ⟨hactive, hx⟩
    have hafter : t.period.2 = { t with feed := xs, ccr1 := x.toNat, active := x.toNat } := by
      have hsame : ({ t with feed := xs } : BusTimer).preload = false := hpreload
      rw [period_some hnext, hfeed, List.tail_cons]
      unfold writeCcr1
      rw [hsame]
      rfl
    obtain ⟨hpulses, hstate⟩ := periods_feed xs (t := t.period.2) (by rw [hafter]) (by rw [hafter]; exact hdier)
      (by rw [hafter]; exact hpreload) (by rw [hafter]; exact hccr4) (by rw [hafter]; exact hx) (by rw [hafter])
      (by rw [hafter]; exact fun y hy => hsmall y (List.mem_cons_of_mem x hy))
    rw [List.length_cons]
    unfold periods
    rw [pulses_period (Nat.le_trans hactive hccr4) hfirst, hpulses, hstate, hafter]
    refine ⟨?_, ?_⟩
    · rw [List.map_cons, List.dropLast_cons_cons, List.filter_cons]
      by_cases hzero : t.active = 0
      · rw [if_pos hzero, if_neg (by simpa using hzero)]
        rfl
      · rw [if_neg hzero, if_pos (by simpa using hzero)]
        rfl
    · simp only [List.map_cons, List.getLastD_cons]

/-! ## The actions -/

/-- The timer is stopped, the bus is high, and nothing is left to do that would pull it low. -/
structure Quiet (t : BusTimer) : Prop where
  stopped : t.running = false
  high : t.active = 0
  preloaded : t.ccr1 = 0
  fed : t.feed = []

/-- The timer is running, its shot makes the pulses, and it is quiet again behind them. -/
structure Armed (t : BusTimer) (lows : List Nat) : Prop where
  running : t.running = true
  lows : t.shot.1 = lows
  quiet : Quiet t.shot.2

theorem next_none {t : BusTimer} (h : t.feed = [] ∨ t.dier &&& dierCc4de = 0) : t.next = none := by
  unfold next
  rcases h with hfeed | hdier
  · rw [hfeed]
    exact ite_self _
  · exact if_neg fun h => h.1 hdier

theorem armed_plain {t : BusTimer} (hrunning : t.running = true) (hfeed : t.feed = []) (hlate : t.active ≤ t.arr)
    (hpreloaded : t.ccr1 = 0) : Armed t (if t.active = 0 then [] else List.replicate (t.left + 1) t.active) := by
  have hshot := shot_plain (next_none (Or.inl hfeed)) hlate
  refine ⟨hrunning, by rw [hshot], ?_⟩
  rw [hshot]
  exact ⟨rfl, hpreloaded, hpreloaded, hfeed⟩

def writes (t : BusTimer) (ws : List Write) : BusTimer := ws.foldl write t

theorem startTimer_armed {t : BusTimer} (h : Quiet t) (arr rcr : Nat) :
    Armed (t.writes (startTimerWrites arr rcr)) [] := by
  have hactive : (t.writes (startTimerWrites arr rcr)).active = 0 := h.preloaded
  have harmed := armed_plain (t := t.writes (startTimerWrites arr rcr)) rfl h.fed (by rw [hactive]; exact Nat.zero_le _)
    h.preloaded
  rw [if_pos hactive] at harmed
  exact harmed

/-- The two modes of channel 1. -/
theorem preloaded_mode : decide ((ccmr1Oc1m ||| ccmr1Oc1pe ||| ccmr1Capture) &&& ccmr1Oc1pe ≠ 0) = true := by decide

theorem direct_mode : decide (ccmr1Oc1m &&& ccmr1Oc1pe ≠ 0) = false := by decide

theorem resetBus_armed {t : BusTimer} (h : Quiet t) : Armed (t.writes resetBusWrites) [resetPulseDuration] := by
  have hactive : (t.writes resetBusWrites).active = resetPulseDuration := if_pos preloaded_mode
  have harr : (t.writes resetBusWrites).arr = resetTimeout := rfl
  have hleft : (t.writes resetBusWrites).left = 0 := rfl
  have harmed := armed_plain (t := t.writes resetBusWrites) rfl h.fed (by rw [hactive, harr]; decide) rfl
  rw [hactive, hleft] at harmed
  exact harmed

theorem readData_armed {t : BusTimer} (h : Quiet t) :
    Armed (t.writes readDataWrites) (List.replicate scratchpadBits onePulse.toNat) := by
  have hactive : (t.writes readDataWrites).active = onePulse.toNat := if_pos preloaded_mode
  have harr : (t.writes readDataWrites).arr = onePulse.toNat + zeroPulse.toNat + 1 := rfl
  have hleft : (t.writes readDataWrites).left = scratchpadBits - 1 := rfl
  have harmed := armed_plain (t := t.writes readDataWrites) rfl h.fed (by rw [hactive, harr]; decide) rfl
  rw [hactive, hleft] at harmed
  exact harmed

/-- No pulse of a command is longer than a zero, and the final `0` is no pulse. -/
theorem makeCommand_short (bytes : List UInt8) {x : UInt8} (hx : x ∈ makeCommand bytes) :
    x.toNat ≤ onePulse.toNat + zeroPulse.toNat := by
  rw [makeCommand, List.mem_append, List.mem_flatMap, List.mem_singleton] at hx
  obtain ⟨byte, -, hx⟩ | rfl := hx
  · obtain ⟨bit, -, rfl⟩ := List.mem_map.mp hx
    unfold bitToPulse
    split <;> decide
  · decide

/-- A command of sixteen pulses, none of them longer than a zero, and a final `0`. -/
theorem sendCommand_armed (t : BusTimer) {first : UInt8} {rest : List UInt8} (hlength : rest.length = dmaTransfers)
    (hsmall : ∀ x ∈ first :: rest, x.toNat ≤ onePulse.toNat + zeroPulse.toNat)
    (hlast : (rest.map UInt8.toNat).getLastD first.toNat = 0) :
    Armed (t.writes (sendCommandWrites (first :: rest)))
      (((first :: rest).map UInt8.toNat).dropLast.filter (· ≠ 0)) := by
  have hfeed : (t.writes (sendCommandWrites (first :: rest))).feed = rest :=
    List.take_of_length_le (Nat.le_of_eq hlength)
  have hdier : (t.writes (sendCommandWrites (first :: rest))).dier = dierCc4de := rfl
  have hccr4 : (t.writes (sendCommandWrites (first :: rest))).ccr4 = onePulse.toNat + zeroPulse.toNat := rfl
  have harr : (t.writes (sendCommandWrites (first :: rest))).arr = onePulse.toNat + zeroPulse.toNat + 1 := rfl
  have hactive : (t.writes (sendCommandWrites (first :: rest))).active = first.toNat := rfl
  have hccr1 : (t.writes (sendCommandWrites (first :: rest))).ccr1 = first.toNat := rfl
  have hperiods : (t.writes (sendCommandWrites (first :: rest))).left + 1 = rest.length := hlength.symm
  obtain ⟨hpulses, hstate⟩ := periods_feed rest hfeed (by rw [hdier]; decide) direct_mode
    (by rw [hccr4, harr]; decide)
    (by rw [hactive, hccr4]; exact hsmall first List.mem_cons_self) rfl
    (by rw [hccr4]; exact fun x hx => hsmall x (List.mem_cons_of_mem first hx))
  have hshot : (t.writes (sendCommandWrites (first :: rest))).shot =
      (((first :: rest).map UInt8.toNat).dropLast.filter (· ≠ 0),
        { t.writes (sendCommandWrites (first :: rest)) with
          feed := [], ccr1 := 0, active := 0, running := false }) := by
    unfold shot
    rw [hperiods]
    simp only [hpulses, hstate, hactive, hccr1, hlast]
    rfl
  refine ⟨rfl, by rw [hshot], ?_⟩
  rw [hshot]
  exact ⟨rfl, rfl, rfl, rfl⟩

/-- The pulses of an action. -/
def lowsOf : Action → List Nat
  | .start | .continue_ => [480]
  | .convertOk          => convCmd.dropLast.map UInt8.toNat
  | .requestOk          => readCmd.dropLast.map UInt8.toNat
  | .read               => List.replicate 72 1
  | .idle | .convertFail | .wait | .requestFail | .decode => []

/-- **What an action sends.** Every action but `idle` arms a quiet timer for its pulses. -/
theorem armed {t : BusTimer} (h : Quiet t) {a : Action} (ha : a ≠ .idle) : Armed (t.writes a.writes) (lowsOf a) := by
  cases a with
  | idle => exact absurd rfl ha
  | start => exact resetBus_armed h
  | continue_ => exact resetBus_armed h
  | convertOk => exact sendCommand_armed t (by decide) (fun _ => makeCommand_short [0xCC, 0x44]) (by decide)
  | requestOk => exact sendCommand_armed t (by decide) (fun _ => makeCommand_short [0xCC, 0xBE]) (by decide)
  | wait => exact startTimer_armed h 62500 11
  | convertFail => exact startTimer_armed h 62500 3
  | requestFail => exact startTimer_armed h 62500 3
  | decode => exact startTimer_armed h 62500 3
  | read => exact readData_armed h

end BusTimer
end DS18B20
end Thermostat
