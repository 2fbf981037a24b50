import Thermostat.Drivers.Correctness.BusPulses
import Thermostat.Drivers.Correctness.Readings
import Thermostat.Drivers.Correctness.Temperature

/-!
# `Drivers.Correctness.SensorBus` — the driver and the sensor

The driver, its timer and a sensor on the bus (`Lib.OneWire`) as one machine. The main loop polls; in between the
timer makes its shots, the sensor hears the pulses, and channel 3 captures the edges. A poll in the middle of a shot
finds no update flag, so nothing is lost by letting a shot happen at once. The bus counts as low while the timer or
the sensor holds it; as `init` makes the pin a push-pull output, that is for the circuit around it to see to.

Whatever the sensor was doing at power-on and whatever its edges are within the limits of `OneWire.Conduct`:

- **`measurements_reported`**: every measurement is reported once, in order, and nothing else is ever reported: no
  old temperature, no missing sensor, no wrong CRC.
- **`measurements_go_on`**: and this does not stop.
-/

namespace Thermostat

open DS18B20
open OneWire (Slave Conduct measuringTime)

/-- The bits of a frame in the order of transmission. -/
def frameBits (frame : Bytes 9) : List Bool := (List.range scratchpadBits).map (wire frame)

/-- What a measurement finds: a frame with its CRC, which leaves the register empty. It is one of a DS18B20, or one of
    a DS18S20 whose counters are within the bounds of `Decodable`. -/
structure Reading where
  frame : Bytes 9
  crc : Crc.crc polynomial 0#8 (frameBits frame) = 0#8
  decodable : Decodable (scratch frame)

namespace Reading

def bits (r : Reading) : List Bool := frameBits r.frame

/-- The temperature in tenths of a degree. -/
def temp (r : Reading) : Int := exactTenths (scratch r.frame)

theorem checked (r : Reading) : (scratch r.frame).rd 8 = checkScratchpadCrc (scratch r.frame) := by
  have hbits : (List.range scratchpadBits).map (wire (scratch r.frame)) = frameBits r.frame := by
    apply List.map_congr_left
    intro i hi
    have hbound : i / 8 < 72 := by
      have hlt : i < 72 := List.mem_range.mp hi
      omega
    unfold wire scratch
    rw [Bytes.rd_tabulate hbound]
  rw [accepted_iff, hbits]
  exact r.crc

theorem sound (r : Reading) : ReportsTemperature (scratch r.frame) := decodable_sound r.checked r.decodable

/-- It is the one of the data sheets, to less than a tenth of a degree. -/
theorem temp_datasheet (r : Reading) : |(r.temp : ℚ) / 10 - datasheet (scratch r.frame)| < 1 / 10 := by
  obtain ⟨temp, -, htemp, -, herror⟩ := r.sound
  rw [show r.temp = temp from htemp.symm]
  exact herror

theorem reported (r : Reading) : reportOfFrame r.frame = .tempReady r.temp := by
  obtain ⟨temp, hreport, htemp, -, -⟩ := r.sound
  rw [show r.temp = temp from htemp.symm]
  exact hreport

theorem temperature (r : Reading) : IsTemperature r.temp := by
  obtain ⟨temp, -, htemp, hcode, -⟩ := r.sound
  rw [show r.temp = temp from htemp.symm]
  exact ⟨fun h => hcode (Or.inl h), fun h => hcode (Or.inr (Or.inl h)), fun h => hcode (Or.inr (Or.inr h))⟩

end Reading

structure SensorBus where
  driver : DS18B20
  timer : BusTimer
  slave : Slave Reading

namespace SensorBus

/-- Power-on; only the record of the measurements is new. -/
def boot (s : Slave Reading) : SensorBus := ⟨DS18B20.init, BusTimer.boot, { s with history := [] }⟩

/-- The driver's writes go to its timer. -/
def poll (b : SensorBus) : SensorBus × List Effect :=
  ({ b with driver := b.driver.poll.1, timer := b.timer.writes ((actions b.driver.poll.2).flatMap Action.writes) },
    b.driver.poll.2)

def captures (d : DS18B20) (edges : List Nat) : DS18B20 := edges.foldl (fun d e => d.capture (UInt16.ofNat e)) d

/-- The timer makes its shot, if it is running. -/
def shot (c : Conduct) (measured : Reading) (b : SensorBus) : SensorBus :=
  if b.timer.running then
    let (lows, timer) := b.timer.shot
    let (slave, edges) := b.slave.spend Reading.bits c measured b.timer.duration lows
    ⟨(captures b.driver edges).expire, timer, slave⟩
  else b

inductive Input where
  | poll
  /-- A measurement that is started here finds `measured`. -/
  | shot (c : Conduct) (measured : Reading)

def step (b : SensorBus) : Input → SensorBus × List Effect
  | .poll            => b.poll
  | .shot c measured => (b.shot c measured, [])

/-! ## Captures -/

@[simp] theorem capture_current (d : DS18B20) (v : UInt16) : (d.capture v).current = d.current := by
  unfold DS18B20.capture
  split_ifs <;> rfl

@[simp] theorem capture_tim (d : DS18B20) (v : UInt16) : (d.capture v).tim = d.tim := by
  unfold DS18B20.capture
  split_ifs <;> rfl

@[simp] theorem captures_current (d : DS18B20) (edges : List Nat) : (captures d edges).current = d.current := by
  induction edges generalizing d with
  | nil => rfl
  | cons e edges ih => exact (ih _).trans (capture_current d _)

@[simp] theorem captures_tim (d : DS18B20) (edges : List Nat) : (captures d edges).tim = d.tim := by
  induction edges generalizing d with
  | nil => rfl
  | cons e edges ih => exact (ih _).trans (capture_tim d _)

theorem captures_holds {d : DS18B20} (h : Holds d) (edges : List Nat) : Holds (captures d edges) := by
  induction edges generalizing d with
  | nil => exact h
  | cons e edges ih => exact ih (holds_capture h _)

/-- A channel that has room for all edges stores them all. -/
theorem captures_log {A : DS18B20 → Prop} {room : Nat} (hstep : ∀ d v, A d → A (d.capture v))
    (hlistening : ∀ d, A d → (d.listening = true ↔ d.log.length < room)) {d : DS18B20} (h : A d)
    (edges : List Nat) (hroom : d.log.length + edges.length ≤ room) : (captures d edges).log = d.log ++ edges.map UInt16.ofNat := by
  induction edges generalizing d with
  | nil => exact (List.append_nil _).symm
  | cons e edges ih =>
    rw [List.length_cons] at hroom
    have hone : (d.capture (UInt16.ofNat e)).log = d.log ++ [UInt16.ofNat e] := by
      unfold DS18B20.capture
      rw [if_pos ((hlistening d h).mpr (by omega))]
    have hroom' : (d.capture (UInt16.ofNat e)).log.length + edges.length ≤ room := by
      rw [hone, List.length_append, List.length_singleton]
      omega
    have hrest := ih (hstep d (UInt16.ofNat e) h) hroom'
    rw [List.map_cons, List.append_cons, ← hone]
    exact hrest

theorem expire_uif {d : DS18B20} (h : d.running = true) : d.expire.tim.uif = true := by
  unfold expire
  rw [if_pos h]

theorem expire_running (d : DS18B20) : d.expire.running = false := by
  unfold expire
  cases h : d.running with
  | false =>
    rw [if_neg Bool.false_ne_true]
    exact h
  | true =>
    rw [if_pos rfl]
    have hbit : d.tim.cr1 &&& ~~~ cr1Cen &&& cr1Cen = 0 := by
      rw [UInt32.and_assoc, UInt32.and_comm (~~~ cr1Cen), UInt32.and_not_self, UInt32.and_zero]
    exact decide_eq_false (not_not.mpr hbit)

@[simp] theorem expire_current (d : DS18B20) : d.expire.current = d.current := by
  unfold expire
  split_ifs <;> rfl

@[simp] theorem expire_log (d : DS18B20) : d.expire.log = d.log := by
  unfold expire
  split_ifs <;> rfl

/-! ## Edges in their windows -/

theorem presence_edges (c : Conduct) :
    PresenceIn ([480 + c.rise, 480 + c.rise + c.wait + c.presence].map UInt16.ofNat) := by
  have hrise := c.rise_le
  have hwait := c.wait_ge
  have hwait' := c.wait_le
  have hpresence := c.presence_ge
  have hpresence' := c.presence_le
  have hwindow : ∀ e : Nat, e < 65536 → ∀ lo hi : UInt16, lo.toNat ≤ e → e ≤ hi.toNat →
      UInt16.ofNat e ≥ lo ∧ UInt16.ofNat e ≤ hi := by
    intro e he lo hi hlo hhi
    have hnat : (UInt16.ofNat e).toNat = e := UInt16.toNat_ofNat_of_lt' he
    exact ⟨UInt16.le_iff_toNat_le.mpr (by omega), UInt16.le_iff_toNat_le.mpr (by omega)⟩
  refine ⟨_, _, rfl, ?_, ?_⟩
  · exact hwindow (480 + c.rise) (by omega) 480 540 (by show 480 ≤ _; omega) (by show _ ≤ 540; omega)
  · exact hwindow (480 + c.rise + c.wait + c.presence) (by omega) 555 840 (by show 555 ≤ _; omega)
      (by show _ ≤ 840; omega)

/-- The edges of a sensor that sends a frame carry it. -/
theorem carries_edges {r : Reading} {edges : List Nat} (hlength : edges.length = 72)
    (hedges : ∀ k < 72, ∃ e, edges[k]? = some e ∧ e ≤ 60 ∧ (r.bits.getD k true = true ↔ e ≤ 10)) :
    Carries (edges.map UInt16.ofNat) r.frame := by
  refine ⟨by rw [List.length_map, hlength], ?_⟩
  intro b i hb hi
  obtain ⟨e, hget, hlate, hbit⟩ := hedges (b * 8 + i) (by omega)
  have hdiv : (b * 8 + i) / 8 = b := by omega
  have hmod : (b * 8 + i) % 8 = i := by omega
  have hwire : r.bits.getD (b * 8 + i) true = (r.frame.rd b).toNat.testBit i := by
    unfold Reading.bits frameBits
    rw [List.getD_eq_getElem?_getD, List.getElem?_map, List.getElem?_range (by unfold scratchpadBits; omega)]
    simp only [Option.map_some, Option.getD_some, wire, hdiv, hmod]
  have hwidth : (UInt8.ofNat ((edges.map UInt16.ofNat).getD (b * 8 + i) 0).toNat).toNat = e := by
    rw [List.getD_eq_getElem?_getD, List.getElem?_map, hget]
    simp only [Option.map_some, Option.getD_some]
    rw [UInt16.toNat_ofNat_of_lt' (by show e < 65536; omega), UInt8.toNat_ofNat_of_lt' (by show e < 256; omega)]
  rw [← hwire, hbit, UInt8.le_iff_toNat_le, hwidth]
  exact Iff.rfl

/-! ## The commands -/

theorem hear_convert (measured : Reading) {s : Slave Reading} (h : s.phase = .rom []) :
    (convCmd.dropLast.map UInt8.toNat).foldl (fun s low => s.hear measured low) s =
      { s with phase := .asleep, pending := some (measured, measuringTime), history := s.history ++ [measured] } := by
  obtain ⟨phase, memory, pending, history⟩ := s
  obtain rfl : phase = .rom [] := h
  rfl

theorem hear_read (measured : Reading) {s : Slave Reading} (h : s.phase = .rom []) :
    (readCmd.dropLast.map UInt8.toNat).foldl (fun s low => s.hear measured low) s = { s with phase := .talking 0 } := by
  obtain ⟨phase, memory, pending, history⟩ := s
  obtain rfl : phase = .rom [] := h
  rfl

/-! ## The protocol -/

/-- The last measurement is over. -/
def Measured (s : Slave Reading) (r : Reading) : Prop := s.pending = none ∧ s.memory = r

/-- What the timer sends while the driver is in a state. -/
def lowsIn : FsmStates → List Nat
  | .convert | .request => [480]
  | .wait               => convCmd.dropLast.map UInt8.toNat
  | .read               => readCmd.dropLast.map UInt8.toNat
  | .decode             => List.replicate 72 1
  | .idle | .start | .continue_ | .error => []

/-- How driver and sensor agree, before and behind the shot of every state, and the temperatures that have been
    measured but not reported. -/
def Protocol (b : SensorBus) (waiting : List Int) : Prop :=
  match b.driver.current, b.timer.running with
  | .idle,      _     => waiting = []
  | .convert,   true  => b.driver.log = [] ∧ waiting = []
  | .convert,   false => PresenceIn b.driver.log ∧ b.slave.phase = .rom [] ∧ waiting = []
  | .wait,      true  => b.slave.phase = .rom [] ∧ waiting = []
  | .wait,      false => ∃ r : Reading, b.slave.pending = some (r, measuringTime) ∧ waiting = [r.temp]
  | .continue_, true  =>
      ∃ r : Reading, b.slave.pending = some (r, measuringTime) ∧ measuringTime ≤ b.timer.duration ∧
        waiting = [r.temp]
  | .continue_, false => ∃ r : Reading, Measured b.slave r ∧ waiting = [r.temp]
  | .request,   true  => b.driver.log = [] ∧ ∃ r : Reading, Measured b.slave r ∧ waiting = [r.temp]
  | .request,   false =>
      PresenceIn b.driver.log ∧ b.slave.phase = .rom [] ∧ ∃ r : Reading, Measured b.slave r ∧ waiting = [r.temp]
  | .read,      true  => b.slave.phase = .rom [] ∧ ∃ r : Reading, Measured b.slave r ∧ waiting = [r.temp]
  | .read,      false => b.slave.phase = .talking 0 ∧ ∃ r : Reading, Measured b.slave r ∧ waiting = [r.temp]
  | .decode,    true  =>
      b.driver.log = [] ∧ b.slave.phase = .talking 0 ∧ ∃ r : Reading, Measured b.slave r ∧ waiting = [r.temp]
  | .decode,    false => ∃ r : Reading, Carries b.driver.log r.frame ∧ waiting = [r.temp]
  | .start,     _     => False
  | .error,     _     => False

structure Inv (b : SensorBus) (es : List Effect) : Prop where
  holds : Holds b.driver
  running : b.driver.running = b.timer.running
  flag : b.driver.tim.uif = !b.timer.running
  sends : if b.timer.running then b.timer.Armed (lowsIn b.driver.current) else b.timer.Quiet
  protocol : ∃ waiting, Protocol b waiting ∧ b.slave.history.map Reading.temp = reports es ++ waiting

/-! ## Shots -/

section Shots

variable {b : SensorBus} (c : Conduct) (measured : Reading)

theorem shot_eq (hon : b.timer.running = true) {lows : List Nat} (harmed : b.timer.Armed lows) :
    b.shot c measured =
      ⟨(captures b.driver (b.slave.spend Reading.bits c measured b.timer.duration lows).2).expire, b.timer.shot.2,
        (b.slave.spend Reading.bits c measured b.timer.duration lows).1⟩ := by
  unfold shot
  rw [if_pos hon]
  simp only [harmed.lows]

/-- The edges of a presence pulse. -/
theorem captures_presence {P : Nat → UInt16 → Prop} {d : DS18B20} (h : EdgesArmed d P) (hlog : d.log = []) :
    PresenceIn (captures d [480 + c.rise, 480 + c.rise + c.wait + c.presence]).log := by
  have hlog' := captures_log (fun _ v h => EdgesArmed.capture h v) (fun _ h => listening_edges h) h
    [480 + c.rise, 480 + c.rise + c.wait + c.presence] (by rw [hlog]; exact Nat.le_refl 2)
  rw [hlog', hlog]
  exact presence_edges c

/-- **A shot** takes driver and sensor to the other side of it; a measurement that it starts has to be reported. -/
theorem shot_protocol (hholds : Holds b.driver) (hon : b.timer.running = true)
    (harmed : b.timer.Armed (lowsIn b.driver.current)) {waiting : List Int} (h : Protocol b waiting) :
    ∃ more, Protocol (b.shot c measured) (waiting ++ more) ∧
      (b.shot c measured).slave.history.map Reading.temp = b.slave.history.map Reading.temp ++ more := by
  have hshot := shot_eq c measured hon harmed
  have hcurrent : (b.shot c measured).driver.current = b.driver.current := by
    rw [hshot, expire_current, captures_current]
  have hoff : (b.shot c measured).timer.running = false := by
    rw [hshot]
    exact harmed.quiet.stopped
  unfold Protocol at h ⊢
  rw [hcurrent, hoff]
  unfold Holds at hholds
  cases hc : b.driver.current with
  | idle =>
    rw [hc] at h hshot
    have hlater : (b.shot c measured).slave.history = b.slave.history := by
      rw [hshot, OneWire.Slave.spend_fst, OneWire.Slave.settle_history]
      rfl
    refine ⟨[], (List.append_nil _).trans h, ?_⟩
    rw [hlater, List.append_nil]
  | convert =>
    rw [hc, hon] at h
    rw [hc] at hholds hshot
    obtain ⟨hlog, rfl⟩ := h
    have hspend := OneWire.Slave.spend_reset Reading.bits c measured b.slave b.timer.duration (Nat.le_refl 480)
    rw [show lowsIn .convert = [480] from rfl, hspend] at hshot
    rw [hshot]
    refine ⟨[], ⟨?_, ?_, rfl⟩, ?_⟩
    · rw [expire_log]
      exact captures_presence c hholds hlog
    · exact OneWire.Slave.settle_phase _
    · rw [OneWire.Slave.settle_history, List.append_nil]
      rfl
  | wait =>
    rw [hc, hon] at h
    rw [hc] at hshot
    obtain ⟨hphase, rfl⟩ := h
    have hheard := hear_convert measured (s := b.slave.age b.timer.duration) hphase
    have hslave : (b.shot c measured).slave =
        { b.slave with
          phase := .asleep, pending := some (measured, measuringTime), history := b.slave.history ++ [measured] } := by
      rw [hshot, OneWire.Slave.spend_fst]
      exact congrArg Slave.settle hheard
    rw [hslave]
    exact ⟨[measured.temp], ⟨measured, rfl, rfl⟩, List.map_append⟩
  | continue_ =>
    rw [hc, hon] at h
    rw [hc] at hshot
    obtain ⟨r, hpending, htime, rfl⟩ := h
    have hspend := OneWire.Slave.spend_measuring Reading.bits c measured hpending htime
    rw [show lowsIn .continue_ = [] from rfl, hspend] at hshot
    rw [hshot]
    exact ⟨[], ⟨r, ⟨rfl, rfl⟩, rfl⟩, (List.append_nil _).symm⟩
  | request =>
    rw [hc, hon] at h
    rw [hc] at hholds hshot
    obtain ⟨hlog, r, hmeasured, rfl⟩ := h
    have hspend := OneWire.Slave.spend_reset_idle Reading.bits c measured hmeasured.1 b.timer.duration (Nat.le_refl 480)
    rw [show lowsIn .request = [480] from rfl, hspend] at hshot
    rw [hshot]
    refine ⟨[], ⟨?_, rfl, r, hmeasured, rfl⟩, (List.append_nil _).symm⟩
    rw [expire_log]
    exact captures_presence c hholds hlog
  | read =>
    rw [hc, hon] at h
    rw [hc] at hshot
    obtain ⟨hphase, r, hmeasured, rfl⟩ := h
    have hslave : (b.shot c measured).slave = { b.slave with phase := .talking 0 } := by
      rw [hshot, OneWire.Slave.spend_fst, OneWire.Slave.age_idle hmeasured.1]
      exact (congrArg Slave.settle (hear_read measured hphase)).trans (OneWire.Slave.settle_idle hmeasured.1)
    rw [hslave]
    exact ⟨[], ⟨rfl, r, hmeasured, rfl⟩, (List.append_nil _).symm⟩
  | decode =>
    rw [hc, hon] at h
    rw [hc] at hholds hshot
    obtain ⟨hlog, hphase, r, hmeasured, rfl⟩ := h
    obtain ⟨hstate, hlength, hedges⟩ := OneWire.Slave.session_read Reading.bits c measured hphase 0 72
    have hsent : (b.slave.spend Reading.bits c measured b.timer.duration (List.replicate 72 1)).2 =
        (b.slave.session Reading.bits c measured 0 (List.replicate 72 1)).2 := by
      rw [OneWire.Slave.spend_snd, OneWire.Slave.age_idle hmeasured.1]
    have hslave : (b.slave.spend Reading.bits c measured b.timer.duration (List.replicate 72 1)).1.history =
        b.slave.history := by
      rw [OneWire.Slave.spend_fst, OneWire.Slave.settle_history, OneWire.Slave.age_idle hmeasured.1,
        ← OneWire.Slave.session_fst Reading.bits c measured _ 0, hstate]
    rw [show lowsIn .decode = List.replicate 72 1 from rfl] at hshot
    rw [hshot]
    refine ⟨[], ⟨r, ?_, rfl⟩, ?_⟩
    · have hlog' := captures_log (fun _ v h => PulsesArmed.capture h v) (fun _ h => listening_pulses h) hholds
        (b.slave.session Reading.bits c measured 0 (List.replicate 72 1)).2
        (by rw [hlog, hlength]; exact Nat.le_refl 72)
      rw [expire_log, hsent, hlog', hlog]
      refine carries_edges hlength fun k hk => ?_
      obtain ⟨e, hget, hlate, hbit⟩ := hedges k hk
      rw [hmeasured.2, Nat.zero_add] at hbit
      exact ⟨e, hget, hlate, hbit⟩
    · rw [hslave, List.append_nil]
  | start =>
    rw [hc] at h
    exact h.elim
  | error =>
    rw [hc] at h
    exact h.elim

theorem shot_inv {es : List Effect} (h : Inv b es) : Inv (b.shot c measured) es := by
  cases hon : b.timer.running with
  | false =>
    have hsame : b.shot c measured = b := if_neg (by rw [hon]; exact Bool.false_ne_true)
    rw [hsame]
    exact h
  | true =>
    have harmed : b.timer.Armed (lowsIn b.driver.current) := by
      have hsends := h.sends
      rw [hon, if_pos rfl] at hsends
      exact hsends
    have hrunning : ∀ edges, (captures b.driver edges).running = true := by
      intro edges
      unfold DS18B20.running
      rw [captures_tim]
      exact h.running.trans hon
    obtain ⟨waiting, hprotocol, hhistory⟩ := h.protocol
    obtain ⟨more, hnext, hmore⟩ := shot_protocol c measured h.holds hon harmed hprotocol
    rw [shot_eq c measured hon harmed] at hnext hmore ⊢
    refine ⟨holds_expire (captures_holds h.holds _), ?_, ?_, ?_, waiting ++ more, hnext, ?_⟩
    · exact (expire_running _).trans harmed.quiet.stopped.symm
    · rw [harmed.quiet.stopped]
      exact expire_uif (hrunning _)
    · rw [harmed.quiet.stopped, if_neg Bool.false_ne_true]
      exact harmed.quiet
    · rw [hmore, hhistory, List.append_assoc]

end Shots

/-! ## Polls -/

section Polls

variable {b : SensorBus} {es : List Effect}

theorem fire_uif {a : Action} (ha : a ≠ .idle) (next : FsmStates) (d : DS18B20) :
    (fire a next d).1.tim.uif = false := by
  cases a with
  | idle => exact absurd rfl ha
  | _ => rfl

/-- `wait_conversion` waits long enough. -/
theorem wait_duration (t : BusTimer) : measuringTime ≤ (t.writes Action.wait.writes).duration := by
  have hleft : (t.writes Action.wait.writes).left = 11 := rfl
  have harr : (t.writes Action.wait.writes).arr = 62500 := rfl
  unfold BusTimer.duration
  rw [hleft, harr]
  decide

/-- The poll has started the shot of the next state. -/
def Advanced (b : SensorBus) (next : FsmStates) : Prop :=
  b.poll.1.driver.current = next ∧ b.poll.1.timer.running = true ∧ b.poll.1.slave = b.slave

/-- The state after a poll, if the sensor answers. -/
def after : FsmStates → FsmStates
  | .idle      => .convert
  | .start     => .convert
  | .convert   => .wait
  | .wait      => .continue_
  | .continue_ => .request
  | .request   => .read
  | .read      => .decode
  | .decode    => .idle
  | .error     => .idle

/-- **A poll that fires an action**, and perhaps `idle` before it: the timer is armed for what the next state sends. -/
theorem Inv.fire (h : Inv b es) (hoff : b.timer.running = false) (a : Action) (next : FsmStates) (d : DS18B20)
    (before : List Effect) (ha : a ≠ .idle)
    (hpoll : b.driver.poll = ((DS18B20.fire a next d).1, before ++ (DS18B20.fire a next d).2))
    (hbefore : (actions before).flatMap Action.writes = [] ∧ reports before = [])
    (hlows : BusTimer.lowsOf a = lowsIn next) {waiting : List Int}
    (hprotocol : Protocol ⟨(DS18B20.fire a next d).1, b.timer.writes a.writes, b.slave⟩ waiting)
    (hhistory : b.slave.history.map Reading.temp = reports es ++ (reports (DS18B20.fire a next d).2 ++ waiting)) :
    Inv b.poll.1 (es ++ b.poll.2) ∧ Advanced b next := by
  have hdue : b.driver.tim.uif = true := by rw [h.flag, hoff]; rfl
  have hquiet : b.timer.Quiet := by
    have hsends := h.sends
    rw [hoff, if_neg Bool.false_ne_true] at hsends
    exact hsends
  have harmed := BusTimer.armed hquiet ha
  rw [hlows] at harmed
  have hstep : b.poll = (⟨(DS18B20.fire a next d).1, b.timer.writes a.writes, b.slave⟩,
      before ++ (DS18B20.fire a next d).2) := by
    unfold poll
    rw [hpoll, actions_append, List.flatMap_append, hbefore.1, fire_actions, List.flatMap_cons, List.flatMap_nil,
      List.append_nil, List.nil_append]
  have hholds := holds_poll h.holds hdue
  rw [hpoll] at hholds
  unfold Advanced
  rw [hstep]
  refine ⟨⟨hholds, ?_, ?_, ?_, waiting, hprotocol, ?_⟩, rfl, harmed.running, rfl⟩
  · exact (fire_running ha next _).trans harmed.running.symm
  · rw [fire_uif ha, harmed.running]
    rfl
  · rw [harmed.running, if_pos rfl]
    exact harmed
  · rw [hhistory, reports_append, reports_append, hbefore.2, List.nil_append, List.append_assoc]

theorem poll_quiet_bus (h : Inv b es) (hon : b.timer.running = true) : b.poll = (b, []) := by
  have hquiet : b.driver.poll = (b.driver, []) := poll_quiet (by rw [h.flag, hon]; rfl)
  unfold poll
  rw [hquiet]
  rfl

/-- **A poll behind a shot** starts the next one. -/
theorem poll_advances (h : Inv b es) (hoff : b.timer.running = false) :
    Inv b.poll.1 (es ++ b.poll.2) ∧ Advanced b (after b.driver.current) := by
  have hdue : b.driver.tim.uif = true := by rw [h.flag, hoff]; rfl
  have hpoll := poll_eq hdue
  have hholds := h.holds
  obtain ⟨waiting, hprotocol, hhistory⟩ := h.protocol
  unfold Protocol at hprotocol
  unfold Holds at hholds
  cases hc : b.driver.current with
  | idle =>
    rw [hc] at hpoll hprotocol
    subst hprotocol
    exact h.fire hoff .start .convert _ _ nofun hpoll ⟨rfl, rfl⟩ rfl ⟨rfl, rfl⟩ hhistory
  | convert =>
    rw [hc, hoff] at hprotocol
    rw [hc] at hpoll hholds
    obtain ⟨hpresence, hphase, rfl⟩ := hprotocol
    simp only [(convert_fresh hholds).mpr hpresence, if_true] at hpoll
    exact h.fire hoff .convertOk .wait b.driver.cleared [] nofun hpoll ⟨rfl, rfl⟩ rfl ⟨hphase, rfl⟩ hhistory
  | wait =>
    rw [hc, hoff] at hprotocol
    rw [hc] at hpoll
    obtain ⟨r, hpending, rfl⟩ := hprotocol
    exact h.fire hoff .wait .continue_ b.driver.cleared [] nofun hpoll ⟨rfl, rfl⟩ rfl
      ⟨r, hpending, wait_duration b.timer, rfl⟩ hhistory
  | continue_ =>
    rw [hc, hoff] at hprotocol
    rw [hc] at hpoll
    obtain ⟨r, hmeasured, rfl⟩ := hprotocol
    exact h.fire hoff .continue_ .request b.driver.cleared [] nofun hpoll ⟨rfl, rfl⟩ rfl
      ⟨rfl, r, hmeasured, rfl⟩ hhistory
  | request =>
    rw [hc, hoff] at hprotocol
    rw [hc] at hpoll hholds
    obtain ⟨hpresence, hphase, r, hmeasured, rfl⟩ := hprotocol
    have htwo : b.driver.log.length = 2 := by
      obtain ⟨e₀, e₁, hlog, -⟩ := hpresence
      rw [hlog]
      rfl
    simp only [((request_fresh hholds).mpr (Or.inl htwo)).mpr hpresence, if_true] at hpoll
    exact h.fire hoff .requestOk .read b.driver.cleared [] nofun hpoll ⟨rfl, rfl⟩ rfl
      ⟨hphase, r, hmeasured, rfl⟩ hhistory
  | read =>
    rw [hc, hoff] at hprotocol
    rw [hc] at hpoll
    obtain ⟨hphase, r, hmeasured, rfl⟩ := hprotocol
    exact h.fire hoff .read .decode b.driver.cleared [] nofun hpoll ⟨rfl, rfl⟩ rfl
      ⟨rfl, hphase, r, hmeasured, rfl⟩ hhistory
  | decode =>
    rw [hc, hoff] at hprotocol
    rw [hc] at hpoll
    obtain ⟨r, hcarries, rfl⟩ := hprotocol
    have heffects := poll_carried h.holds hdue hc hcarries
    rw [hpoll, r.reported] at heffects
    have hreports : reports (DS18B20.fire .decode .idle b.driver.cleared).2 = [r.temp] := by
      rw [heffects]
      rfl
    have hidle : Protocol ⟨(DS18B20.fire .decode .idle b.driver.cleared).1,
        b.timer.writes Action.decode.writes, b.slave⟩ [] := rfl
    refine h.fire hoff .decode .idle b.driver.cleared [] nofun hpoll ⟨rfl, rfl⟩ rfl hidle ?_
    rw [hreports]
    exact hhistory
  | start =>
    rw [hc] at hprotocol
    exact hprotocol.elim
  | error =>
    rw [hc] at hprotocol
    exact hprotocol.elim

theorem poll_inv (h : Inv b es) : Inv b.poll.1 (es ++ b.poll.2) := by
  cases hoff : b.timer.running with
  | true =>
    rw [poll_quiet_bus h hoff, List.append_nil]
    exact h
  | false => exact (poll_advances h hoff).1

end Polls

/-! ## Runs -/

theorem boot_inv (s : Slave Reading) : Inv (boot s) [] := by
  have hstopped : DS18B20.init.running = false := by decide
  exact ⟨trivial, hstopped, rfl, ⟨rfl, rfl, rfl, rfl⟩, [], rfl, rfl⟩

theorem step_inv {b : SensorBus} {es : List Effect} (h : Inv b es) (i : Input) :
    Inv (step b i).1 (es ++ (step b i).2) := by
  cases i with
  | poll => exact poll_inv h
  | shot c measured =>
    show Inv (b.shot c measured) (es ++ [])
    rw [List.append_nil]
    exact shot_inv c measured h

theorem run_inv (s : Slave Reading) (is : List Input) :
    Inv (Trace.run step (boot s) is).1 (Trace.run step (boot s) is).2 :=
  Trace.run_invariant Inv (fun _ _ i h => step_inv h i) (boot_inv s) is

/-- How many temperatures are not reported yet. -/
def open_ : FsmStates → Bool → Nat
  | .wait, false | .continue_, _ | .request, _ | .read, _ | .decode, _ => 1
  | .idle, _ | .start, _ | .convert, _ | .wait, true | .error, _       => 0

theorem Protocol.length {b : SensorBus} {waiting : List Int} (h : Protocol b waiting) :
    waiting.length = open_ b.driver.current b.timer.running := by
  unfold Protocol at h
  cases hc : b.driver.current <;> cases hr : b.timer.running <;> rw [hc, hr] at h <;> grind [open_]

theorem Inv.reported {b : SensorBus} {es : List Effect} (h : Inv b es) :
    ∃ waiting, waiting.length ≤ 1 ∧ b.slave.history.map Reading.temp = reports es ++ waiting := by
  obtain ⟨waiting, hprotocol, hhistory⟩ := h.protocol
  refine ⟨waiting, ?_, hhistory⟩
  rw [hprotocol.length]
  unfold open_
  split <;> decide

theorem reports_temperature (s : Slave Reading) (is : List Input) :
    ∀ t ∈ reports (Trace.run step (boot s) is).2, IsTemperature t := by
  intro t ht
  obtain ⟨waiting, -, hhistory⟩ := (run_inv s is).reported
  have hmem : t ∈ (Trace.run step (boot s) is).1.slave.history.map Reading.temp := by
    rw [hhistory]
    exact List.mem_append_left _ ht
  obtain ⟨r, -, rfl⟩ := List.mem_map.mp hmem
  exact r.temperature

/-- **Every measurement is reported, once and in order, and nothing else is.** Whatever state the sensor was in at
    power-on, whatever it measures and whenever its edges come: at any time the reports are the temperatures of the
    measurements that were started, but for the last one while it is under way; and these are the temperatures of the
    data sheets. -/
theorem measurements_reported (s : Slave Reading) (is : List Input) :
    (∃ waiting, waiting.length ≤ 1 ∧
      (Trace.run step (boot s) is).1.slave.history.map Reading.temp =
        reports (Trace.run step (boot s) is).2 ++ waiting) ∧
    ∀ r ∈ (Trace.run step (boot s) is).1.slave.history,
      |(r.temp : ℚ) / 10 - datasheet (scratch r.frame)| < 1 / 10 :=
  ⟨(run_inv s is).reported, fun r _ => r.temp_datasheet⟩

/-! ## Progress -/

/-- The turns of a cycle, from the start of a measurement on. -/
def position : FsmStates → Bool → Nat
  | .wait,      false => 0
  | .continue_, true  => 1
  | .continue_, false => 2
  | .request,   true  => 3
  | .request,   false => 4
  | .read,      true  => 5
  | .read,      false => 6
  | .decode,    true  => 7
  | .decode,    false => 8
  | .idle,      true  => 9
  | .idle,      false => 10
  | .convert,   true  => 11
  | .convert,   false => 12
  | .wait,      true  => 13
  | .start, _ | .error, _ => 0

def progress (b : SensorBus) : Nat := 14 * b.slave.history.length + position b.driver.current b.timer.running

/-- Between two polls the protocol is in a state of the cycle. -/
theorem Inv.between {b : SensorBus} {es : List Effect} (h : Inv b es) :
    b.driver.current ≠ .start ∧ b.driver.current ≠ .error := by
  obtain ⟨waiting, hprotocol, -⟩ := h.protocol
  unfold Protocol at hprotocol
  constructor <;> intro hc <;> rw [hc] at hprotocol <;> exact hprotocol

theorem poll_progress {b : SensorBus} {es : List Effect} (h : Inv b es) (hoff : b.timer.running = false) :
    b.poll.1.progress = b.progress + 1 ∧ b.poll.1.timer.running = true := by
  obtain ⟨-, hcurrent, hon, hslave⟩ := poll_advances h hoff
  refine ⟨?_, hon⟩
  have hturn : position (after b.driver.current) true = position b.driver.current false + 1 := by
    obtain ⟨hstart, herror⟩ := h.between
    cases hc : b.driver.current with
    | start => exact absurd hc hstart
    | error => exact absurd hc herror
    | _ => rfl
  unfold progress
  rw [hcurrent, hon, hslave, hoff, hturn, Nat.add_assoc]

theorem shot_progress {b : SensorBus} {es : List Effect} (h : Inv b es) (hon : b.timer.running = true) (c : Conduct)
    (measured : Reading) :
    (b.shot c measured).progress = b.progress + 1 ∧ (b.shot c measured).timer.running = false := by
  have hinv := shot_inv c measured h
  have harmed : b.timer.Armed (lowsIn b.driver.current) := by
    have hsends := h.sends
    rw [hon, if_pos rfl] at hsends
    exact hsends
  have hshot := shot_eq c measured hon harmed
  have hoff : (b.shot c measured).timer.running = false := by
    rw [hshot]
    exact harmed.quiet.stopped
  have hcurrent : (b.shot c measured).driver.current = b.driver.current := by
    rw [hshot, expire_current, captures_current]
  refine ⟨?_, hoff⟩
  obtain ⟨waiting, hprotocol, hhistory⟩ := h.protocol
  obtain ⟨waiting', hprotocol', hhistory'⟩ := hinv.protocol
  have hlength := congrArg List.length hhistory
  have hlength' := congrArg List.length hhistory'
  rw [List.length_map, List.length_append, hprotocol.length, hon] at hlength
  rw [List.length_map, List.length_append, hprotocol'.length, hcurrent, hoff] at hlength'
  obtain ⟨hstart, herror⟩ := h.between
  unfold progress
  rw [hcurrent, hoff, hon, hlength, hlength']
  cases hc : b.driver.current with
  | start => exact absurd hc hstart
  | error => exact absurd hc herror
  | wait =>
    simp only [open_, position]
    omega
  | _ => simp only [open_, position]

/-- Nothing is undone, and the turn that is due goes one further. -/
theorem step_progress {b : SensorBus} {es : List Effect} (h : Inv b es) (i : Input) :
    (step b i = (b, []) ∧ (i = .poll ↔ b.timer.running = true)) ∨
    (step b i).1.progress = b.progress + 1 := by
  cases i with
  | poll =>
    cases hr : b.timer.running with
    | true => exact Or.inl ⟨poll_quiet_bus h hr, by simp⟩
    | false => exact Or.inr (poll_progress h hr).1
  | shot c measured =>
    cases hr : b.timer.running with
    | true => exact Or.inr (shot_progress h hr c measured).1
    | false =>
      have hsame : b.shot c measured = b := if_neg (by rw [hr]; exact Bool.false_ne_true)
      refine Or.inl ⟨?_, by simp⟩
      show (b.shot c measured, []) = (b, [])
      rw [hsame]

/-- The main loop polls, and the timer has the time for a shot, in either order. -/
def Turn (block : List Input) : Prop := .poll ∈ block ∧ ∃ c measured, .shot c measured ∈ block

theorem run_progress_ge {b : SensorBus} {es : List Effect} (h : Inv b es) (is : List Input) :
    b.progress ≤ (Trace.run step b is).1.progress := by
  induction is generalizing b es with
  | nil => exact Nat.le_refl _
  | cons i is ih =>
    have hrest := ih (step_inv h i)
    rw [Trace.run_cons]
    rcases step_progress h i with ⟨hsame, -⟩ | hmore
    · rw [hsame] at hrest ⊢
      exact hrest
    · exact Nat.le_trans (by omega) hrest

theorem run_progress_le {b : SensorBus} {es : List Effect} (h : Inv b es) (is : List Input) :
    (Trace.run step b is).1.progress ≤ b.progress + is.length := by
  induction is generalizing b es with
  | nil => exact Nat.le_refl _
  | cons i is ih =>
    have hrest := ih (step_inv h i)
    rw [Trace.run_cons, List.length_cons]
    rcases step_progress h i with ⟨hsame, -⟩ | hmore
    · rw [hsame] at hrest ⊢
      exact Nat.le_trans hrest (Nat.add_le_add_left (Nat.le_succ is.length) b.progress)
    · exact Nat.le_trans hrest (by omega)

/-- **A turn goes at least one further**: what is due comes up in it. -/
theorem turn_progress {b : SensorBus} {es : List Effect} (h : Inv b es) {block : List Input}
    (hdue : if b.timer.running then ∃ c measured, .shot c measured ∈ block else .poll ∈ block) :
    b.progress < (Trace.run step b block).1.progress := by
  induction block generalizing b es with
  | nil =>
    split_ifs at hdue
    · obtain ⟨c, measured, hmem⟩ := hdue
      cases hmem
    · cases hdue
  | cons i block ih =>
    rw [Trace.run_cons]
    rcases step_progress h i with ⟨hsame, hkind⟩ | hmore
    · -- out of turn: nothing happens, and what is due is still to come
      rw [hsame]
      refine ih h ?_
      split_ifs at hdue ⊢ with hon
      · obtain ⟨c, measured, hmem⟩ := hdue
        rcases List.mem_cons.mp hmem with rfl | hmem
        · cases hkind.mpr hon
        · exact ⟨c, measured, hmem⟩
      · rcases List.mem_cons.mp hdue with rfl | hmem
        · exact absurd (hkind.mp rfl) hon
        · exact hmem
    · have hrest := run_progress_ge (step_inv h i) block
      exact Nat.lt_of_lt_of_le (by omega) hrest

/-- The progress tells the number of reports. -/
theorem Inv.turns {b : SensorBus} {es : List Effect} (h : Inv b es) :
    14 * (reports es).length + 9 ≤ b.progress ∧ b.progress ≤ 14 * (reports es).length + 22 := by
  obtain ⟨hstart, herror⟩ := h.between
  obtain ⟨waiting, hprotocol, hhistory⟩ := h.protocol
  have hlength := congrArg List.length hhistory
  rw [List.length_map, List.length_append, hprotocol.length] at hlength
  unfold progress
  rw [hlength]
  cases hc : b.driver.current with
  | start => exact absurd hc hstart
  | error => exact absurd hc herror
  | _ =>
    cases b.timer.running <;> simp only [open_, position] <;> omega

/-- In thirty inputs there is time for three reports at most. -/
theorem reports_rate (s : Slave Reading) (pre post : List Input) (hshort : post.length ≤ 30) :
    (reports (Trace.run step (boot s) (pre ++ post)).2).length ≤
      (reports (Trace.run step (boot s) pre).2).length + 3 := by
  have hprogress := run_progress_le (run_inv s pre) post
  have hrun : (Trace.run step (Trace.run step (boot s) pre).1 post).1 = (Trace.run step (boot s) (pre ++ post)).1 := by
    rw [Trace.run_append]
  rw [hrun] at hprogress
  have hlow := (run_inv s (pre ++ post)).turns.1
  have hhigh := (run_inv s pre).turns.2
  omega

/-- After so many turns, so many temperatures have been reported. -/
theorem reports_grow (s : Slave Reading) (n : Nat) {turns : List (List Input)} (hturns : ∀ t ∈ turns, Turn t)
    (hmany : 14 * (n + 1) ≤ turns.length) : n ≤ (reports (Trace.run step (boot s) turns.flatten).2).length := by
  have hgoal : 14 * (n + 1) ≤ (Trace.run step (boot s) turns.flatten).1.progress := by
    refine Trace.run_progress (fun b => ∃ es, Inv b es) (fun b => 14 * (n + 1) ≤ b.progress)
      (fun b => 14 * (n + 1) - b.progress) (C := fun _ t => Turn t) ?_ ?_ ?_ ⟨[], boot_inv s⟩ ?_ ?_
    · rintro b i ⟨es, h⟩
      exact ⟨_, step_inv h i⟩
    · rintro b i ⟨es, h⟩ hdone
      exact Nat.le_trans hdone (run_progress_ge h [i])
    · rintro b t ⟨es, h⟩ ⟨hpoll, hshot⟩ hnot
      have hmore : b.progress < (Trace.run step b t).1.progress := by
        refine turn_progress h ?_
        split_ifs
        · exact hshot
        · exact hpoll
      omega
    · rw [Trace.along_iff_prefix]
      intro pre t post hsplit
      exact hturns t (by rw [hsplit]; exact List.mem_append_right _ List.mem_cons_self)
    · have hstart : (boot s).progress = 10 := rfl
      rw [hstart]
      omega
  have hhigh := (run_inv s turns.flatten).turns.2
  omega

/-- **The measurements go on.** Fourteen turns make a measurement: after `14 * (n + 1)` of them, in whatever order each
    has its polls and shots, `n` temperatures have been reported. -/
theorem measurements_go_on (s : Slave Reading) (n : Nat) {turns : List (List Input)} (hturns : ∀ t ∈ turns, Turn t)
    (hmany : 14 * (n + 1) ≤ turns.length) : n ≤ (reports (Trace.run step (boot s) turns.flatten).2).length := by
  exact reports_grow s n hturns hmany

/-- A DS18B20 at 25 degrees. -/
def warm : Reading :=
  ⟨Bytes.tabulate 9 ([0x90, 0x01, 0x4B, 0x46, 0x7F, 0xFF, 0x0F, 0x10, 0x66].getD · 0), by decide +kernel,
    Or.inl (by decide +kernel)⟩

/-- Edges in the middle of their windows. -/
def typical : Conduct :=
  ⟨5, 30, 120, fun _ => 2, fun _ => 30, by decide, by decide, by decide, by decide, by decide, fun _ => by decide,
    fun _ => by decide, fun _ => by decide⟩

theorem measurements_go_on_warm :
    1 ≤ (reports (Trace.run step (boot ⟨.talking 5, warm, none, []⟩)
      (List.replicate 28 [.shot typical warm, .poll]).flatten).2).length := by
  refine measurements_go_on ⟨.talking 5, warm, none, []⟩ 1 (fun t ht => ?_) (by decide)
  rw [List.eq_of_mem_replicate ht]
  exact ⟨by simp, typical, warm, by simp⟩

end SensorBus
end Thermostat
