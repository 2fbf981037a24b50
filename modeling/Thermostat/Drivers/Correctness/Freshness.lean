import Thermostat.Drivers.Correctness.Cycle

/-!
# `Drivers.Correctness.Freshness` — which decisions rest on this cycle's captures

The union is filled in `action_idle` only. After the second reset it still holds the edges of the first,
and after `action_read` it holds whatever was there before. So the presence decision in `CONVERT` always
rests on the captures of its own reset (missing edges read as `0xFFFF`), the one in `REQUEST` and the
reading in `DECODE` only if enough captures came in. `fresh_iff` gives the exact condition for a run.
-/

namespace Thermostat
namespace DS18B20

/-! ## The property -/

/-- The edge number `k` of a presence pulse lies in its window. -/
def inWindow (k : Nat) (e : UInt16) : Prop :=
  if k = 0 then e ≥ resetPulseMin ∧ e ≤ resetPulseMax
  else e ≥ presencePulseMin ∧ e ≤ presencePulseMax

instance (k : Nat) (e : UInt16) : Decidable (inWindow k e) :=
  inferInstanceAs (Decidable (if k = 0 then _ ∧ _ else _ ∧ _))

/-- A presence pulse was captured: two edges, both in their windows. -/
def PresenceIn (log : List UInt16) : Prop :=
  ∃ e₀ e₁, log = [e₀, e₁] ∧ inWindow 0 e₀ ∧ inWindow 1 e₁

/-- A value that is pushed as `TemperatureReady`: none of the error codes. -/
def IsTemperature (t : Int) : Prop :=
  t ≠ tempErrorGeneric ∧ t ≠ tempErrorNoSensor ∧ t ≠ tempErrorCrcFail

instance (t : Int) : Decidable (IsTemperature t) := inferInstanceAs (Decidable (_ ∧ _ ∧ _))

/-- What `decode` reports for a memory full of pulses. -/
def reportOf (pulses : Bytes 72) : Effect :=
  decodeReport (detectSensorType (decodeScratchpad pulses)) (decodeScratchpad pulses)

/-- The memory that holds captured pulses and nothing else. -/
def pulseMemory (log : List UInt16) : Bytes 72 :=
  Bytes.tabulate 72 (fun k => UInt8.ofNat (log.getD k 0).toNat)

/-- One poll decides on fresh captures: presence after both resets, and 72 pulses for a temperature. -/
def FreshOk (d : DS18B20) : Input → Prop
  | .poll => d.tim.uif = true →
      (d.current = .convert → (Action.convertOk ∈ actions d.poll.2 ↔ PresenceIn d.log)) ∧
      (d.current = .request → (Action.requestOk ∈ actions d.poll.2 ↔ PresenceIn d.log)) ∧
      (d.current = .decode → ∀ t ∈ reports d.poll.2, IsTemperature t →
        d.log.length = 72 ∧ reportOf (pulseMemory d.log) = .tempReady t)
  | _ => True

/-- The memory passes the CRC and decodes to a temperature. -/
def YieldsTemperature (m : Bytes 72) : Prop := ∃ t, reportOf m = .tempReady t ∧ IsTemperature t

/-- Enough captures, or captures and left-overs that decide nothing: a single edge outside its window; a
    memory that yields no temperature. -/
def EnoughCaptures (d : DS18B20) : Input → Prop
  | .poll => d.tim.uif = true →
      (d.current = .request → d.log.length = 2 ∨ ∃ e, d.log = [e] ∧ ¬ inWindow 0 e) ∧
      (d.current = .decode → d.log.length = 72 ∨ ¬ YieldsTemperature d.mem)
  | _ => True

/-! ## The capture buffers -/

/-- Channel 3 was armed for two edges and has stored those of the log; the other edges satisfy `P`. -/
structure EdgesArmed (d : DS18B20) (P : Nat → UInt16 → Prop) : Prop where
  dier : d.tim.dier = dierCc2de
  ccr : d.dma3.ccr = dmaMinc ||| dmaPsize0 ||| dmaMsize0 ||| dmaEn
  moved : d.dma3.moved = d.log.length
  room : d.dma3.moved + d.dma3.cndtr = 2
  stored : ∀ k v, d.log[k]? = some v → d.edge k = v
  rest : ∀ k < 2, d.log.length ≤ k → P k (d.edge k)

/-- Channel 3 was armed for 72 pulses and has stored those of the log. -/
structure PulsesArmed (d : DS18B20) : Prop where
  dier : d.tim.dier = dierCc2de
  ccr : d.dma3.ccr = dmaMinc ||| dmaPsize0 ||| dmaEn
  moved : d.dma3.moved = d.log.length
  room : d.dma3.moved + d.dma3.cndtr = 72
  stored : ∀ k v, d.log[k]? = some v → d.mem.rd k = UInt8.ofNat v.toNat

/-- Channel 3 is not requested, and both edges are in their windows. -/
structure EdgesKept (d : DS18B20) : Prop where
  dier : d.tim.dier = dierCc4de
  kept : ∀ k < 2, inWindow k (d.edge k)

/-- What the memory is, by the state. -/
def Holds (d : DS18B20) : Prop :=
  match d.current with
  | .convert => EdgesArmed d (fun _ e => e = 0xFFFF)
  | .wait | .continue_ => EdgesKept d
  | .request => EdgesArmed d inWindow
  | .decode => PulsesArmed d
  | .idle | .read => True
  | .start | .error => False

/-- A channel that was armed for `n` captures listens until it has stored them. -/
theorem listening_iff {d : DS18B20} {n : Nat} (hdier : d.tim.dier = dierCc2de)
    (henabled : d.dma3.ccr &&& dmaEn ≠ 0) (hmoved : d.dma3.moved = d.log.length)
    (hroom : d.dma3.moved + d.dma3.cndtr = n) : d.listening = true ↔ d.log.length < n := by
  have hrequested : d.tim.dier &&& dierCc2de ≠ 0 := by rw [hdier]; decide
  constructor
  · intro hlisten
    have hleft := (of_decide_eq_true hlisten).2.2
    omega
  · intro hlength
    exact decide_eq_true ⟨hrequested, henabled, by omega⟩

theorem listening_edges {d : DS18B20} {P : Nat → UInt16 → Prop} (h : EdgesArmed d P) :
    d.listening = true ↔ d.log.length < 2 :=
  listening_iff h.dier (by rw [h.ccr]; decide) h.moved h.room

theorem listening_pulses {d : DS18B20} (h : PulsesArmed d) : d.listening = true ↔ d.log.length < 72 :=
  listening_iff h.dier (by rw [h.ccr]; decide) h.moved h.room

theorem listening_kept {d : DS18B20} (h : EdgesKept d) : d.listening = false := by
  unfold listening
  rw [h.dier, show dierCc4de &&& dierCc2de = 0 from by decide]
  simp

/-- Reading the log after one more capture. -/
theorem log_append {log : List UInt16} {v w : UInt16} {k : Nat} (h : (log ++ [v])[k]? = some w) :
    k < log.length ∧ log[k]? = some w ∨ k = log.length ∧ w = v := by
  rcases Nat.lt_trichotomy k log.length with hlt | heq | hgt
  · rw [List.getElem?_append_left hlt] at h
    exact Or.inl ⟨hlt, h⟩
  · subst heq
    rw [List.getElem?_append_right (Nat.le_refl _), Nat.sub_self] at h
    exact Or.inr ⟨rfl, (Option.some.inj h).symm⟩
  · rw [List.getElem?_eq_none (by rw [List.length_append]; exact hgt)] at h
    cases h

/-- A capture into the edge buffer: the next edge is stored, the others stay. -/
theorem EdgesArmed.capture {d : DS18B20} {P : Nat → UInt16 → Prop} (h : EdgesArmed d P) (v : UInt16) :
    EdgesArmed (d.capture v) P := by
  unfold DS18B20.capture
  by_cases hroom : d.log.length < 2
  · have hwide : d.dma3.ccr &&& dmaMsize0 ≠ 0 := by rw [h.ccr]; decide
    have htotal := h.room
    have hmoved := h.moved
    rw [if_pos ((listening_edges h).mpr hroom)]
    simp only [if_pos hwide]
    refine ⟨h.dier, h.ccr, ?_, ?_, ?_, ?_⟩
    · show d.dma3.moved + 1 = (d.log ++ [v]).length
      rw [List.length_append, hmoved]
      rfl
    · show d.dma3.moved + 1 + (d.dma3.cndtr - 1) = 2
      omega
    · intro k w hk
      show (d.mem.wr16 d.dma3.moved v).rd16 k = w
      rcases log_append hk with ⟨hlt, hold⟩ | ⟨rfl, rfl⟩
      · rw [Bytes.rd16_wr16_ne _ (by omega)]
        exact h.stored k w hold
      · rw [hmoved]
        exact Bytes.rd16_wr16_same _ (by omega) w
    · intro k hk hlength
      show P k ((d.mem.wr16 d.dma3.moved v).rd16 k)
      have hlater : d.log.length + 1 ≤ k := by
        rw [List.length_append] at hlength
        exact hlength
      rw [Bytes.rd16_wr16_ne _ (by omega)]
      exact h.rest k hk (by omega)
  · rw [if_neg (mt (listening_edges h).mp hroom)]
    exact h

/-- A capture into the pulse buffer. -/
theorem PulsesArmed.capture {d : DS18B20} (h : PulsesArmed d) (v : UInt16) :
    PulsesArmed (d.capture v) := by
  unfold DS18B20.capture
  by_cases hroom : d.log.length < 72
  · have hnarrow : ¬ d.dma3.ccr &&& dmaMsize0 ≠ 0 := by rw [h.ccr]; decide
    have htotal := h.room
    have hmoved := h.moved
    rw [if_pos ((listening_pulses h).mpr hroom)]
    simp only [if_neg hnarrow]
    refine ⟨h.dier, h.ccr, ?_, ?_, ?_⟩
    · show d.dma3.moved + 1 = (d.log ++ [v]).length
      rw [List.length_append, hmoved]
      rfl
    · show d.dma3.moved + 1 + (d.dma3.cndtr - 1) = 72
      omega
    · intro k w hk
      show (d.mem.wr d.dma3.moved (UInt8.ofNat v.toNat)).rd k = UInt8.ofNat w.toNat
      rcases log_append hk with ⟨hlt, hold⟩ | ⟨rfl, rfl⟩
      · rw [Bytes.rd_wr_ne _ (by omega)]
        exact h.stored k w hold
      · rw [hmoved]
        exact Bytes.rd_wr_same _ (by omega) _
  · rw [if_neg (mt (listening_pulses h).mp hroom)]
    exact h

theorem holds_capture {d : DS18B20} (h : Holds d) (v : UInt16) : Holds (d.capture v) := by
  have hcurrent : (d.capture v).current = d.current := by
    unfold DS18B20.capture
    split_ifs <;> rfl
  unfold Holds at h ⊢
  rw [hcurrent]
  cases hc : d.current with
  | convert =>
      rw [hc] at h
      exact h.capture v
  | request =>
      rw [hc] at h
      exact h.capture v
  | decode =>
      rw [hc] at h
      exact h.capture v
  | wait =>
      rw [hc] at h
      unfold DS18B20.capture
      rw [listening_kept h, if_neg Bool.false_ne_true]
      exact h
  | continue_ =>
      rw [hc] at h
      unfold DS18B20.capture
      rw [listening_kept h, if_neg Bool.false_ne_true]
      exact h
  | idle => exact trivial
  | read => exact trivial
  | start =>
      rw [hc] at h
      exact h
  | error =>
      rw [hc] at h
      exact h

/-- The end of the timer changes nothing that the memory depends on. -/
theorem holds_expire {d : DS18B20} (h : Holds d) : Holds d.expire := by
  unfold expire
  split_ifs
  · unfold Holds at h ⊢
    cases hc : d.current with
    | convert =>
        simp only [hc] at h ⊢
        exact ⟨h.dier, h.ccr, h.moved, h.room, h.stored, h.rest⟩
    | request =>
        simp only [hc] at h ⊢
        exact ⟨h.dier, h.ccr, h.moved, h.room, h.stored, h.rest⟩
    | decode =>
        simp only [hc] at h ⊢
        exact ⟨h.dier, h.ccr, h.moved, h.room, h.stored⟩
    | wait =>
        simp only [hc] at h ⊢
        exact ⟨h.dier, h.kept⟩
    | continue_ =>
        simp only [hc] at h ⊢
        exact ⟨h.dier, h.kept⟩
    | idle => exact trivial
    | read => exact trivial
    | start =>
        simp only [hc] at h
    | error =>
        simp only [hc] at h
  · exact h

/-! ## Polls -/

/-- Arming for edges keeps the memory, empties the log, and leaves whatever `P` the edges satisfy. -/
theorem resetBus_armed {d : DS18B20} {P : Nat → UInt16 → Prop} (hP : ∀ k < 2, P k (d.edge k)) :
    EdgesArmed d.resetBus.1 P :=
  ⟨rfl, rfl, rfl, rfl, by simp [resetBus, forceUpdateEvent, onePulseMode], fun k hk _ => hP k hk⟩

theorem readData_armed (d : DS18B20) : PulsesArmed d.readData.1 :=
  ⟨rfl, rfl, rfl, rfl, by simp [readData, forceUpdateEvent, onePulseMode]⟩

/-- Filling the union makes both edges `0xFFFF`. -/
theorem fillUnion_edge (m : Bytes 72) (k : Nat) (hk : k < 2) : (fillUnion m).rd16 k = 0xFFFF := by
  have hbyte : ∀ i < 4, (fillUnion m).rd i = 0xFF := by
    intro i hi
    simp only [fillUnion, List.range_succ, List.range_zero, List.nil_append, List.foldl_append,
      List.foldl_cons, List.foldl_nil, Bytes.rd_wr]
    split_ifs <;> first | rfl | omega
  unfold Bytes.rd16
  rw [hbyte _ (by omega), hbyte _ (by omega)]
  rfl

/-- The presence check is the check of both windows. -/
theorem checkPresence_iff (d : DS18B20) :
    d.checkPresence = true ↔ inWindow 0 (d.edge 0) ∧ inWindow 1 (d.edge 1) := by
  unfold checkPresence inWindow
  rw [decide_eq_true_iff]
  constructor
  · rintro ⟨h1, h2, h3, h4⟩
    exact ⟨⟨h1, h2⟩, h3, h4⟩
  · rintro ⟨⟨h1, h2⟩, h3, h4⟩
    exact ⟨h1, h2, h3, h4⟩

theorem inWindow_of_presence {d : DS18B20} (h : d.checkPresence = true) :
    ∀ k < 2, inWindow k (d.edge k) := by
  obtain ⟨h0, h1⟩ := (checkPresence_iff d).mp h
  intro k hk
  rcases Nat.lt_or_ge k 1 with hlt | hge
  · rw [show k = 0 from by omega]
    exact h0
  · rw [show k = 1 from by omega]
    exact h1

theorem holds_poll {d : DS18B20} (h : Holds d) (huif : d.tim.uif = true) : Holds d.poll.1 := by
  have hpoll := poll_eq huif
  unfold Holds at h
  cases hc : d.current with
  | idle =>
      rw [hc] at hpoll
      rw [hpoll]
      have harmed := resetBus_armed (P := fun _ e => e = 0xFFFF)
        (d := ledControl (fire .idle .start d.cleared).1 true) (fun k hk => fillUnion_edge d.mem k hk)
      exact ⟨harmed.dier, harmed.ccr, harmed.moved, harmed.room, harmed.stored, harmed.rest⟩
  | convert =>
      rw [hc] at hpoll
      cases hp : d.checkPresence with
      | true =>
          rw [hp] at hpoll
          rw [hpoll]
          exact ⟨rfl, inWindow_of_presence hp⟩
      | false =>
          rw [hp] at hpoll
          rw [hpoll]
          exact trivial
  | wait =>
      rw [hc] at h hpoll
      rw [hpoll]
      exact ⟨h.dier, h.kept⟩
  | continue_ =>
      rw [hc] at h hpoll
      rw [hpoll]
      have harmed := resetBus_armed (d := d.cleared) h.kept
      exact ⟨harmed.dier, harmed.ccr, harmed.moved, harmed.room, harmed.stored, harmed.rest⟩
  | request =>
      rw [hc] at hpoll
      cases hp : d.checkPresence <;> rw [hp] at hpoll <;> rw [hpoll] <;> exact trivial
  | read =>
      rw [hc] at hpoll
      rw [hpoll]
      have harmed := readData_armed d.cleared
      exact ⟨harmed.dier, harmed.ccr, harmed.moved, harmed.room, harmed.stored⟩
  | decode =>
      rw [hc] at hpoll
      rw [hpoll]
      exact trivial
  | start =>
      rw [hc] at h
      exact h.elim
  | error =>
      rw [hc] at h
      exact h.elim

theorem holds_step {d : DS18B20} (h : Holds d) (i : Input) : Holds (step d i).1 := by
  cases i with
  | capture v => exact holds_capture h v
  | expire => exact holds_expire h
  | poll =>
      show Holds d.poll.1
      cases huif : d.tim.uif with
      | true => exact holds_poll h huif
      | false =>
          rw [poll_quiet huif]
          exact h

/-! ## Decisions -/

/-- The decision on an armed buffer, by the number of edges captured. -/
theorem checkPresence_armed {d : DS18B20} {P : Nat → UInt16 → Prop} (h : EdgesArmed d P) :
    (d.log = [] ∧ P 0 (d.edge 0) ∧ P 1 (d.edge 1)) ∨
    (∃ e, d.log = [e] ∧ d.edge 0 = e ∧ P 1 (d.edge 1)) ∨
    (∃ e₀ e₁, d.log = [e₀, e₁] ∧ d.edge 0 = e₀ ∧ d.edge 1 = e₁) := by
  have hmoved := h.moved
  have hroom := h.room
  have hstored := h.stored
  have hrest := h.rest
  cases hlog : d.log with
  | nil =>
      rw [hlog] at hrest
      exact Or.inl ⟨rfl, hrest 0 (by omega) (Nat.zero_le _), hrest 1 (by omega) (Nat.zero_le _)⟩
  | cons e₀ tail =>
      cases tail with
      | nil =>
          rw [hlog] at hstored hrest
          exact Or.inr (Or.inl ⟨e₀, rfl, hstored 0 e₀ rfl, hrest 1 (by omega) (Nat.le_refl _)⟩)
      | cons e₁ tail =>
          have hnil : tail = [] := by
            rw [hlog, List.length_cons, List.length_cons] at hmoved
            exact List.eq_nil_of_length_eq_zero (by omega)
          subst hnil
          rw [hlog] at hstored
          exact Or.inr (Or.inr ⟨e₀, e₁, rfl, hstored 0 e₀ rfl, hstored 1 e₁ rfl⟩)

/-- In `CONVERT` the decision is fresh whatever was captured: a missing edge is in no window. -/
theorem convert_fresh {d : DS18B20} (h : EdgesArmed d (fun _ e => e = 0xFFFF)) :
    d.checkPresence = true ↔ PresenceIn d.log := by
  have hfirst : ¬ inWindow 0 0xFFFF := by decide
  have hsecond : ¬ inWindow 1 0xFFFF := by decide
  rw [checkPresence_iff]
  rcases checkPresence_armed h with ⟨hlog, h0, h1⟩ | ⟨e, hlog, h0, h1⟩ | ⟨e₀, e₁, hlog, h0, h1⟩
  · rw [hlog, h0]
    refine ⟨fun hw => absurd hw.1 hfirst, ?_⟩
    rintro ⟨e₀, e₁, hcontra, -⟩
    cases hcontra
  · rw [hlog, h1]
    refine ⟨fun hw => absurd hw.2 hsecond, ?_⟩
    rintro ⟨e₀, e₁, hcontra, -⟩
    cases hcontra
  · rw [hlog, h0, h1]
    refine ⟨fun hw => ⟨e₀, e₁, rfl, hw⟩, ?_⟩
    rintro ⟨a, b, heq, hw⟩
    cases heq
    exact hw

/-- In `REQUEST` left-over edges pass their windows, so the decision is fresh exactly if both edges were
    captured, or the one captured decides against. -/
theorem request_fresh {d : DS18B20} (h : EdgesArmed d inWindow) :
    (d.checkPresence = true ↔ PresenceIn d.log) ↔
      d.log.length = 2 ∨ ∃ e, d.log = [e] ∧ ¬ inWindow 0 e := by
  rw [checkPresence_iff]
  rcases checkPresence_armed h with ⟨hlog, h0, h1⟩ | ⟨e, hlog, h0, h1⟩ | ⟨e₀, e₁, hlog, h0, h1⟩
  · rw [hlog]
    constructor
    · intro hfresh
      obtain ⟨e₀, e₁, hcontra, -⟩ := hfresh.mp ⟨h0, h1⟩
      cases hcontra
    · rintro (hcontra | ⟨e, hcontra, -⟩) <;> cases hcontra
  · rw [hlog, h0]
    constructor
    · intro hfresh
      refine Or.inr ⟨e, rfl, ?_⟩
      intro hin
      obtain ⟨e₀, e₁, hcontra, -⟩ := hfresh.mp ⟨hin, h1⟩
      cases hcontra
    · rintro (hcontra | ⟨e', heq, hout⟩)
      · cases hcontra
      · cases heq
        refine ⟨fun hw => absurd hw.1 hout, ?_⟩
        rintro ⟨e₀, e₁, hcontra, -⟩
        cases hcontra
  · rw [hlog, h0, h1]
    refine ⟨fun _ => Or.inl rfl, fun _ => ⟨fun hw => ⟨e₀, e₁, rfl, hw⟩, ?_⟩⟩
    rintro ⟨a, b, heq, hw⟩
    cases heq
    exact hw

/-- With all pulses captured, the memory is the captures. -/
theorem mem_eq_pulses {d : DS18B20} (h : PulsesArmed d) (hfull : d.log.length = 72) :
    d.mem = pulseMemory d.log := by
  apply Bytes.ext_rd
  intro i hi
  have hlt : i < d.log.length := by omega
  have hcapture : d.log[i]? = some d.log[i] := List.getElem?_eq_getElem hlt
  rw [pulseMemory, Bytes.rd_tabulate hi, h.stored i d.log[i] hcapture, List.getD_eq_getElem?_getD,
    hcapture]
  rfl

theorem reports_decode (d : DS18B20) (t : Int) :
    t ∈ reports (fire .decode .idle d).2 ↔ reportOf d.mem = .tempReady t := by
  unfold fire
  rw [perform_effects]
  show t ∈ reports [_, reportOf d.mem, _] ↔ _
  rcases decodeReport_cases (detectSensorType (decodeScratchpad d.mem)) (decodeScratchpad d.mem)
    with ⟨u, hu⟩ | hzero
  · rw [reportOf, hu]
    simp [reports, eq_comm]
  · rw [reportOf, hzero]
    simp [reports]

/-- In `DECODE` a temperature is fresh exactly if all pulses were captured, or there is none. -/
theorem decode_fresh {d : DS18B20} (h : PulsesArmed d) :
    (∀ t, reportOf d.mem = .tempReady t → IsTemperature t →
        d.log.length = 72 ∧ reportOf (pulseMemory d.log) = .tempReady t) ↔
      d.log.length = 72 ∨ ¬ YieldsTemperature d.mem := by
  constructor
  · intro hfresh
    by_cases hyield : YieldsTemperature d.mem
    · obtain ⟨t, hreport, ht⟩ := hyield
      exact Or.inl (hfresh t hreport ht).1
    · exact Or.inr hyield
  · rintro (hfull | hnone) t hreport ht
    · rw [← mem_eq_pulses h hfull]
      exact ⟨hfull, hreport⟩
    · exact absurd ⟨t, hreport, ht⟩ hnone

theorem convert_decision {d : DS18B20} (huif : d.tim.uif = true) (hc : d.current = .convert) :
    Action.convertOk ∈ actions d.poll.2 ↔ d.checkPresence = true := by
  have hpoll := poll_eq huif
  rw [hc] at hpoll
  cases hp : d.checkPresence <;> rw [hp] at hpoll <;> rw [hpoll] <;> simp [fire_actions]

theorem request_decision {d : DS18B20} (huif : d.tim.uif = true) (hc : d.current = .request) :
    Action.requestOk ∈ actions d.poll.2 ↔ d.checkPresence = true := by
  have hpoll := poll_eq huif
  rw [hc] at hpoll
  cases hp : d.checkPresence <;> rw [hp] at hpoll <;> rw [hpoll] <;> simp [fire_actions]

theorem decode_reports {d : DS18B20} (huif : d.tim.uif = true) (hc : d.current = .decode) (t : Int) :
    t ∈ reports d.poll.2 ↔ reportOf d.mem = .tempReady t := by
  have hpoll := poll_eq huif
  rw [hc] at hpoll
  rw [hpoll]
  exact reports_decode d.cleared t

/-- **One step.** A step decides on fresh captures exactly if there are enough of them. -/
theorem freshOk_iff {d : DS18B20} (h : Holds d) (i : Input) : FreshOk d i ↔ EnoughCaptures d i := by
  cases i with
  | capture v => exact Iff.rfl
  | expire => exact Iff.rfl
  | poll =>
      apply imp_congr_right
      intro huif
      unfold Holds at h
      cases hc : d.current with
      | convert =>
          rw [hc] at h
          have hfresh := (convert_decision huif hc).trans (convert_fresh h)
          constructor
          · intro _
            constructor <;> intro hcontra <;> cases hcontra
          · intro _
            refine ⟨fun _ => hfresh, ?_, ?_⟩ <;> intro hcontra <;> cases hcontra
      | request =>
          rw [hc] at h
          have hiff := request_fresh h
          rw [← request_decision huif hc] at hiff
          constructor
          · rintro ⟨-, hfresh, -⟩
            refine ⟨fun _ => hiff.mp (hfresh rfl), ?_⟩
            intro hcontra
            cases hcontra
          · rintro ⟨henough, -⟩
            refine ⟨?_, fun _ => hiff.mpr (henough rfl), ?_⟩ <;> intro hcontra <;> cases hcontra
      | decode =>
          rw [hc] at h
          have hiff := decode_fresh h
          constructor
          · rintro ⟨-, -, hfresh⟩
            refine ⟨?_, fun _ => hiff.mp ?_⟩
            · intro hcontra
              cases hcontra
            · intro t hreport ht
              exact hfresh rfl t ((decode_reports huif hc t).mpr hreport) ht
          · rintro ⟨-, henough⟩
            refine ⟨?_, ?_, ?_⟩
            · intro hcontra
              cases hcontra
            · intro hcontra
              cases hcontra
            · intro _ t hreport ht
              exact hiff.mpr (henough rfl) t ((decode_reports huif hc t).mp hreport) ht
      | _ => simp

/-! ## Whole runs -/

/-- **Freshness.** A run decides on fresh captures exactly if every `REQUEST` and every `DECODE` of it
    finds enough of them. -/
theorem fresh_iff (is : List Input) :
    Trace.Along step FreshOk init is ↔ Trace.Along step EnoughCaptures init is := by
  refine Trace.along_congr Holds ?_ ?_ trivial
  · intro d i h _
    exact holds_step h i
  · intro d i h
    exact freshOk_iff h i

/-- A cycle up to `REQUEST`, with an answer to the first reset only. -/
def goneRun : List Input :=
  [.poll, .capture 500, .capture 600, .expire, .poll, .expire, .poll, .expire, .poll, .expire]

/-- The sensor is pulled off the bus before the second reset: no edge is captured, and `READ` is entered on
    the edges of the first. -/
theorem fresh_fails : ¬ Trace.Along step FreshOk init (goneRun ++ [.poll]) := by
  intro hfresh
  have hlast := (Trace.along_iff_prefix.mp hfresh) goneRun .poll [] rfl (by decide +kernel)
  have hread : Action.requestOk ∈ actions (Trace.run step init goneRun).1.poll.2 := by decide +kernel
  have hempty : (Trace.run step init goneRun).1.log = [] := by decide +kernel
  obtain ⟨e₀, e₁, hlog, -⟩ := (hlast.2.1 (by decide +kernel)).mp hread
  rw [hempty] at hlog
  cases hlog

end DS18B20
end Thermostat
