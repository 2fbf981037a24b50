import Thermostat.Drivers.UsartDriver
import Thermostat.Lib.Trace

/-!
# `Drivers.Correctness.UsartReception` — where the received bytes go

A byte that arrives is handed to the reader, waits in the buffer, waits in `RDR`, or is counted as an overrun:
`Law` is this account, with the order of the bytes. The handler reads `RDR` to clear `ORE`, but on this
peripheral the read leaves `ORE` set. So the account holds exactly in the runs in which no byte finds the
last one still in `RDR` (`reception_right_iff`), and after such a byte the receiver stays deaf
(`deaf_for_ever`).
-/

namespace Thermostat

variable {txBuffSize rxBuffSize : Nat}

/-! ## The handler and the receiver -/

namespace Usart1

theorem arrive_free {u : Usart1} (h : u.rxne = false) (byte : UInt8) :
    u.arrive byte = { u with rdr := byte, rxne := true } := by
  unfold arrive
  rw [if_neg (ne_true_of_eq_false h)]

theorem arrive_busy {u : Usart1} (h : u.rxne = true) (byte : UInt8) :
    u.arrive byte = { u with ore := true } := by
  unfold arrive
  rw [if_pos h]

end Usart1

namespace UsartDriver

/-- The transmitting half of the handler does not reach the receiver. -/
theorem handleTxe_rx (u : UsartDriver txBuffSize rxBuffSize) :
    u.handleTxe.rxBuf = u.rxBuf ∧ u.handleTxe.rxOverrunCount = u.rxOverrunCount ∧
    u.handleTxe.usart1.rxne = u.usart1.rxne ∧ u.handleTxe.usart1.ore = u.usart1.ore ∧
    u.handleTxe.usart1.rdr = u.usart1.rdr := by
  unfold handleTxe
  by_cases htxe : u.usart1.txe = true
  · rw [if_pos htxe]
    cases u.txBuf.front <;> exact ⟨rfl, rfl, rfl, rfl, rfl⟩
  · rw [if_neg htxe]
    exact ⟨rfl, rfl, rfl, rfl, rfl⟩

/-- Nothing clears `ORE`. -/
theorem handleIRQ_ore (u : UsartDriver txBuffSize rxBuffSize) : u.handleIRQ.usart1.ore = u.usart1.ore := by
  obtain ⟨-, -, -, hore, -⟩ := handleTxe_rx u
  unfold handleIRQ
  rw [← hore]
  unfold handleRx
  simp only
  split_ifs <;> rfl

theorem handleIRQ_rxne (u : UsartDriver txBuffSize rxBuffSize) : u.handleIRQ.usart1.rxne = false := by
  unfold handleIRQ handleRx
  simp only
  split_ifs with hore hrxne
  · rfl
  · rfl
  · rfl
  · simpa using hrxne

/-- With `ORE` set, the handler throws the byte in `RDR` away. -/
theorem handleIRQ_deaf {u : UsartDriver txBuffSize rxBuffSize} (hore : u.usart1.ore = true) :
    u.handleIRQ.rxBuf = u.rxBuf ∧ u.handleIRQ.rxOverrunCount = u.rxOverrunCount + 1 := by
  obtain ⟨hbuf, hcount, -, hore', -⟩ := handleTxe_rx u
  unfold handleIRQ handleRx
  rw [if_pos (hore'.trans hore)]
  exact ⟨hbuf, congrArg (· + 1) hcount⟩

/-- Without `ORE`, it puts the byte into the buffer, or counts it. -/
theorem handleIRQ_rx {u : UsartDriver txBuffSize rxBuffSize} (hore : u.usart1.ore = false) :
    (u.usart1.rxne = false → u.handleIRQ.rxBuf = u.rxBuf ∧ u.handleIRQ.rxOverrunCount = u.rxOverrunCount) ∧
    (u.usart1.rxne = true → u.rxBuf.full = false →
      u.handleIRQ.rxBuf = u.rxBuf.push u.usart1.rdr ∧ u.handleIRQ.rxOverrunCount = u.rxOverrunCount) ∧
    (u.usart1.rxne = true → u.rxBuf.full = true →
      u.handleIRQ.rxBuf = u.rxBuf ∧ u.handleIRQ.rxOverrunCount = u.rxOverrunCount + 1) := by
  obtain ⟨hbuf, hcount, hrxne, hore', hrdr⟩ := handleTxe_rx u
  have hclear : ¬ u.handleTxe.usart1.ore = true := by
    rw [hore', hore]
    exact Bool.false_ne_true
  unfold handleIRQ handleRx
  rw [if_neg hclear, hrxne]
  simp only [hbuf, hcount, hrdr]
  refine ⟨?_, ?_, ?_⟩
  · intro hempty
    rw [hempty]
    exact ⟨hbuf, hcount⟩
  · intro hbyte hroom
    simp [hbyte, hroom]
  · intro hbyte hfull
    simp [hbyte, hfull]

end UsartDriver

/-! ## Runs -/

/-- The driver, with the bytes that have arrived, the bytes handed to the reader, and the overruns that
    resets of the counter have made it forget. -/
structure Receiver (txBuffSize rxBuffSize : Nat) where
  driver : UsartDriver txBuffSize rxBuffSize
  arrived : List UInt8
  handed : List UInt8
  forgotten : Nat

namespace Receiver

inductive Input where
  | arrive (byte : UInt8)
  | irq
  | read
  | readByte
  | resetRxOverrunCount
  | enqueue (byte : UInt8)
  | transmitted
deriving DecidableEq, Repr

def step (s : Receiver txBuffSize rxBuffSize) : Input → Receiver txBuffSize rxBuffSize × List Unit
  | .arrive byte =>
      ({ s with
        driver := { s.driver with usart1 := s.driver.usart1.arrive byte }
        arrived := s.arrived ++ [byte] }, [])
  | .irq => ({ s with driver := s.driver.handleIRQ }, [])
  | .read =>
      ({ s with driver := s.driver.read.1, handed := s.handed ++ s.driver.read.2.toList }, [])
  | .readByte =>
      ({ s with
        driver := s.driver.readByte.1
        handed := s.handed ++
          if s.driver.readByte.2 < 0 then [] else [UInt8.ofNat s.driver.readByte.2.toNat] }, [])
  | .resetRxOverrunCount =>
      ({ s with
        driver := s.driver.resetRxOverrunCount
        forgotten := s.forgotten + s.driver.getRxOverrunCount.toNat }, [])
  | .enqueue byte => ({ s with driver := (s.driver.txEnqueueByte byte).1 }, [])
  | .transmitted =>
      ({ s with driver := { s.driver with usart1 := s.driver.usart1.transmitted } }, [])

/-- Nothing has arrived yet. -/
def start : Receiver txBuffSize rxBuffSize := ⟨UsartDriver.init, [], [], 0⟩

/-! ## The law -/

/-- The bytes handed over, followed by the buffer. -/
def received (s : Receiver txBuffSize rxBuffSize) : List UInt8 := s.handed ++ s.driver.rxBuf.items

/-- The received bytes are among the arrivals, in their order, and every arrival is accounted for. -/
structure Law (s : Receiver txBuffSize rxBuffSize) : Prop where
  order : s.received.Sublist s.arrived
  account : s.arrived.length = s.handed.length + s.driver.available +
    (s.forgotten + s.driver.getRxOverrunCount.toNat) + if s.driver.usart1.rxne then 1 else 0

/-- `ORE` is clear, and the next byte to arrive is stored if there is room. -/
def Listens (s : Receiver txBuffSize rxBuffSize) : Prop :=
  s.driver.usart1.ore = false ∧
  ∀ byte, s.driver.available < rxBuffSize →
    (((s.step (.arrive byte)).1.step .irq).1).driver.rxBuf.items = s.driver.rxBuf.items ++ [byte]

/-- What a step has to do: keep the law, and after the handler listen again. -/
def Right (s : Receiver txBuffSize rxBuffSize) (i : Input) : Prop :=
  Law (s.step i).1 ∧ (i = .irq → Listens (s.step i).1)

/-- No byte arrives while the last one is in `RDR`, and none meets a full buffer when the counter is at its
    end. -/
def Fits (s : Receiver txBuffSize rxBuffSize) : Input → Prop
  | .arrive _ => s.driver.usart1.rxne = false
  | .irq      =>
      ¬ (s.driver.usart1.rxne = true ∧ s.driver.rxBuf.full = true ∧
        s.driver.getRxOverrunCount.toNat = 4294967295)
  | _         => True

/-- The byte in `RDR`, if it is new. -/
def inRdr (s : Receiver txBuffSize rxBuffSize) : List UInt8 :=
  if s.driver.usart1.rxne then [s.driver.usart1.rdr] else []

/-- **The invariant of the right runs**: `ORE` is clear, and the byte in `RDR` comes behind the received
    ones. -/
structure Sound (s : Receiver txBuffSize rxBuffSize) : Prop where
  clear : s.driver.usart1.ore = false
  order : (s.received ++ s.inRdr).Sublist s.arrived
  account : s.arrived.length = s.handed.length + s.driver.available +
    (s.forgotten + s.driver.getRxOverrunCount.toNat) + if s.driver.usart1.rxne then 1 else 0

theorem start_sound : Sound (start : Receiver txBuffSize rxBuffSize) := by
  refine ⟨rfl, ?_, rfl⟩
  exact List.Sublist.refl []

variable {s : Receiver txBuffSize rxBuffSize}

theorem law_of_sound (h : Sound s) : Law s :=
  ⟨(List.sublist_append_left _ _).trans h.order, h.account⟩

/-! ## One step -/

/-- A byte that finds `RDR` free waits there. -/
theorem arrive_sound (h : Sound s) {byte : UInt8} (hfree : s.driver.usart1.rxne = false) :
    Sound (s.step (.arrive byte)).1 := by
  obtain ⟨hclear, horder, haccount⟩ := h
  unfold inRdr at horder
  rw [hfree, if_neg Bool.false_ne_true, List.append_nil] at horder
  rw [hfree, if_neg Bool.false_ne_true] at haccount
  show Sound { s with
    driver := { s.driver with usart1 := s.driver.usart1.arrive byte }
    arrived := s.arrived ++ [byte] }
  rw [Usart1.arrive_free hfree]
  refine ⟨hclear, ?_, ?_⟩
  · exact horder.append (List.Sublist.refl [byte])
  · show (s.arrived ++ [byte]).length = s.handed.length + s.driver.available +
      (s.forgotten + s.driver.getRxOverrunCount.toNat) + 1
    rw [List.length_append, haccount]
    rfl

/-- The handler moves the byte in `RDR` to the buffer, or counts it. -/
theorem irq_sound (h : Sound s) (hfits : Fits s .irq) : Sound (s.step .irq).1 := by
  obtain ⟨hclear, horder, haccount⟩ := h
  obtain ⟨hquiet, hstore, hcount⟩ := UsartDriver.handleIRQ_rx hclear
  have hrxne := s.driver.handleIRQ_rxne
  have hinRdr : (s.step .irq).1.inRdr = [] := by
    unfold inRdr
    exact if_neg (ne_true_of_eq_false hrxne)
  unfold inRdr at horder
  unfold UsartDriver.available UsartDriver.getRxOverrunCount at haccount
  refine ⟨(s.driver.handleIRQ_ore).trans hclear, ?_, ?_⟩
  · rw [hinRdr, List.append_nil]
    show (s.handed ++ s.driver.handleIRQ.rxBuf.items).Sublist s.arrived
    -- a new byte goes to the buffer if there is room; it was the last of the order already
    cases hbyte : s.driver.usart1.rxne with
    | false =>
        rw [(hquiet hbyte).1]
        exact (List.sublist_append_left _ _).trans horder
    | true =>
        cases hfull : s.driver.rxBuf.full with
        | true =>
            rw [(hcount hbyte hfull).1]
            exact (List.sublist_append_left _ _).trans horder
        | false =>
            rw [(hstore hbyte hfull).1, Fifo.push_items (Fifo.not_full_iff.mp hfull), ← List.append_assoc]
            rw [if_pos hbyte] at horder
            exact horder
  · show s.arrived.length = s.handed.length + s.driver.handleIRQ.rxBuf.items.length +
      (s.forgotten + s.driver.handleIRQ.rxOverrunCount.toNat) +
        if s.driver.handleIRQ.usart1.rxne then 1 else 0
    rw [hrxne, if_neg Bool.false_ne_true]
    cases hbyte : s.driver.usart1.rxne with
    | false =>
        rw [hbyte, if_neg Bool.false_ne_true] at haccount
        rw [(hquiet hbyte).1, (hquiet hbyte).2]
        exact haccount
    | true =>
        rw [if_pos hbyte] at haccount
        cases hfull : s.driver.rxBuf.full with
        | true =>
            -- the counter is not at its end, so it counts
            have hend : s.driver.rxOverrunCount.toNat ≠ 4294967295 := fun hend => hfits ⟨hbyte, hfull, hend⟩
            have hlt := s.driver.rxOverrunCount.toNat_lt
            rw [(hcount hbyte hfull).1, (hcount hbyte hfull).2, UInt32.toNat_add, haccount]
            show _ = _ + _ + (_ + (_ + 1) % 4294967296) + 0
            omega
        | false =>
            rw [(hstore hbyte hfull).1, (hstore hbyte hfull).2,
              Fifo.push_items (Fifo.not_full_iff.mp hfull), List.length_append, haccount]
            simp only [List.length_singleton]
            omega

/-- The receivers of two drivers are alike, their buffers apart. -/
structure SameReceiver (u v : UsartDriver txBuffSize rxBuffSize) : Prop where
  rxne : u.usart1.rxne = v.usart1.rxne
  ore : u.usart1.ore = v.usart1.ore
  rdr : u.usart1.rdr = v.usart1.rdr
  count : u.rxOverrunCount = v.rxOverrunCount

/-- The step hands over what leaves the buffer, and leaves the receiver alone otherwise. -/
def Takes (s t : Receiver txBuffSize rxBuffSize) : Prop :=
  ∃ u bytes, t = { s with driver := u, handed := s.handed ++ bytes } ∧ SameReceiver u s.driver ∧
    s.driver.rxBuf.items = bytes ++ u.rxBuf.items

theorem read_takes (s : Receiver txBuffSize rxBuffSize) : Takes s (s.step .read).1 := by
  refine ⟨s.driver.read.1, s.driver.read.2.toList, rfl, ?_⟩
  unfold UsartDriver.read
  cases hfront : s.driver.rxBuf.front with
  | none => exact ⟨⟨rfl, rfl, rfl, rfl⟩, rfl⟩
  | some byte => exact ⟨⟨rfl, rfl, rfl, rfl⟩, Fifo.front_pop hfront⟩

theorem readByte_takes (s : Receiver txBuffSize rxBuffSize) : Takes s (s.step .readByte).1 := by
  refine ⟨s.driver.readByte.1, _, rfl, ?_⟩
  unfold UsartDriver.readByte
  cases hfront : s.driver.rxBuf.front with
  | none => exact ⟨⟨rfl, rfl, rfl, rfl⟩, rfl⟩
  | some byte =>
      have hbyte : ¬ (byte.toNat : Int) < 0 := by omega
      simp only [if_neg hbyte, Int.toNat_natCast, UInt8.ofNat_toNat]
      exact ⟨⟨rfl, rfl, rfl, rfl⟩, Fifo.front_pop hfront⟩

/-- The transmitting side takes nothing. -/
theorem enqueue_takes (s : Receiver txBuffSize rxBuffSize) (byte : UInt8) :
    Takes s (s.step (.enqueue byte)).1 := by
  refine ⟨(s.driver.txEnqueueByte byte).1, [], ?_, ?_⟩
  · rw [List.append_nil]
    rfl
  · unfold UsartDriver.txEnqueueByte
    split_ifs <;> exact ⟨⟨rfl, rfl, rfl, rfl⟩, rfl⟩

theorem transmitted_takes (s : Receiver txBuffSize rxBuffSize) : Takes s (s.step .transmitted).1 := by
  refine ⟨{ s.driver with usart1 := s.driver.usart1.transmitted }, [], ?_, ⟨rfl, rfl, rfl, rfl⟩, rfl⟩
  rw [List.append_nil]
  rfl

theorem takes_received {t : Receiver txBuffSize rxBuffSize} (h : Takes s t) : t.received = s.received := by
  obtain ⟨u, bytes, rfl, -, hitems⟩ := h
  show s.handed ++ bytes ++ u.rxBuf.items = s.handed ++ s.driver.rxBuf.items
  rw [hitems, List.append_assoc]

theorem takes_sound {t : Receiver txBuffSize rxBuffSize} (ht : Takes s t) (h : Sound s) : Sound t := by
  -- what leaves the buffer is handed over: order and account only shift a column
  have hreceived := takes_received ht
  obtain ⟨u, bytes, rfl, ⟨hrxne, hore, hrdr, hcount⟩, hitems⟩ := ht
  obtain ⟨hclear, horder, haccount⟩ := h
  refine ⟨hore.trans hclear, ?_, ?_⟩
  · rw [hreceived]
    unfold inRdr at horder ⊢
    rw [hrxne, hrdr]
    exact horder
  · unfold UsartDriver.available UsartDriver.getRxOverrunCount at haccount
    rw [hitems, List.length_append] at haccount
    show s.arrived.length = (s.handed ++ bytes).length + u.rxBuf.items.length +
      (s.forgotten + u.rxOverrunCount.toNat) + if u.usart1.rxne then 1 else 0
    rw [hrxne, hcount, haccount, List.length_append]
    omega

theorem step_sound (h : Sound s) {i : Input} (hfits : Fits s i) : Sound (s.step i).1 := by
  cases i with
  | arrive byte => exact arrive_sound h hfits
  | irq => exact irq_sound h hfits
  | read => exact takes_sound (read_takes s) h
  | readByte => exact takes_sound (readByte_takes s) h
  | resetRxOverrunCount => exact ⟨h.clear, h.order, h.account⟩
  | enqueue byte => exact takes_sound (enqueue_takes s byte) h
  | transmitted => exact takes_sound (transmitted_takes s) h

/-- After a run of the handler without `ORE`, the next byte is stored if there is room. -/
theorem irq_listens (hclear : s.driver.usart1.ore = false) : Listens (s.step .irq).1 := by
  have hore : (s.step .irq).1.driver.usart1.ore = false := (s.driver.handleIRQ_ore).trans hclear
  have hrxne : (s.step .irq).1.driver.usart1.rxne = false := s.driver.handleIRQ_rxne
  generalize (s.step .irq).1 = t at hore hrxne
  refine ⟨hore, ?_⟩
  intro byte hroom
  show ({ t.driver with usart1 := t.driver.usart1.arrive byte }.handleIRQ).rxBuf.items = _
  rw [Usart1.arrive_free hrxne]
  obtain ⟨-, hstore, -⟩ := UsartDriver.handleIRQ_rx
    (u := { t.driver with usart1 := { t.driver.usart1 with rdr := byte, rxne := true } }) hore
  rw [(hstore rfl (Fifo.not_full_iff.mpr hroom)).1]
  exact Fifo.push_items hroom byte

/-- **One step**: under the invariant it is right exactly if it fits. -/
theorem right_iff (h : Sound s) (i : Input) : Right s i ↔ Fits s i := by
  constructor
  · intro hright
    have haccount := hright.1.account
    cases i with
    | arrive byte =>
        -- a byte that finds RDR occupied is in no column of the account
        by_contra hbusy
        have hbusy' : s.driver.usart1.rxne = true := eq_true_of_ne_false hbusy
        have hbefore := h.account
        change (s.arrived ++ [byte]).length = s.handed.length + s.driver.available +
          (s.forgotten + s.driver.getRxOverrunCount.toNat) +
            (if (s.driver.usart1.arrive byte).rxne then 1 else 0) at haccount
        rw [Usart1.arrive_busy hbusy', List.length_append, hbefore] at haccount
        simp at haccount
    | irq =>
        rintro ⟨hbyte, hfull, hend⟩
        -- the counter wraps to 0, and forgets
        obtain ⟨-, -, hcount⟩ := UsartDriver.handleIRQ_rx h.clear
        obtain ⟨hbuf, hwrap⟩ := hcount hbyte hfull
        have hbefore := h.account
        change s.arrived.length = s.handed.length + s.driver.handleIRQ.rxBuf.items.length +
          (s.forgotten + s.driver.handleIRQ.rxOverrunCount.toNat) +
            (if s.driver.handleIRQ.usart1.rxne then 1 else 0) at haccount
        unfold UsartDriver.getRxOverrunCount at hend
        unfold UsartDriver.available UsartDriver.getRxOverrunCount at hbefore
        have hzero : (s.driver.rxOverrunCount + 1).toNat = 0 := by
          rw [UInt32.toNat_add, hend]
          rfl
        rw [hbuf, hwrap, hzero, s.driver.handleIRQ_rxne, hbefore, hend, if_pos hbyte,
          if_neg Bool.false_ne_true] at haccount
        omega
    | read => trivial
    | readByte => trivial
    | resetRxOverrunCount => trivial
    | enqueue byte => trivial
    | transmitted => trivial
  · intro hfits
    refine ⟨law_of_sound (step_sound h hfits), ?_⟩
    rintro rfl
    exact irq_listens h.clear

/-- **Reception is right exactly in the runs whose steps all fit.** -/
theorem reception_right_iff (is : List Input) :
    Trace.Along step Right (start : Receiver txBuffSize rxBuffSize) is ↔
      Trace.Along step Fits (start : Receiver txBuffSize rxBuffSize) is :=
  (Trace.along_congr Sound (fun _ _ hs hfits => step_sound hs hfits)
    (fun _ i hs => (right_iff hs i).symm) start_sound).symm

/-- Two bytes arrive before the handler runs: `ORE` stays, and the account is short of a byte. -/
theorem reception_overrun :
    ¬ Trace.Along step Right (start : Receiver 64 32) [.arrive 0x31, .arrive 0x32, .irq] ∧
    (Trace.run step (start : Receiver 64 32) [.arrive 0x31, .arrive 0x32, .irq]).1.driver.usart1.ore = true := by
  refine ⟨?_, by decide⟩
  intro hright
  have haccount := hright.2.2.1.1.account
  revert haccount
  decide

/-! ## After an overrun -/

theorem takes_deaf {t : Receiver txBuffSize rxBuffSize} (h : Takes s t)
    (hore : s.driver.usart1.ore = true) : t.driver.usart1.ore = true ∧ t.received = s.received := by
  have hreceived := takes_received h
  obtain ⟨u, bytes, rfl, hsame, -⟩ := h
  exact ⟨hsame.ore.trans hore, hreceived⟩

theorem step_deaf (hore : s.driver.usart1.ore = true) (i : Input) :
    (s.step i).1.driver.usart1.ore = true ∧ (s.step i).1.received = s.received := by
  cases i with
  | arrive byte =>
      refine ⟨?_, rfl⟩
      show (s.driver.usart1.arrive byte).ore = true
      unfold Usart1.arrive
      split_ifs
      · rfl
      · exact hore
  | irq =>
      refine ⟨(s.driver.handleIRQ_ore).trans hore, ?_⟩
      show s.handed ++ s.driver.handleIRQ.rxBuf.items = s.received
      rw [(UsartDriver.handleIRQ_deaf hore).1]
      rfl
  | read => exact takes_deaf (read_takes s) hore
  | readByte => exact takes_deaf (readByte_takes s) hore
  | resetRxOverrunCount => exact ⟨hore, rfl⟩
  | enqueue byte => exact takes_deaf (enqueue_takes s byte) hore
  | transmitted => exact takes_deaf (transmitted_takes s) hore

/-- **Once `ORE` is set, the driver receives nothing more**, whatever comes. -/
theorem deaf_for_ever (is : List Input) (hore : s.driver.usart1.ore = true) :
    (Trace.run step s is).1.driver.usart1.ore = true ∧ (Trace.run step s is).1.received = s.received := by
  refine Trace.run_state_invariant
    (fun t : Receiver txBuffSize rxBuffSize => t.driver.usart1.ore = true ∧ t.received = s.received)
    ?_ ⟨hore, rfl⟩ is
  rintro t i ⟨ht, hreceived⟩
  obtain ⟨hore', hsame⟩ := step_deaf ht i
  exact ⟨hore', hsame.trans hreceived⟩

end Receiver
end Thermostat
