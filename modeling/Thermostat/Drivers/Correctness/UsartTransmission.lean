import Thermostat.Drivers.UsartDriver
import Thermostat.Lib.Trace

/-!
# `Drivers.Correctness.UsartTransmission` — the transmitter under preemption

The interrupt handler can run between any two steps of `tx_enqueue_byte`. Here a `write_str` call is taken
apart into these steps: the look at the next character with the check for a full buffer, the push, and the
setting of `TXEIE`. Every interleaving of them with runs of the handler is a run of `Sender.step`.

`Law` is what holds in every reachable state: the bytes sent and the bytes buffered are the accepted prefixes
of the calls, in their order; a call stops at the end of its string or at a full buffer, and returns what it
has accepted; and unless a byte has just been pushed, a buffer that is not empty has its interrupt enabled.
`writeStr_uninterrupted` says that the steps of a call, one after the other, are `writeStr`.
-/

namespace Thermostat

variable {txBuffSize rxBuffSize : Nat}

/-! ## The handler and the transmitter -/

namespace UsartDriver

/-- The receiving half of the handler does not reach the transmitter. -/
theorem handleRx_tx (u : UsartDriver txBuffSize rxBuffSize) :
    u.handleRx.txBuf = u.txBuf ∧ u.handleRx.usart1.sent = u.usart1.sent ∧
    u.handleRx.usart1.txeie = u.usart1.txeie ∧ u.handleRx.usart1.txe = u.usart1.txe := by
  unfold handleRx
  simp only
  split_ifs <;> exact ⟨rfl, rfl, rfl, rfl⟩

/-- When the register is free, the handler takes a byte out of the buffer. -/
theorem handleTxe_items {u : UsartDriver txBuffSize rxBuffSize} (htxe : u.usart1.txe = true) :
    u.handleTxe.txBuf.items = u.txBuf.items.tail := by
  unfold handleTxe
  rw [if_pos htxe]
  cases hfront : u.txBuf.front with
  | none =>
      rw [Fifo.front_none] at hfront
      show u.txBuf.items = u.txBuf.items.tail
      rw [hfront]
      rfl
  | some byte => rfl

/-- **What a run of the handler does to the transmitter**: it moves at most the oldest byte from the buffer
    to the register, and disables the interrupt only over an empty buffer. -/
theorem handleIRQ_tx (u : UsartDriver txBuffSize rxBuffSize) :
    u.handleIRQ.usart1.sent ++ u.handleIRQ.txBuf.items = u.usart1.sent ++ u.txBuf.items ∧
    u.handleIRQ.txBuf.items.length ≤ u.txBuf.items.length ∧
    (u.handleIRQ.txBuf.items ≠ [] → u.handleIRQ.usart1.txeie = u.usart1.txeie) := by
  obtain ⟨hbuf, hsent, htxeie, -⟩ := handleRx_tx u.handleTxe
  unfold handleIRQ
  rw [hbuf, hsent, htxeie]
  unfold handleTxe
  by_cases htxe : u.usart1.txe = true
  · rw [if_pos htxe]
    cases hfront : u.txBuf.front with
    | none =>
        rw [Fifo.front_none] at hfront
        exact ⟨rfl, Nat.le_refl _, fun h => absurd hfront h⟩
    | some byte =>
        have hitems := Fifo.front_pop hfront
        refine ⟨?_, ?_, fun _ => rfl⟩
        · rw [hitems]
          exact List.append_cons _ _ _ |>.symm
        · rw [hitems]
          exact Nat.le_succ _
  · rw [if_neg htxe]
    exact ⟨rfl, Nat.le_refl _, fun _ => rfl⟩

end UsartDriver

/-! ## A `write_str` call, step by step -/

/-- Where the main program stands in a call for `text`, having counted `count` characters. -/
inductive Sender.Phase where
  | idle
  | check (text : List UInt8) (count : Nat)
  | push (text : List UInt8) (count : Nat) (byte : UInt8)
  | enable (text : List UInt8) (count : Nat)
deriving DecidableEq, Repr

/-- A call that has returned: its string, what it put into the buffer, its result, and whether it left the
    buffer full. -/
structure Sender.Returned where
  text : List UInt8
  accepted : List UInt8
  count : Nat
  full : Bool
deriving DecidableEq, Repr

/-- The driver, the call in progress with what it has put into the buffer, and the calls before it. -/
structure Sender (txBuffSize rxBuffSize : Nat) where
  driver : UsartDriver txBuffSize rxBuffSize
  phase : Sender.Phase
  taken : List UInt8
  returned : List Sender.Returned

namespace Sender

/-- The steps of the main program (`call` and `advance`) and what happens beside it. -/
inductive Input where
  | call (text : List UInt8)
  | advance
  | irq
  | transmitted
  | arrive (byte : UInt8)
deriving DecidableEq, Repr

/-- Leave the loop of `write_str`. -/
def finish (s : Sender txBuffSize rxBuffSize) (text : List UInt8) (count : Nat) :
    Sender txBuffSize rxBuffSize :=
  { s with
    phase := .idle
    taken := []
    returned := s.returned ++ [⟨text, s.taken, count, s.driver.txBuf.full⟩] }

/-- One step of the call in progress. -/
def advance (s : Sender txBuffSize rxBuffSize) : Sender txBuffSize rxBuffSize :=
  match s.phase with
  | .idle => s
  | .check text count =>
      match text[count]? with
      | none => s.finish text count
      | some byte =>
          if s.driver.txBuf.full then s.finish text count else { s with phase := .push text count byte }
  | .push text count byte =>
      { s with
        driver := { s.driver with txBuf := s.driver.txBuf.push byte }
        taken := s.taken ++ [byte]
        phase := .enable text count }
  | .enable text count =>
      { s with
        driver := { s.driver with usart1 := { s.driver.usart1 with txeie := true } }
        phase := .check text (count + 1) }

/-- The main program makes one call at a time; everything else can come at any time. -/
def step (s : Sender txBuffSize rxBuffSize) : Input → Sender txBuffSize rxBuffSize × List Unit
  | .call text =>
      match s.phase with
      | .idle => ({ s with phase := .check text 0 }, [])
      | _     => (s, [])
  | .advance     => (s.advance, [])
  | .irq         => ({ s with driver := s.driver.handleIRQ }, [])
  | .transmitted => ({ s with driver := { s.driver with usart1 := s.driver.usart1.transmitted } }, [])
  | .arrive byte => ({ s with driver := { s.driver with usart1 := s.driver.usart1.arrive byte } }, [])

/-- No call has been made yet. -/
def start (u : UsartDriver txBuffSize rxBuffSize) : Sender txBuffSize rxBuffSize := ⟨u, .idle, [], []⟩

/-! ## The law -/

/-- The bytes that have left through `TDR`, followed by the buffer. -/
def stream (s : Sender txBuffSize rxBuffSize) : List UInt8 :=
  s.driver.usart1.sent ++ s.driver.txBuf.items

/-- How far the call in progress has got. -/
def InCall (s : Sender txBuffSize rxBuffSize) : Prop :=
  match s.phase with
  | .idle => s.taken = []
  | .check text count => s.taken = text.take count ∧ count ≤ text.length
  | .push text count byte =>
      s.taken = text.take count ∧ text[count]? = some byte ∧ s.driver.txBuf.full = false
  | .enable text count => s.taken = text.take (count + 1) ∧ count < text.length

/-- A push has been made, and its interrupt is not enabled yet. -/
def Enabling (s : Sender txBuffSize rxBuffSize) : Prop := ∃ text count, s.phase = .enable text count

/-- The result of a call: the length of the prefix it has accepted, up to the end or to a full buffer. -/
structure Returned.Right (r : Returned) : Prop where
  accepted : r.accepted <+: r.text
  count : r.count = r.accepted.length
  stopped : r.accepted = r.text ∨ r.full = true

/-- **The law of the transmitter**, `before` being the stream at the start. -/
structure Law (before : List UInt8) (s : Sender txBuffSize rxBuffSize) : Prop where
  fifo : s.stream = before ++ (s.returned.map Returned.accepted).flatten ++ s.taken
  inCall : s.InCall
  results : ∀ r ∈ s.returned, r.Right
  awake : ¬ s.Enabling → s.driver.txBuf.items ≠ [] → s.driver.usart1.txeie = true

theorem start_law {u : UsartDriver txBuffSize rxBuffSize}
    (hawake : u.txBuf.items ≠ [] → u.usart1.txeie = true) : Law (start u).stream (start u) := by
  refine ⟨?_, rfl, ?_, fun _ => hawake⟩
  · show (start u).stream = (start u).stream ++ [] ++ []
    rw [List.append_nil, List.append_nil]
  · intro r hr
    cases hr

variable {before : List UInt8} {s : Sender txBuffSize rxBuffSize}

theorem not_enabling {p : Phase} (hphase : s.phase = p) (hp : ∀ text count, p ≠ .enable text count) :
    ¬ s.Enabling := by
  rintro ⟨text, count, henable⟩
  exact hp text count (hphase.symm.trans henable)

theorem finish_law (h : Law before s) {text : List UInt8} {count : Nat} (hphase : s.phase = .check text count)
    (hstop : s.taken = text ∨ s.driver.txBuf.full = true) : Law before (s.finish text count) := by
  obtain ⟨hfifo, hcall, hresults, hawake⟩ := h
  unfold InCall at hcall
  rw [hphase] at hcall
  obtain ⟨htaken, hcount⟩ := hcall
  -- what was taken is the prefix that was counted
  have hright : Returned.Right ⟨text, s.taken, count, s.driver.txBuf.full⟩ := by
    refine ⟨?_, ?_, hstop⟩
    · show s.taken <+: text
      rw [htaken]
      exact List.take_prefix count text
    · show count = s.taken.length
      rw [htaken, List.length_take]
      omega
  refine ⟨?_, rfl, ?_, ?_⟩
  · show s.stream = before ++ ((s.returned ++ [_]).map Returned.accepted).flatten ++ []
    rw [List.map_append, List.flatten_append, hfifo]
    simp
  · intro r hr
    rcases List.mem_append.mp hr with hold | hnew
    · exact hresults r hold
    · rw [List.mem_singleton.mp hnew]
      exact hright
  · intro _
    exact hawake (not_enabling hphase (by simp))

theorem advance_law (h : Law before s) : Law before s.advance := by
  have hcall := h.inCall
  unfold InCall at hcall
  unfold advance
  cases hphase : s.phase with
  | idle => exact h
  | check text count =>
      rw [hphase] at hcall
      obtain ⟨htaken, hcount⟩ := hcall
      simp only
      cases hbyte : text[count]? with
      | none =>
          have hend : text.length ≤ count := List.getElem?_eq_none_iff.mp hbyte
          exact finish_law h hphase (Or.inl (htaken.trans (List.take_of_length_le hend)))
      | some byte =>
          simp only
          split_ifs with hfull
          · exact finish_law h hphase (Or.inr hfull)
          · refine ⟨h.fifo, ⟨htaken, hbyte, by simpa using hfull⟩, h.results, ?_⟩
            intro _
            exact h.awake (not_enabling hphase (by simp))
  | push text count byte =>
      rw [hphase] at hcall
      obtain ⟨htaken, hbyte, hfull⟩ := hcall
      refine ⟨?_, ⟨?_, ?_⟩, h.results, ?_⟩
      · -- the handler can only have made more room since the check
        have hpush := Fifo.push_items (Fifo.not_full_iff.mp hfull) byte
        show s.driver.usart1.sent ++ (s.driver.txBuf.push byte).items
          = before ++ (s.returned.map Returned.accepted).flatten ++ (s.taken ++ [byte])
        rw [hpush, ← List.append_assoc, ← List.append_assoc]
        exact congrArg (· ++ [byte]) h.fifo
      · show s.taken ++ [byte] = text.take (count + 1)
        rw [htaken, List.take_add_one, hbyte]
        rfl
      · exact (List.getElem?_eq_some_iff.mp hbyte).1
      · intro hnot
        exact absurd ⟨text, count, rfl⟩ hnot
  | enable text count =>
      rw [hphase] at hcall
      exact ⟨h.fifo, hcall, h.results, fun _ _ => rfl⟩

/-- What a call in progress relies on, the handler can only make truer: it makes room. -/
theorem InCall.drain (h : s.InCall) {u : UsartDriver txBuffSize rxBuffSize}
    (hlength : u.txBuf.items.length ≤ s.driver.txBuf.items.length) : InCall { s with driver := u } := by
  unfold InCall at h ⊢
  cases hphase : s.phase with
  | push text count byte =>
      rw [hphase] at h
      obtain ⟨htaken, hbyte, hfull⟩ := h
      refine ⟨htaken, hbyte, ?_⟩
      show u.txBuf.full = false
      rw [Fifo.not_full_iff] at hfull ⊢
      exact Nat.lt_of_le_of_lt hlength hfull
  | idle => simpa [hphase] using h
  | check text count => simpa [hphase] using h
  | enable text count => simpa [hphase] using h

theorem irq_law (h : Law before s) : Law before { s with driver := s.driver.handleIRQ } := by
  obtain ⟨hstream, hlength, htxeie⟩ := s.driver.handleIRQ_tx
  refine ⟨hstream.trans h.fifo, h.inCall.drain hlength, h.results, ?_⟩
  intro hnot hitems
  -- what is not empty behind the handler was not empty before it
  have hold : s.driver.txBuf.items ≠ [] := by
    intro hempty
    rw [hempty] at hlength
    exact hitems (List.length_eq_zero_iff.mp (Nat.le_zero.mp hlength))
  exact (htxeie hitems).trans (h.awake hnot hold)

theorem step_law (h : Law before s) (i : Input) : Law before (s.step i).1 := by
  cases i with
  | call text =>
      have hcall := h.inCall
      unfold InCall at hcall
      unfold step
      cases hphase : s.phase with
      | idle =>
          rw [hphase] at hcall
          refine ⟨h.fifo, ⟨hcall, Nat.zero_le _⟩, h.results, ?_⟩
          intro _
          exact h.awake (not_enabling hphase (by simp))
      | check _ _ => exact h
      | push _ _ _ => exact h
      | enable _ _ => exact h
  | advance => exact advance_law h
  | transmitted => exact ⟨h.fifo, h.inCall, h.results, h.awake⟩
  | arrive byte =>
      have harrive : (s.driver.usart1.arrive byte).sent = s.driver.usart1.sent ∧
          (s.driver.usart1.arrive byte).txeie = s.driver.usart1.txeie := by
        unfold Usart1.arrive
        split_ifs <;> exact ⟨rfl, rfl⟩
      refine ⟨?_, h.inCall, h.results, ?_⟩
      · show (s.driver.usart1.arrive byte).sent ++ s.driver.txBuf.items = _
        rw [harrive.1]
        exact h.fifo
      · intro hnot hitems
        show (s.driver.usart1.arrive byte).txeie = true
        rw [harrive.2]
        exact h.awake hnot hitems
  | irq => exact irq_law h

/-! ## The buffer drains -/

/-- The transmitter takes its byte and the handler runs, `k` times. -/
def rounds : Nat → List Input
  | 0     => []
  | k + 1 => .transmitted :: .irq :: rounds k

/-- A round takes one byte out of the buffer. -/
theorem round_items (u : UsartDriver txBuffSize rxBuffSize) :
    ({ u with usart1 := u.usart1.transmitted }.handleIRQ).txBuf.items = u.txBuf.items.tail := by
  unfold UsartDriver.handleIRQ
  rw [(UsartDriver.handleRx_tx _).1]
  exact UsartDriver.handleTxe_items (u := { u with usart1 := u.usart1.transmitted }) rfl

theorem rounds_drain (k : Nat) (s : Sender txBuffSize rxBuffSize) :
    (Trace.run step s (rounds k)).1.driver.txBuf.items = s.driver.txBuf.items.drop k ∧
    (Trace.run step s (rounds k)).1.phase = s.phase := by
  induction k generalizing s with
  | zero => exact ⟨rfl, rfl⟩
  | succ k ih =>
      -- the rest of the rounds starts from one byte less
      obtain ⟨hitems, hphase⟩ := ih { s with
        driver := { s.driver with usart1 := s.driver.usart1.transmitted }.handleIRQ }
      refine ⟨?_, hphase⟩
      refine hitems.trans ?_
      rw [round_items, List.drop_tail]

/-! ## An uninterrupted call -/

/-- The bytes of a C string: its characters before the first `NUL`. -/
def textOf (str : List Char) : List UInt8 :=
  (str.takeWhile (fun c => c.toNat ≠ 0)).map (fun c => UInt8.ofNat c.toNat)

/-- The steps of the main program from `s` on, nothing else coming in between, are what is left of a
    `writeStr` call: its loop over `str`, with `count` characters counted before. -/
def Completes (s : Sender txBuffSize rxBuffSize) (count : Nat) (str : List Char) : Prop :=
  ∃ n, (Trace.run step s (List.replicate n .advance)).1.driver = (s.driver.writeStr str).1 ∧
    (Trace.run step s (List.replicate n .advance)).1.phase = .idle ∧
    ∃ r, (Trace.run step s (List.replicate n .advance)).1.returned = s.returned ++ [r] ∧
      r.count = count + (s.driver.writeStr str).2

/-- The loop ends at once, at the end of the string or at a full buffer. -/
theorem completes_stop {text : List UInt8} {count : Nat} {str : List Char}
    (hphase : s.phase = .check text count) (hstop : text[count]? = none ∨ s.driver.txBuf.full = true)
    (hcode : s.driver.writeStr str = (s.driver, 0)) : Completes s count str := by
  have hadvance : s.advance = s.finish text count := by
    unfold advance
    simp only [hphase]
    cases hbyte : text[count]? with
    | none => rfl
    | some byte =>
        rcases hstop with hnone | hfull
        · rw [hnone] at hbyte
          cases hbyte
        · simp only [hfull, if_true]
  refine ⟨1, ?_⟩
  show s.advance.driver = _ ∧ s.advance.phase = _ ∧ ∃ r, s.advance.returned = _ ∧ _
  rw [hadvance, hcode]
  exact ⟨rfl, rfl, _, rfl, rfl⟩

/-- Three steps take one character, when there is room. -/
theorem advance_push {text : List UInt8} {count : Nat} {byte : UInt8}
    (hphase : s.phase = .check text count) (hbyte : text[count]? = some byte)
    (hfull : s.driver.txBuf.full = false) :
    s.advance.advance.advance =
      { s with
        driver := (s.driver.txEnqueueByte byte).1
        taken := s.taken ++ [byte]
        phase := .check text (count + 1) } := by
  have hcheck : s.advance = { s with phase := .push text count byte } := by
    unfold advance
    simp [hphase, hbyte, hfull]
  have henqueue : (s.driver.txEnqueueByte byte).1 =
      { s.driver with
        txBuf := s.driver.txBuf.push byte
        usart1 := { s.driver.usart1 with txeie := true } } := by
    unfold UsartDriver.txEnqueueByte
    simp [hfull]
  rw [hcheck, henqueue]
  rfl

theorem completes_check (str : List Char) {s : Sender txBuffSize rxBuffSize} {text : List UInt8} {count : Nat}
    (hphase : s.phase = .check text count) (hrest : text.drop count = textOf str) :
    Completes s count str := by
  induction str generalizing s count with
  | nil =>
      have hend : text[count]? = none := List.getElem?_eq_none_iff.mpr (List.drop_eq_nil_iff.mp hrest)
      exact completes_stop hphase (Or.inl hend) rfl
  | cons c str ih =>
      by_cases hnul : c.toNat = 0
      · have hempty : textOf (c :: str) = [] := by simp [textOf, hnul]
        rw [hempty] at hrest
        have hend : text[count]? = none := List.getElem?_eq_none_iff.mpr (List.drop_eq_nil_iff.mp hrest)
        exact completes_stop hphase (Or.inl hend) (by simp [UsartDriver.writeStr, hnul])
      · by_cases hfull : s.driver.txBuf.full = true
        · exact completes_stop hphase (Or.inr hfull)
            (by simp [UsartDriver.writeStr, UsartDriver.txEnqueueByte, hnul, hfull])
        · rw [Bool.not_eq_true] at hfull
          have hcons : textOf (c :: str) = UInt8.ofNat c.toNat :: textOf str := by simp [textOf, hnul]
          rw [hcons] at hrest
          have hbyte : text[count]? = some (UInt8.ofNat c.toNat) := by
            rw [← List.head?_drop, hrest]
            rfl
          have hnext : text.drop (count + 1) = textOf str := by
            rw [← List.tail_drop, hrest]
            rfl
          -- three steps take this character, and the rest of the call those of the hypothesis
          obtain ⟨n, hdriver, hidle, r, hreturned, hcount⟩ := ih
            (s := { s with
              driver := (s.driver.txEnqueueByte (UInt8.ofNat c.toNat)).1
              taken := s.taken ++ [UInt8.ofNat c.toNat]
              phase := .check text (count + 1) }) rfl hnext
          have htaken : (s.driver.txEnqueueByte (UInt8.ofNat c.toNat)).2 = true := by
            simp [UsartDriver.txEnqueueByte, hfull]
          have hcode : s.driver.writeStr (c :: str) =
              (((s.driver.txEnqueueByte (UInt8.ofNat c.toNat)).1.writeStr str).1,
                ((s.driver.txEnqueueByte (UInt8.ofNat c.toNat)).1.writeStr str).2 + 1) := by
            simp [UsartDriver.writeStr, hnul, htaken]
          have hrun : (Trace.run step s (List.replicate (n + 3) .advance)).1
              = (Trace.run step s.advance.advance.advance (List.replicate n .advance)).1 := rfl
          rw [advance_push hphase hbyte hfull] at hrun
          unfold Completes
          rw [hcode]
          refine ⟨n + 3, ?_⟩
          rw [hrun]
          exact ⟨hdriver, hidle, r, hreturned, hcount.trans (Nat.add_right_comm count 1 _)⟩

/-- **An uninterrupted call is `writeStr`.** -/
theorem writeStr_uninterrupted (u : UsartDriver txBuffSize rxBuffSize) (str : List Char) :
    ∃ n, (Trace.run step (start u) (.call (textOf str) :: List.replicate n .advance)).1.driver
        = (u.writeStr str).1 ∧
      ∃ r, (Trace.run step (start u) (.call (textOf str) :: List.replicate n .advance)).1.returned = [r] ∧
        r.count = (u.writeStr str).2 := by
  obtain ⟨n, hdriver, -, r, hreturned, hcount⟩ :=
    completes_check str (s := { start u with phase := .check (textOf str) 0 }) rfl rfl
  refine ⟨n, hdriver, r, hreturned, ?_⟩
  rw [hcount, Nat.zero_add]
  rfl

/-! ## Every interleaving -/

/-- **Transmission is a lossless queue without lost wake-ups.** In every state that calls and interrupts can
    lead to, the law holds; and unless an interrupt is just about to be enabled, the rounds of transmitter
    and handler empty the buffer, the interrupt being enabled until they have. The steps of a call, if nothing
    comes between them, are `writeStr` there. -/
theorem transmission_lossless (is : List Input) :
    let s := (Trace.run step (start (UsartDriver.init : UsartDriver txBuffSize rxBuffSize)) is).1
    Law [] s ∧
    (¬ s.Enabling → ∀ k, k < s.driver.txBuf.items.length →
      (Trace.run step s (rounds k)).1.driver.usart1.txeie = true) ∧
    (Trace.run step s (rounds s.driver.txBuf.items.length)).1.driver.txBuf.items = [] ∧
    ∀ str, ∃ n, (Trace.run step (start s.driver) (.call (textOf str) :: List.replicate n .advance)).1.driver
        = (s.driver.writeStr str).1 ∧
      ∃ r, (Trace.run step (start s.driver) (.call (textOf str) :: List.replicate n .advance)).1.returned = [r] ∧
        r.count = (s.driver.writeStr str).2 := by
  intro s
  have hempty : (UsartDriver.init : UsartDriver txBuffSize rxBuffSize).txBuf.items = [] := rfl
  have hstart : Law [] (start (UsartDriver.init : UsartDriver txBuffSize rxBuffSize)) :=
    start_law (u := UsartDriver.init) (fun h => absurd hempty h)
  have hlaw : Law [] s := Trace.run_state_invariant (Law []) (fun t i ht => step_law ht i) hstart is
  refine ⟨hlaw, ?_, ?_, fun str => writeStr_uninterrupted s.driver str⟩
  · intro hnot k hk
    -- the rounds are steps too, so the law holds behind them
    obtain ⟨hitems, hphase⟩ := rounds_drain k s
    have hlater := Trace.run_state_invariant (Law []) (fun t i ht => step_law ht i) hlaw (rounds k)
    apply hlater.awake
    · rintro ⟨text, count, henable⟩
      exact hnot ⟨text, count, hphase.symm.trans henable⟩
    · rw [hitems]
      intro hempty
      exact absurd (List.drop_eq_nil_iff.mp hempty) (Nat.not_le.mpr hk)
  · rw [(rounds_drain _ s).1]
    exact List.drop_length

end Sender
end Thermostat
