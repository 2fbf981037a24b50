import Thermostat.Drivers.Correctness.TwiBus

/-!
# `Drivers.Correctness.TwiDirection` — which requests are transferred in the right direction

`Bus` says which data flags can be raised for the transfer programmed last; error flags are unrestricted.
`transfers` collects from the effects of a run one record for every request that was started: the START
words written for it, the bytes sent and received, and the results of its callback.

The word that starts a request asks for a read as soon as there is anything to read, although it carries
the number of bytes to write if there are any. So a request in one direction is transferred as it should
be, and a request in both directions never is (`direction_iff`).
-/

namespace Thermostat
namespace TwiDriver

/-! ## The bus -/

/-- The transfer programmed last, and how many of its bytes have gone through the data registers. -/
structure Bus where
  word : Option Cr2
  sent : Nat
  received : Nat
deriving DecidableEq, Repr

namespace Bus

/-- No transfer has been programmed. -/
def quiet : Bus := ⟨none, 0, 0⟩

def observe (b : Bus) : Effect → Bus
  | .cr2 w       => ⟨some w, 0, 0⟩
  | .txRead _ _  => { b with sent := b.sent + 1 }
  | .rxWrite _ _ => { b with received := b.received + 1 }
  | _            => b

def sees (b : Bus) (es : List Effect) : Bus := es.foldl observe b

/-- The transfer is a write that is short of bytes; a read that is. -/
def WantsByte (b : Bus) : Prop :=
  ∃ w, b.word = some w ∧ w.rdWrn = false ∧ b.sent < w.nbytes.toNat

def HasByte (b : Bus) : Prop :=
  ∃ w, b.word = some w ∧ w.rdWrn = true ∧ b.received < w.nbytes.toNat

/-- The data flags the bus can raise: `TXIS` in a write transfer only, `RXNE` in a read transfer only, and at most
    `NBYTES` of each. -/
def Allows (b : Bus) (isr : Isr) : Prop :=
  (isr.txis = true → b.WantsByte) ∧ (isr.rxne = true → b.HasByte)

theorem sees_append (b : Bus) (xs ys : List Effect) : b.sees (xs ++ ys) = (b.sees xs).sees ys :=
  List.foldl_append

end Bus

/-- The driver with the peripheral watching. -/
def busStep (s : TwiDriver × Bus) (i : Input) : (TwiDriver × Bus) × List Effect :=
  (((s.1.step i).1, s.2.sees (s.1.step i).2), (s.1.step i).2)

/-- The driver after start-up, and a bus without a transfer. -/
def busFresh : TwiDriver × Bus := (fresh, Bus.quiet)

/-- The peripheral can raise the flags of this interrupt. -/
def Raisable (s : TwiDriver × Bus) : Input → Prop
  | .irq isr _ _ => s.2.Allows isr
  | _ => True

/-! ## Transfer records -/

/-- What was done for one request. `received` lists the places of `rx` with the bytes put there. -/
structure Transfer where
  req : Request
  starts : List Cr2
  sent : List UInt8
  received : List (Nat × UInt8)
  results : List Bool

/-- Change the record of the request started last. -/
def amend (f : Transfer → Transfer) : List Transfer → List Transfer
  | [] => []
  | t :: ts => f t :: ts

/-- The records, newest first, after one more effect. -/
def record (log : List Transfer) : Effect → List Transfer
  | .taken r       => ⟨r, [], [], [], []⟩ :: log
  | .cr2 w         => amend (fun t => { t with starts := t.starts ++ [w] }) log
  | .txRead _ b    => amend (fun t => { t with sent := t.sent ++ [b] }) log
  | .rxWrite i b   => amend (fun t => { t with received := t.received ++ [(i.toNat, b)] }) log
  | .callback _ ok => amend (fun t => { t with results := t.results ++ [ok] }) log
  | .submitted _ _ | .stop | .finished _ => log

def recordAll (log : List Transfer) (es : List Effect) : List Transfer := es.foldl record log

/-- The transfers of a run. -/
def transfers (es : List Effect) : List Transfer := recordAll [] es

/-- The START words a request calls for: a write of `tx_len`, then a read of `rx_len`. -/
def expected (r : Request) : List Cr2 :=
  (if r.txLen ≠ 0 then [⟨r.address.toNat * 2, r.txLen, false, true⟩] else []) ++
  (if r.rxLen ≠ 0 then [⟨r.address.toNat * 2, r.rxLen, true, true⟩] else [])

/-- All bytes of the request have gone through the data registers, in order. -/
def Transfer.Complete (t : Transfer) : Prop :=
  t.sent = (List.range t.req.txLen.toNat).map t.req.tx ∧
  t.received.map Prod.fst = List.range t.req.rxLen.toNat

/-- The transfer goes as the request says, and a success is reported only when it is complete. -/
def Transfer.Right (t : Transfer) : Prop :=
  t.starts <+: expected t.req ∧ (true ∈ t.results → t.starts = expected t.req ∧ t.Complete)

/-- The request writes only, or reads only. -/
def Request.OneWay (r : Request) : Prop := r.txLen = 0 ∨ r.rxLen = 0

theorem recordAll_append (log : List Transfer) (xs ys : List Effect) :
    recordAll log (xs ++ ys) = recordAll (recordAll log xs) ys := List.foldl_append

/-! ## Verdicts on a record -/

/-- The first word of the record is the word its request is started with. -/
def Transfer.Started (t : Transfer) : Prop := ∃ rest, t.starts = startWord t.req :: rest

/-- What is known of a record once and for all. -/
structure Transfer.Closed (t : Transfer) : Prop where
  started : t.Started
  single : t.req.OneWay → t.starts = [startWord t.req]
  complete : t.req.OneWay → true ∈ t.results → t.Complete

/-- One direction: the start word is the one that is called for. -/
theorem expected_oneWay {r : Request} (hway : r.OneWay) (hsome : ¬ (r.txLen = 0 ∧ r.rxLen = 0)) :
    expected r = [startWord r] := by
  rcases hway with htx | hrx
  · have hrx : r.rxLen ≠ 0 := fun h => hsome ⟨htx, h⟩
    simp [expected, startWord, htx, hrx]
  · have htx : r.txLen ≠ 0 := fun h => hsome ⟨h, hrx⟩
    simp [expected, startWord, htx, hrx]

/-- Two directions: the first word called for is a write, the start word is a read. -/
theorem startWord_wrong {r : Request} (hboth : ¬ r.OneWay) (rest : List Cr2) :
    ¬ (startWord r :: rest) <+: expected r := by
  have htx : r.txLen ≠ 0 := fun h => hboth (Or.inl h)
  have hrx : r.rxLen ≠ 0 := fun h => hboth (Or.inr h)
  rintro ⟨more, hmore⟩
  have hhead := congrArg List.head? hmore
  simp [expected, startWord, htx, hrx] at hhead

/-- **The verdict.** -/
theorem Transfer.Closed.right_iff {t : Transfer} (h : t.Closed)
    (hsome : ¬ (t.req.txLen = 0 ∧ t.req.rxLen = 0)) : t.Right ↔ t.req.OneWay := by
  constructor
  · intro hright
    by_contra hboth
    obtain ⟨rest, hrest⟩ := h.started
    have hprefix := hright.1
    rw [hrest] at hprefix
    exact startWord_wrong hboth rest hprefix
  · intro hway
    have hstarts : t.starts = expected t.req := (h.single hway).trans (expected_oneWay hway hsome).symm
    exact ⟨hstarts ▸ List.prefix_rfl, fun hok => ⟨hstarts, h.complete hway hok⟩⟩

/-! ## The request in the context and its record -/

/-- The record of a request in one direction follows the positions of the context, and so does the bus. -/
structure Following (d : TwiDriver) (b : Bus) (t : Transfer) : Prop where
  starts : t.starts = [startWord t.req]
  word : b.word = some (startWord t.req)
  busSent : b.sent = d.ctx.txPos.toNat
  busReceived : b.received = d.ctx.rxPos.toNat
  sent : t.sent = (List.range d.ctx.txPos.toNat).map t.req.tx
  received : t.received.map Prod.fst = List.range d.ctx.rxPos.toNat
  txLe : d.ctx.txPos.toNat ≤ t.req.txLen.toNat
  rxLe : d.ctx.rxPos.toNat ≤ t.req.rxLen.toNat
  tx : d.ctx.state = .tx → d.ctx.txPos.toNat < t.req.txLen.toNat
  rx : d.ctx.state = .rx → d.ctx.rxPos.toNat < t.req.rxLen.toNat
  stop : d.ctx.state = .stop →
    d.ctx.txPos.toNat = t.req.txLen.toNat ∧ d.ctx.rxPos.toNat = t.req.rxLen.toNat
  done : true ∈ t.results →
    d.ctx.txPos.toNat = t.req.txLen.toNat ∧ d.ctx.rxPos.toNat = t.req.rxLen.toNat

/-- The invariant: before the first request the bus is quiet; afterwards the newest record is that of the
    request in the context. -/
def Tracked (d : TwiDriver) (b : Bus) : List Transfer → Prop
  | [] => b.word = none ∧ d.ctx.req.callback = none ∧ (d.ctx.state = .idle ∨ d.ctx.state = .error)
  | t :: ts => t.req = d.ctx.req ∧ t.Started ∧ (t.req.OneWay → Following d b t) ∧ ∀ u ∈ ts, u.Closed

theorem Following.complete {d : TwiDriver} {b : Bus} {t : Transfer} (h : Following d b t)
    (hend : d.ctx.txPos.toNat = t.req.txLen.toNat ∧ d.ctx.rxPos.toNat = t.req.rxLen.toNat) :
    t.Complete := by
  refine ⟨?_, ?_⟩
  · rw [h.sent, hend.1]
  · rw [h.received, hend.2]

/-- Every record of a tracked driver is closed. -/
theorem Tracked.closed {d : TwiDriver} {b : Bus} {log : List Transfer} (h : Tracked d b log) :
    ∀ u ∈ log, u.Closed := by
  cases log with
  | nil => simp
  | cons t ts =>
      obtain ⟨-, hstarted, hfollow, hrest⟩ := h
      intro u hu
      rcases List.mem_cons.mp hu with rfl | hu
      · exact ⟨hstarted, fun hway => (hfollow hway).starts,
          fun hway hok => (hfollow hway).complete ((hfollow hway).done hok)⟩
      · exact hrest u hu

/-- A change of state that adds no obligation. -/
theorem Tracked.setState {d : TwiDriver} {b : Bus} {log : List Transfer} (h : Tracked d b log) {st : State}
    (hst : st = .idle ∨ st = .error) : Tracked (d.setState st) b log := by
  cases log with
  | nil => exact ⟨h.1, h.2.1, hst⟩
  | cons t ts =>
      obtain ⟨hreq, hstarted, hfollow, hrest⟩ := h
      refine ⟨hreq, hstarted, ?_, hrest⟩
      intro hway
      have hf := hfollow hway
      refine { hf with tx := ?_, rx := ?_, stop := ?_ } <;> intro hcontra <;>
        rcases hst with rfl | rfl <;> cases hcontra

/-! ## Submissions and completions -/

theorem startNext_tracked {d : TwiDriver} {b : Bus} {log : List Transfer} (h : Tracked d b log) :
    Tracked d.startNext.1 (b.sees d.startNext.2) (recordAll log d.startNext.2) := by
  unfold startNext
  cases d.queue.front with
  | none => exact h
  | some r =>
      refine ⟨rfl, ⟨[], rfl⟩, ?_, h.closed⟩
      intro _
      refine ⟨rfl, rfl, rfl, rfl, rfl, rfl, Nat.zero_le _, Nat.zero_le _, ?_, ?_, ?_, ?_⟩ <;>
        intro hcontra <;> cases hcontra

theorem submit_tracked {d : TwiDriver} {b : Bus} {log : List Transfer} (h : Tracked d b log)
    (r : Request) :
    Tracked (d.submit r).1 (b.sees (d.submit r).2) (recordAll log (d.submit r).2) := by
  have hpush : Tracked { d with queue := d.queue.push r } b log := by
    cases log with
    | nil => exact h
    | cons t ts =>
        obtain ⟨hreq, hstarted, hfollow, hrest⟩ := h
        exact ⟨hreq, hstarted, fun hway => { hfollow hway with }, hrest⟩
  cases hfull : d.queue.full with
  | true =>
      rw [submit_full hfull]
      exact h
  | false =>
      by_cases hidle : d.ctx.state = .idle
      · rw [submit_idle hfull hidle]
        exact startNext_tracked hpush
      · rw [submit_busy hfull hidle]
        exact hpush

theorem submitAll_tracked {d : TwiDriver} {b : Bus} {log : List Transfer} (h : Tracked d b log)
    (rs : List Request) :
    Tracked (d.submitAll rs).1 (b.sees (d.submitAll rs).2) (recordAll log (d.submitAll rs).2) := by
  induction rs generalizing d b log with
  | nil => exact h
  | cons r rs ih =>
      have hrest := ih (submit_tracked h r)
      rw [← Bus.sees_append, ← recordAll_append] at hrest
      exact hrest

/-- Reporting a result: success only from `Stop`. -/
theorem callback_tracked {d : TwiDriver} {b : Bus} {log : List Transfer} (h : Tracked d b log) {ok : Bool}
    (hok : ok = true → d.ctx.state = .stop) (r : Request) :
    Tracked d b (record log (.callback r ok)) := by
  cases log with
  | nil => exact h
  | cons t ts =>
      obtain ⟨hreq, hstarted, hfollow, hrest⟩ := h
      refine ⟨hreq, hstarted, ?_, hrest⟩
      intro hway
      have hf := hfollow hway
      refine { hf with done := ?_ }
      intro hmem
      rcases List.mem_append.mp hmem with hold | hnew
      · exact hf.done hold
      · exact hf.stop (hok (List.mem_singleton.mp hnew).symm)

theorem finish_tracked {d : TwiDriver} {b : Bus} {log : List Transfer} (h : Tracked d b log) {ok : Bool}
    (hok : ok = true → d.ctx.state = .stop) (nested : List Request) :
    Tracked (d.finish ok nested).1 (b.sees (d.finish ok nested).2)
      (recordAll log (d.finish ok nested).2) := by
  cases hcb : d.ctx.req.callback with
  | none =>
      rw [finish_silent hcb]
      exact startNext_tracked (h.setState (Or.inl rfl))
  | some c =>
      have hcalled := callback_tracked h hok d.ctx.req
      have hnested := submitAll_tracked hcalled nested
      rw [finish_called hcb, Bus.sees_append, recordAll_append]
      exact startNext_tracked (hnested.setState (Or.inl rfl))

/-! ## Interrupts -/

theorem succ_toNat {i : UInt8} {n : Nat} (h : i.toNat < n) (hn : n < 256) :
    (i + 1).toNat = i.toNat + 1 := by
  rw [UInt8.toNat_add, show (1 : UInt8).toNat = 1 from rfl, Nat.mod_eq_of_lt (by omega)]

theorem toNat_pos_iff {n : UInt8} : n ≠ 0 ↔ 0 < n.toNat := by
  rw [Nat.pos_iff_ne_zero, ne_eq, ne_eq, ← UInt8.toNat_inj]
  rfl

theorem oneWay_of_tx {r : Request} (hway : r.OneWay) (hpos : 0 < r.txLen.toNat) : r.rxLen = 0 := by
  rcases hway with h | h
  · exact absurd h (toNat_pos_iff.mpr hpos)
  · exact h

theorem oneWay_of_rx {r : Request} (hway : r.OneWay) (hpos : 0 < r.rxLen.toNat) : r.txLen = 0 := by
  rcases hway with h | h
  · exact h
  · exact absurd h (toNat_pos_iff.mpr hpos)

/-- A byte leaves the driver where it was or takes it to `Stop`, each with what is known there. -/
theorem next_state {st st' : State} {P Q : Prop} (hne : st ≠ .stop)
    (hnext : st' = st ∧ P ∨ st' = .stop ∧ Q) :
    (st' = st → P) ∧ (st' = .stop → Q) ∧ ∀ other, other ≠ st → other ≠ .stop → st' ≠ other := by
  rcases hnext with ⟨rfl, hP⟩ | ⟨rfl, hQ⟩
  · exact ⟨fun _ => hP, fun h => absurd h hne, fun _ ho _ h => ho h.symm⟩
  · exact ⟨fun h => absurd h.symm hne, fun _ => hQ, fun _ _ ho h => ho h.symm⟩

/-- One byte sent: position, bus and record move together. -/
theorem Following.sendByte {d : TwiDriver} {b : Bus} {t : Transfer} (h : Following d b t)
    (hreq : t.req = d.ctx.req) (hst : d.ctx.state = .tx) (d' : TwiDriver)
    (hpos : d'.ctx.txPos = d.ctx.txPos + 1) (hrx : d'.ctx.rxPos = d.ctx.rxPos)
    (hnext : d'.ctx.state = .tx ∧ (d.ctx.txPos + 1).toNat < t.req.txLen.toNat ∨
      d'.ctx.state = .stop ∧ t.req.txLen.toNat ≤ (d.ctx.txPos + 1).toNat ∧ t.req.rxLen = 0) :
    Following d' (b.observe (.txRead d.ctx.txPos (d.ctx.req.tx d.ctx.txPos.toNat)))
      { t with sent := t.sent ++ [d.ctx.req.tx d.ctx.txPos.toNat] } := by
  have hlt := h.tx hst
  have hsucc := succ_toNat hlt (UInt8.toNat_lt _)
  obtain ⟨hmore, hlast, hother⟩ := next_state (by decide) hnext
  refine ⟨h.starts, h.word, ?_, ?_, ?_, ?_, ?_, ?_, ?_, ?_, ?_, ?_⟩
  · show b.sent + 1 = d'.ctx.txPos.toNat
    rw [h.busSent, hpos, hsucc]
  · show b.received = d'.ctx.rxPos.toNat
    rw [hrx, h.busReceived]
  · rw [hpos, hsucc, List.range_succ, List.map_append, h.sent, ← hreq]
    rfl
  · rw [hrx]
    exact h.received
  · rw [hpos, hsucc]
    exact hlt
  · rw [hrx]
    exact h.rxLe
  · intro htx
    rw [hpos]
    exact hmore htx
  · intro hcontra
    exact absurd hcontra (hother .rx (by decide) (by decide))
  · intro hstop
    obtain ⟨hend, hnone⟩ := hlast hstop
    have hzero : t.req.rxLen.toNat = 0 := by rw [hnone]; rfl
    have hrxLe := h.rxLe
    show d'.ctx.txPos.toNat = t.req.txLen.toNat ∧ d'.ctx.rxPos.toNat = t.req.rxLen.toNat
    rw [hpos, hrx]
    exact ⟨by omega, by omega⟩
  · intro hok
    have hdone := (h.done hok).1
    omega

/-- One byte received. -/
theorem Following.receiveByte {d : TwiDriver} {b : Bus} {t : Transfer} (h : Following d b t)
    (hst : d.ctx.state = .rx) (rxdr : UInt8) (d' : TwiDriver) (hpos : d'.ctx.rxPos = d.ctx.rxPos + 1)
    (htx : d'.ctx.txPos = d.ctx.txPos)
    (hnext : d'.ctx.state = .rx ∧ (d.ctx.rxPos + 1).toNat < t.req.rxLen.toNat ∨
      d'.ctx.state = .stop ∧ t.req.rxLen.toNat ≤ (d.ctx.rxPos + 1).toNat ∧ t.req.txLen = 0) :
    Following d' (b.observe (.rxWrite d.ctx.rxPos rxdr))
      { t with received := t.received ++ [(d.ctx.rxPos.toNat, rxdr)] } := by
  have hlt := h.rx hst
  have hsucc := succ_toNat hlt (UInt8.toNat_lt _)
  obtain ⟨hmore, hlast, hother⟩ := next_state (by decide) hnext
  refine ⟨h.starts, h.word, ?_, ?_, ?_, ?_, ?_, ?_, ?_, ?_, ?_, ?_⟩
  · show b.sent = d'.ctx.txPos.toNat
    rw [htx, h.busSent]
  · show b.received + 1 = d'.ctx.rxPos.toNat
    rw [h.busReceived, hpos, hsucc]
  · rw [htx]
    exact h.sent
  · rw [hpos, hsucc, List.range_succ, List.map_append, h.received]
    rfl
  · rw [htx]
    exact h.txLe
  · rw [hpos, hsucc]
    exact hlt
  · intro hcontra
    exact absurd hcontra (hother .tx (by decide) (by decide))
  · intro hrx
    rw [hpos]
    exact hmore hrx
  · intro hstop
    obtain ⟨hend, hnone⟩ := hlast hstop
    have hzero : t.req.txLen.toNat = 0 := by rw [hnone]; rfl
    have htxLe := h.txLe
    show d'.ctx.txPos.toNat = t.req.txLen.toNat ∧ d'.ctx.rxPos.toNat = t.req.rxLen.toNat
    rw [hpos, htx]
    exact ⟨by omega, by omega⟩
  · intro hok
    have hdone := (h.done hok).2
    omega

theorem irqTx_tracked {d : TwiDriver} {b : Bus} {log : List Transfer} (h : Tracked d b log)
    (hst : d.ctx.state = .tx) (isr : Isr) :
    Tracked (d.irqTx isr).1 (b.sees (d.irqTx isr).2) (recordAll log (d.irqTx isr).2) := by
  cases log with
  | nil =>
      obtain ⟨-, -, hstate⟩ := h
      rw [hst] at hstate
      rcases hstate with hcontra | hcontra <;> cases hcontra
  | cons t ts =>
      obtain ⟨hreq, ⟨rest, hrest⟩, hfollow, hold⟩ := h
      unfold irqTx
      simp only
      split_ifs with htxis hlast hread
      · -- the read transfer is started: not a request in one direction
        refine ⟨hreq, ⟨rest ++ [restartWord d.ctx.req], ?_⟩, ?_, hold⟩
        · show t.starts ++ [restartWord d.ctx.req] = _
          rw [hrest]
          rfl
        · intro hway
          have hpos := (hfollow hway).tx hst
          have hnone := oneWay_of_tx hway (Nat.zero_lt_of_lt hpos)
          rw [hreq] at hnone
          exact absurd hnone hread
      · refine ⟨hreq, ⟨rest, hrest⟩, ?_, hold⟩
        intro hway
        have hnone : t.req.rxLen = 0 := by
          rw [hreq]
          exact not_not.mp hread
        exact (hfollow hway).sendByte hreq hst
          (setState { d with ctx := { d.ctx with txPos := d.ctx.txPos + 1 } } .stop) rfl rfl
          (Or.inr ⟨rfl, by rw [hreq]; exact UInt8.le_iff_toNat_le.mp hlast, hnone⟩)
      · refine ⟨hreq, ⟨rest, hrest⟩, ?_, hold⟩
        intro hway
        exact (hfollow hway).sendByte hreq hst
          { d with ctx := { d.ctx with txPos := d.ctx.txPos + 1 } } rfl rfl
          (Or.inl ⟨hst, by rw [hreq]; exact UInt8.lt_iff_toNat_lt.mp (succ_lt_of_not_ge hlast)⟩)
      · exact ⟨hreq, ⟨rest, hrest⟩, hfollow, hold⟩

theorem irqRx_tracked {d : TwiDriver} {b : Bus} {log : List Transfer} (h : Tracked d b log)
    (hst : d.ctx.state = .rx) (isr : Isr) (rxdr : UInt8) :
    Tracked (d.irqRx isr rxdr).1 (b.sees (d.irqRx isr rxdr).2)
      (recordAll log (d.irqRx isr rxdr).2) := by
  cases log with
  | nil =>
      obtain ⟨-, -, hstate⟩ := h
      rw [hst] at hstate
      rcases hstate with hcontra | hcontra <;> cases hcontra
  | cons t ts =>
      obtain ⟨hreq, hstarted, hfollow, hold⟩ := h
      unfold irqRx
      simp only
      split_ifs with hrxne hlast
      · refine ⟨hreq, hstarted, ?_, hold⟩
        intro hway
        have hpos := (hfollow hway).rx hst
        have hnone := oneWay_of_rx hway (Nat.zero_lt_of_lt hpos)
        exact (hfollow hway).receiveByte hst rxdr
          (setState { d with ctx := { d.ctx with rxPos := d.ctx.rxPos + 1 } } .stop) rfl rfl
          (Or.inr ⟨rfl, by rw [hreq]; exact UInt8.le_iff_toNat_le.mp hlast, hnone⟩)
      · refine ⟨hreq, hstarted, ?_, hold⟩
        intro hway
        exact (hfollow hway).receiveByte hst rxdr
          { d with ctx := { d.ctx with rxPos := d.ctx.rxPos + 1 } } rfl rfl
          (Or.inl ⟨hst, by rw [hreq]; exact UInt8.lt_iff_toNat_lt.mp (succ_lt_of_not_ge hlast)⟩)
      · exact ⟨hreq, hstarted, hfollow, hold⟩

/-- While the record is followed, the bus asks for a byte only while there is one left. -/
theorem Following.wantsByte {d : TwiDriver} {b : Bus} {t : Transfer} (h : Following d b t)
    (hwants : b.WantsByte) : d.ctx.txPos.toNat < t.req.txLen.toNat := by
  obtain ⟨w, hw, hdir, hshort⟩ := hwants
  have hword : w = startWord t.req := Option.some.inj (hw.symm.trans h.word)
  subst hword
  have hrx : t.req.rxLen = 0 := by simpa [startWord] using hdir
  rw [h.busSent] at hshort
  by_cases htx : t.req.txLen = 0
  · simp [startWord, htx, hrx] at hshort
  · simpa [startWord, htx] using hshort

theorem Following.hasByte {d : TwiDriver} {b : Bus} {t : Transfer} (h : Following d b t)
    (hway : t.req.OneWay) (hhas : b.HasByte) : d.ctx.rxPos.toNat < t.req.rxLen.toNat := by
  obtain ⟨w, hw, hdir, hshort⟩ := hhas
  have hword : w = startWord t.req := Option.some.inj (hw.symm.trans h.word)
  subst hword
  have hrx : t.req.rxLen ≠ 0 := by simpa [startWord] using hdir
  have htx : t.req.txLen = 0 := oneWay_of_rx hway (toNat_pos_iff.mp hrx)
  rw [h.busReceived] at hshort
  simpa [startWord, htx] using hshort

/-- The default case goes to the state whose flag the bus has raised. -/
theorem irqDefault_tracked {d : TwiDriver} {b : Bus} {log : List Transfer} (h : Tracked d b log)
    {isr : Isr} (hflags : b.Allows isr) : Tracked (d.irqDefault isr).1 b log := by
  unfold irqDefault
  cases log with
  | nil =>
      obtain ⟨hword, hcb, hstate⟩ := h
      split_ifs with htxis hrxne
      · obtain ⟨w, hw, -⟩ := hflags.1 htxis
        rw [hword] at hw
        cases hw
      · obtain ⟨w, hw, -⟩ := hflags.2 hrxne
        rw [hword] at hw
        cases hw
      · exact ⟨hword, hcb, hstate⟩
  | cons t ts =>
      obtain ⟨hreq, hstarted, hfollow, hold⟩ := h
      split_ifs with htxis hrxne
      · refine ⟨hreq, hstarted, ?_, hold⟩
        intro hway
        have hf := hfollow hway
        refine { hf with tx := fun _ => hf.wantsByte (hflags.1 htxis), rx := ?_, stop := ?_ } <;>
          intro hcontra <;> cases hcontra
      · refine ⟨hreq, hstarted, ?_, hold⟩
        intro hway
        have hf := hfollow hway
        refine { hf with tx := ?_, rx := fun _ => hf.hasByte hway (hflags.2 hrxne), stop := ?_ } <;>
          intro hcontra <;> cases hcontra
      · exact ⟨hreq, hstarted, hfollow, hold⟩

theorem irq_tracked {d : TwiDriver} {b : Bus} {log : List Transfer} (h : Tracked d b log) {isr : Isr}
    (hflags : b.Allows isr) (rxdr : UInt8) (nested : List Request) :
    Tracked (d.irq isr rxdr nested).1 (b.sees (d.irq isr rxdr nested).2)
      (recordAll log (d.irq isr rxdr nested).2) := by
  have hraised : Tracked (d.raised isr) b log := by
    unfold raised
    split_ifs
    · exact h.setState (Or.inr rfl)
    · exact h
  have hdefault := irqDefault_tracked hraised hflags
  rw [irq_eq]
  cases hst : (d.raised isr).ctx.state with
  | idle =>
      simp only [irqDefault_untouched]
      exact hdefault
  | start =>
      simp only [irqDefault_untouched]
      exact hdefault
  | tx => exact irqTx_tracked hraised hst isr
  | rx => exact irqRx_tracked hraised hst isr rxdr
  | stop => exact finish_tracked hraised (fun _ => hst) nested
  | error =>
      apply finish_tracked hraised
      intro hcontra
      cases hcontra

theorem tick_tracked {d : TwiDriver} {b : Bus} {log : List Transfer} (h : Tracked d b log) :
    Tracked d.tick1ms b log := by
  have hcount : ∀ n, Tracked { d with ctx := { d.ctx with timeout := n } } b log := by
    intro n
    cases log with
    | nil => exact h
    | cons t ts =>
        obtain ⟨hreq, hstarted, hfollow, hold⟩ := h
        exact ⟨hreq, hstarted, fun hway => { hfollow hway with }, hold⟩
  unfold tick1ms
  simp only
  split_ifs
  · exact h
  · exact (hcount _).setState (Or.inr rfl)
  · exact hcount _
  · exact h

/-! ## Whole runs -/

theorem tracked_step {s : TwiDriver × Bus} {es : List Effect} {i : Input}
    (h : Tracked s.1 s.2 (transfers es)) (hflags : Raisable s i) :
    Tracked (busStep s i).1.1 (busStep s i).1.2 (transfers (es ++ (busStep s i).2)) := by
  unfold transfers
  rw [recordAll_append]
  cases i with
  | submit r => exact submit_tracked h r
  | tick => exact tick_tracked h
  | irq isr rxdr nested => exact irq_tracked h hflags rxdr nested

/-- **Direction.** In every run whose flags the peripheral can raise, the requests transferred as they
    should be are those in one direction. -/
theorem direction_iff {is : List Input} (hflags : Trace.Along busStep Raisable busFresh is) :
    ∀ t ∈ transfers (Trace.run busStep busFresh is).2, ¬ (t.req.txLen = 0 ∧ t.req.rxLen = 0) →
      (t.Right ↔ t.req.OneWay) := by
  have hinit : Tracked busFresh.1 busFresh.2 (transfers []) := ⟨rfl, rfl, Or.inl rfl⟩
  have hinv := Trace.run_invariant_along Raisable (fun s es => Tracked s.1 s.2 (transfers es))
    (fun s es i h hr => tracked_step h hr) hinit hflags
  rw [List.nil_append] at hinv
  intro t ht hsome
  exact (hinv.closed t ht).right_iff hsome

/-- A write of one byte, and then an interrupt for nothing. -/
def oneByteRun : List Input :=
  [.submit oneByte, .irq ⟨false, false, true, false⟩ 0 [], .irq ⟨false, false, true, false⟩ 0 [],
    .irq ⟨false, false, false, false⟩ 0 [], .irq ⟨false, false, false, false⟩ 0 []]

theorem oneByteRun_raisable : Trace.Along busStep Raisable busFresh oneByteRun := by
  have hwants : Bus.WantsByte ⟨some (startWord oneByte), 0, 0⟩ := ⟨_, rfl, rfl, by decide⟩
  refine ⟨trivial, ⟨fun _ => hwants, ?_⟩, ⟨fun _ => hwants, ?_⟩, ⟨?_, ?_⟩, ⟨?_, ?_⟩, trivial⟩ <;>
    intro hcontra <;> cases hcontra

/-- The write of one byte of `oneByteRun` is transferred as it should be. -/
theorem direction_iff_oneByte :
    ∃ t, transfers (Trace.run busStep busFresh oneByteRun).2 = [t] ∧ t.results = [true] ∧ t.Right := by
  have hlog : transfers (Trace.run busStep busFresh oneByteRun).2
      = [⟨oneByte, [startWord oneByte], [oneByte.tx 0], [], [true]⟩] := rfl
  refine ⟨_, hlog, rfl, ?_⟩
  exact (direction_iff oneByteRun_raisable _ (by rw [hlog]; exact List.mem_cons_self) (by decide)).mpr
    (Or.inr rfl)

/-- Submitting two bytes to write and one to read already writes the wrong START word: a read of two. -/
theorem direction_fails :
    Trace.Along busStep Raisable busFresh [.submit twoOne] ∧
    ∃ t ∈ transfers (Trace.run busStep busFresh [.submit twoOne]).2,
      ¬ (t.req.txLen = 0 ∧ t.req.rxLen = 0) ∧ t.starts = [⟨0xA0, 2, true, true⟩] ∧ ¬ t.Right := by
  refine ⟨⟨trivial, trivial⟩, _, List.mem_singleton.mpr rfl, by decide, rfl, ?_⟩
  intro hright
  exact startWord_wrong (r := twoOne) (by unfold Request.OneWay; decide) [] hright.1

end TwiDriver
end Thermostat
