import Thermostat.Drivers.Correctness.TwiCompletion

/-!
# `Drivers.Correctness.TwiBus` — the peripheral's side, and buffer bounds

`Peripheral` is what the I2C peripheral holds while the driver writes its registers. It sets `TXIS` while a write
transfer is short of its `NBYTES`, and the flag can stay until `TXDR` is written; a byte that has come in stays in
`RXDR`, with `RXNE` set, until it is read, and one more can wait behind it in the shift register. A word written to
`CR2` changes neither. So a request can find in `Start` what an earlier transfer has left over. Error flags are
unrestricted.

**`bounds_iff`.** In every run whose flags are those of the peripheral, all buffer accesses are in bounds and
`Idle` is quiet exactly if the interrupts taken in `Idle` find no left-over flag, and no left-over flag is served
for a request that has nothing to send, or to receive.
-/

namespace Thermostat
namespace TwiDriver

/-! ## The peripheral -/

/-- The word written to `CR2` last, and the bytes written to `TXDR` since; `TXIS`; the bytes of all read transfers
    that have not come in; the byte in `RXDR`, and the one behind it in the shift register. -/
structure Peripheral where
  word : Option Cr2
  sent : Nat
  txis : Bool
  due : Nat
  rxdr : Option UInt8
  shift : Option UInt8
deriving DecidableEq, Repr

namespace Peripheral

/-- No transfer has been programmed. -/
def quiet : Peripheral := ⟨none, 0, false, 0, none, none⟩

def observe (p : Peripheral) : Effect → Peripheral
  -- the flags stay, and a byte of an earlier transfer that is on the wire still comes in
  | .cr2 w =>
      { p with word := some w, sent := 0, due := p.due + if w.rdWrn then w.nbytes.toNat else 0 }
  | .txRead _ _  => { p with sent := p.sent + 1, txis := false }
  | .rxWrite _ _ => { p with rxdr := p.shift, shift := none }
  | _            => p

def sees (p : Peripheral) (es : List Effect) : Peripheral := es.foldl observe p

/-- The transfer programmed last is a write that is short of bytes. -/
def WantsByte (p : Peripheral) : Prop :=
  ∃ w, p.word = some w ∧ w.rdWrn = false ∧ p.sent < w.nbytes.toNat

/-- A byte has come in. -/
def receive (p : Peripheral) (b : UInt8) : Peripheral :=
  match p.rxdr with
  | none   => { p with due := p.due - 1, rxdr := some b }
  | some _ => { p with due := p.due - 1, shift := some b }

theorem sees_append (p : Peripheral) (xs ys : List Effect) : p.sees (xs ++ ys) = (p.sees xs).sees ys :=
  List.foldl_append

/-- A read transfer asks for no byte. -/
theorem not_wantsByte {p : Peripheral} {w : Cr2} (hw : p.word = some w) (hread : w.rdWrn = true) :
    ¬ p.WantsByte := by
  rintro ⟨w', hw', hwrite, -⟩
  rw [hw] at hw'
  cases hw'
  rw [hread] at hwrite
  cases hwrite

end Peripheral

/-- What can happen to the driver and the peripheral. -/
inductive WireInput where
  | driver (i : Input)
  /-- `TXIS` is set. -/
  | txis
  | receive (b : UInt8)

/-- The driver with the peripheral, which sees its effects. -/
def wireStep (s : TwiDriver × Peripheral) : WireInput → (TwiDriver × Peripheral) × List Effect
  | .driver i  => (((s.1.step i).1, s.2.sees (s.1.step i).2), (s.1.step i).2)
  | .txis      => ((s.1, { s.2 with txis := true }), [])
  | .receive b => ((s.1, s.2.receive b), [])

/-- The driver after start-up, and a peripheral without a transfer. -/
def wireFresh : TwiDriver × Peripheral := (fresh, Peripheral.quiet)

/-- What the peripheral does: an interrupt finds its flags, and the byte in `RXDR` if there is one; `TXIS` is set
    while bytes are wanted, and may be gone again with the transfer; bytes come in while some are due and there is
    room. -/
def Conforms (s : TwiDriver × Peripheral) : WireInput → Prop
  | .driver (.irq isr rxdr _) =>
      (isr.txis = true → s.2.txis = true) ∧ isr.rxne = s.2.rxdr.isSome ∧ ∀ b, s.2.rxdr = some b → rxdr = b
  | .driver _  => True
  | .txis      => s.2.WantsByte
  | .receive _ => 0 < s.2.due ∧ s.2.shift = none

/-! ## The property -/

def Effect.touchesBuffer : Effect → Bool
  | .txRead _ _ | .rxWrite _ _ => true
  | _ => false

/-- The access is inside the buffers of `r`. -/
def InBounds (r : Request) : Effect → Prop
  | .txRead i _  => i < r.txLen
  | .rxWrite i _ => i < r.rxLen
  | _ => True

/-- One step of the driver keeps to the buffers of the request in progress; an interrupt in `Idle` does nothing. -/
def BoundsOk (s : TwiDriver × Peripheral) : WireInput → Prop
  | .driver i =>
      (∀ e ∈ (s.1.step i).2, InBounds s.1.ctx.req e) ∧
      (s.1.ctx.state = .idle → (∃ isr b ns, i = .irq isr b ns) →
        (s.1.step i).1.ctx.state = .idle ∧ ∀ e ∈ (s.1.step i).2, e.touchesBuffer = false)
  | _ => True

/-- An interrupt taken in `Idle` finds no data flag; an error flag only if the callback of the last request
    submits nothing. -/
def IdleSilent (d : TwiDriver) : Input → Prop
  | .irq isr _ nested => d.ctx.state = .idle →
      if isr.nackf ∨ isr.berr then d.ctx.req.callback = none ∨ nested = []
      else isr.txis = false ∧ isr.rxne = false
  | _ => True

/-- A flag that is served in `Tx` or `Rx` belongs to a request that has something to send, or to receive. For
    another request it was left over, and `Start` has taken it for the request's own. -/
def OwnFlags (d : TwiDriver) : Input → Prop
  | .irq isr _ _ => ¬ (isr.nackf = true ∨ isr.berr = true) →
      (d.ctx.state = .tx → isr.txis = true → d.ctx.req.txLen ≠ 0) ∧
      (d.ctx.state = .rx → isr.rxne = true → d.ctx.req.rxLen ≠ 0)
  | _ => True

/-- The driver meets no left-over flag that it would act on. -/
def Clean (s : TwiDriver × Peripheral) : WireInput → Prop
  | .driver i => IdleSilent s.1 i ∧ OwnFlags s.1 i
  | _ => True

/-! ## Functions that touch no buffer -/

theorem inBounds_of_quiet {r : Request} {es : List Effect} (h : ∀ e ∈ es, e.touchesBuffer = false) :
    ∀ e ∈ es, InBounds r e := by
  intro e he
  have hquiet := h e he
  cases e with
  | txRead i b => cases hquiet
  | rxWrite i b => cases hquiet
  | _ => exact trivial

theorem startNext_untouched (d : TwiDriver) : ∀ e ∈ d.startNext.2, e.touchesBuffer = false := by
  unfold startNext
  cases d.queue.front <;> simp [Effect.touchesBuffer]

theorem submit_untouched (d : TwiDriver) (r : Request) :
    ∀ e ∈ (d.submit r).2, e.touchesBuffer = false := by
  cases hfull : d.queue.full with
  | true =>
      rw [submit_full hfull]
      simp [Effect.touchesBuffer]
  | false =>
      by_cases hidle : d.ctx.state = .idle
      · rw [submit_idle hfull hidle]
        intro e he
        rcases List.mem_cons.mp he with rfl | hnext
        · rfl
        · exact startNext_untouched _ e hnext
      · rw [submit_busy hfull hidle]
        simp [Effect.touchesBuffer]

theorem submitAll_untouched (d : TwiDriver) (rs : List Request) :
    ∀ e ∈ (d.submitAll rs).2, e.touchesBuffer = false := by
  induction rs generalizing d with
  | nil => simp [submitAll]
  | cons r rs ih =>
      intro e he
      rcases List.mem_append.mp he with hhead | htail
      · exact submit_untouched d r e hhead
      · exact ih _ e htail

theorem finish_untouched (d : TwiDriver) (ok : Bool) (nested : List Request) :
    ∀ e ∈ (d.finish ok nested).2, e.touchesBuffer = false := by
  intro e he
  cases hcb : d.ctx.req.callback with
  | none =>
      rw [finish_silent hcb] at he
      rcases List.mem_cons.mp he with rfl | hnext
      · rfl
      · exact startNext_untouched _ e hnext
  | some c =>
      rw [finish_called hcb] at he
      rcases List.mem_append.mp he with hcalled | hend
      · rcases List.mem_cons.mp hcalled with rfl | hnested
        · rfl
        · exact submitAll_untouched d nested e hnested
      · rcases List.mem_cons.mp hend with rfl | hnext
        · rfl
        · exact startNext_untouched _ e hnext

theorem irqEnd_untouched (d : TwiDriver) (ok : Bool) (nested : List Request) :
    ∀ e ∈ (d.irqEnd ok nested).2, e.touchesBuffer = false := by
  intro e he
  rcases List.mem_cons.mp he with rfl | hfinish
  · rfl
  · exact finish_untouched d ok nested e hfinish

theorem irqDefault_untouched (d : TwiDriver) (isr : Isr) : (d.irqDefault isr).2 = [] := by
  unfold irqDefault
  split_ifs <;> rfl

/-! ## The invariant -/

/-- `Start` is entered with both positions at 0, or behind a write transfer, when nothing more is asked for. In `Tx`
    and `Rx` the buffer has room, if there is one; and a request that has something to receive never asks for a
    byte. -/
structure Bounded (d : TwiDriver) (p : Peripheral) : Prop where
  idle : d.ctx.state = .idle → d.queue.items = []
  start : d.ctx.state = .start → d.ctx.rxPos = 0 ∧ (p.txis = true ∨ p.WantsByte → d.ctx.txPos = 0)
  tx : d.ctx.state = .tx → d.ctx.rxPos = 0 ∧ (d.ctx.req.txLen ≠ 0 → d.ctx.txPos < d.ctx.req.txLen)
  rx : d.ctx.state = .rx → d.ctx.req.rxLen ≠ 0 → d.ctx.rxPos < d.ctx.req.rxLen
  reads : d.ctx.state = .start ∨ d.ctx.state = .tx → d.ctx.req.rxLen ≠ 0 → ¬ p.WantsByte

/-- Of the others nothing is asked. -/
theorem bounded_end {d : TwiDriver} {p : Peripheral} (h : d.ctx.state = .stop ∨ d.ctx.state = .error) :
    Bounded d p := by
  rcases h with h | h <;> exact ⟨by simp [h], by simp [h], by simp [h], by simp [h], by simp [h]⟩

/-- With nothing to do the driver is idle, whatever the peripheral does. -/
theorem bounded_idle {d : TwiDriver} (hidle : d.ctx.state = .idle) (hempty : d.queue.items = []) (p : Peripheral) :
    Bounded d p :=
  ⟨fun _ => hempty, by simp [hidle], by simp [hidle], by simp [hidle], by simp [hidle]⟩

/-- What the peripheral does leaves the request alone. -/
theorem Bounded.hardware {d : TwiDriver} {p p' : Peripheral} (h : Bounded d p)
    (hwants : p'.WantsByte → p.WantsByte) (htxis : p'.txis = true → p.txis = true ∨ p.WantsByte) :
    Bounded d p' := by
  refine ⟨h.idle, ?_, h.tx, h.rx, ?_⟩
  · intro hst
    obtain ⟨hrx, htx⟩ := h.start hst
    refine ⟨hrx, ?_⟩
    rintro (hflag | hbyte)
    · exact htx (htxis hflag)
    · exact htx (Or.inr (hwants hbyte))
  · intro hst hrx hbyte
    exact h.reads hst hrx (hwants hbyte)

theorem startNext_bounded {d : TwiDriver} (hidle : d.ctx.state = .idle) (p : Peripheral) :
    Bounded d.startNext.1 (p.sees d.startNext.2) := by
  unfold startNext
  cases hq : d.queue.front with
  | none => exact bounded_idle hidle (Fifo.front_none.mp hq) p
  | some r =>
      refine ⟨?_, fun _ => ⟨rfl, fun _ => rfl⟩, ?_, ?_, ?_⟩
      · intro hcontra
        cases hcontra
      · intro hcontra
        cases hcontra
      · intro hcontra
        cases hcontra
      · intro _ hrx
        exact Peripheral.not_wantsByte (w := startWord r) rfl (decide_eq_true hrx)

theorem submit_bounded {d : TwiDriver} {p : Peripheral} (h : Bounded d p) (r : Request) :
    Bounded (d.submit r).1 (p.sees (d.submit r).2) := by
  cases hfull : d.queue.full with
  | true =>
      rw [submit_full hfull]
      exact h
  | false =>
      by_cases hidle : d.ctx.state = .idle
      · rw [submit_idle hfull hidle]
        exact startNext_bounded (d := { d with queue := d.queue.push r }) hidle p
      · rw [submit_busy hfull hidle]
        exact ⟨fun hcontra => absurd hcontra hidle, h.start, h.tx, h.rx, h.reads⟩

/-- However it ends, after `finish` the next request is started or the queue is empty. -/
theorem finish_bounded (d : TwiDriver) (ok : Bool) (nested : List Request) (p : Peripheral) :
    Bounded (d.finish ok nested).1 (p.sees (d.finish ok nested).2) := by
  cases hcb : d.ctx.req.callback with
  | none =>
      rw [finish_silent hcb]
      exact startNext_bounded rfl p
  | some c =>
      rw [finish_called hcb, Peripheral.sees_append]
      exact startNext_bounded rfl _

theorem irqEnd_bounded (d : TwiDriver) (ok : Bool) (nested : List Request) (p : Peripheral) :
    Bounded (d.irqEnd ok nested).1 (p.sees (d.irqEnd ok nested).2) := finish_bounded d ok nested p

theorem succ_lt_of_not_ge {i n : UInt8} (h : ¬ i + 1 ≥ n) : i + 1 < n := UInt8.not_le.mp h

theorem pos_of_ne_zero {n : UInt8} (h : n ≠ 0) : 0 < n := UInt8.pos_iff_ne_zero.mpr h

theorem ne_zero_of_lt {i n : UInt8} (h : i < n) : n ≠ 0 := by
  rintro rfl
  exact UInt8.not_lt_zero h

/-! ## The cases of an interrupt -/

/-- A byte sent: in bounds exactly if the request has something to send. -/
theorem irqTx_bounds_iff {d : TwiDriver} {p : Peripheral} (hst : d.ctx.state = .tx) (h : Bounded d p)
    (isr : Isr) :
    (∀ e ∈ (d.irqTx isr).2, InBounds d.ctx.req e) ↔ (isr.txis = true → d.ctx.req.txLen ≠ 0) := by
  have hfirst : ∀ es, (∀ e ∈ es, e.touchesBuffer = false) →
      ((∀ e ∈ .txRead d.ctx.txPos (d.ctx.req.tx d.ctx.txPos.toNat) :: es, InBounds d.ctx.req e) ↔
        d.ctx.req.txLen ≠ 0) := by
    intro es hquiet
    rw [List.forall_mem_cons]
    constructor
    · rintro ⟨hlt, -⟩
      exact ne_zero_of_lt hlt
    · intro hlen
      exact ⟨(h.tx hst).2 hlen, inBounds_of_quiet hquiet⟩
  unfold irqTx
  cases htxis : isr.txis with
  | false => simp
  | true =>
      simp only [if_true, forall_const]
      split_ifs
      · exact hfirst _ (by simp [Effect.touchesBuffer])
      · exact hfirst _ (by simp)
      · exact hfirst _ (by simp)

theorem irqRx_bounds_iff {d : TwiDriver} {p : Peripheral} (hst : d.ctx.state = .rx) (h : Bounded d p)
    (isr : Isr) (rxdr : UInt8) :
    (∀ e ∈ (d.irqRx isr rxdr).2, InBounds d.ctx.req e) ↔ (isr.rxne = true → d.ctx.req.rxLen ≠ 0) := by
  have hwrite : (∀ e ∈ [Effect.rxWrite d.ctx.rxPos rxdr], InBounds d.ctx.req e) ↔ d.ctx.req.rxLen ≠ 0 := by
    rw [List.forall_mem_singleton]
    exact ⟨ne_zero_of_lt, h.rx hst⟩
  unfold irqRx
  cases hrxne : isr.rxne with
  | false => simp
  | true =>
      simp only [if_true, forall_const]
      split_ifs
      · exact hwrite
      · exact hwrite

/-- The byte that is sent clears `TXIS`. -/
theorem irqTx_bounded {d : TwiDriver} {p : Peripheral} (hst : d.ctx.state = .tx) (h : Bounded d p) (isr : Isr) :
    Bounded (d.irqTx isr).1 (p.sees (d.irqTx isr).2) := by
  obtain ⟨hrx, hpos⟩ := h.tx hst
  unfold irqTx
  simp only
  split_ifs with htxis hlast hread
  · -- the read transfer behind the write transfer
    have hquiet : ¬ Peripheral.WantsByte
        (p.sees [.txRead d.ctx.txPos (d.ctx.req.tx d.ctx.txPos.toNat), .cr2 (restartWord d.ctx.req)]) :=
      Peripheral.not_wantsByte (w := restartWord d.ctx.req) rfl rfl
    refine ⟨by simp, ?_, by simp, by simp, fun _ _ => hquiet⟩
    intro _
    refine ⟨hrx, ?_⟩
    rintro (hflag | hbyte)
    · cases hflag
    · exact absurd hbyte hquiet
  · exact bounded_end (Or.inl rfl)
  · refine ⟨by simp [hst], by simp [hst], fun _ => ⟨hrx, fun _ => succ_lt_of_not_ge hlast⟩, by simp [hst], ?_⟩
    rintro - hlen ⟨w, hw, hwrite, hshort⟩
    exact h.reads (Or.inr hst) hlen ⟨w, hw, hwrite, Nat.lt_of_succ_lt hshort⟩
  · exact h

theorem irqRx_bounded {d : TwiDriver} {p : Peripheral} (hst : d.ctx.state = .rx) (h : Bounded d p) (isr : Isr)
    (rxdr : UInt8) : Bounded (d.irqRx isr rxdr).1 (p.sees (d.irqRx isr rxdr).2) := by
  unfold irqRx
  simp only
  split_ifs with hrxne hlast
  · exact bounded_end (Or.inl rfl)
  · exact ⟨by simp [hst], by simp [hst], by simp [hst], fun _ _ => succ_lt_of_not_ge hlast, by simp [hst]⟩
  · exact h

/-- In `Start` the positions are at 0 whatever flag is found. -/
theorem irqDefault_bounded {d : TwiDriver} {p : Peripheral} (hst : d.ctx.state = .start) (h : Bounded d p)
    {isr : Isr} (htxis : isr.txis = true → p.txis = true) : Bounded (d.irqDefault isr).1 p := by
  obtain ⟨hrx, htx⟩ := h.start hst
  unfold irqDefault
  split_ifs with htx' hrx'
  · refine ⟨by simp [setState], by simp [setState], ?_, by simp [setState], ?_⟩
    · intro _
      refine ⟨hrx, ?_⟩
      intro hlen
      show d.ctx.txPos < d.ctx.req.txLen
      rw [htx (Or.inl (htxis htx'))]
      exact pos_of_ne_zero hlen
    · intro _
      exact h.reads (Or.inl hst)
  · refine ⟨by simp [setState], by simp [setState], by simp [setState], ?_, by simp [setState]⟩
    intro _ hlen
    show d.ctx.rxPos < d.ctx.req.rxLen
    rw [hrx]
    exact pos_of_ne_zero hlen
  · exact h

theorem raised_bounded {d : TwiDriver} {p : Peripheral} (h : Bounded d p) (isr : Isr) :
    Bounded (d.raised isr) p := by
  unfold raised
  split_ifs
  · exact bounded_end (Or.inr rfl)
  · exact h

theorem raised_req (d : TwiDriver) (isr : Isr) : (d.raised isr).ctx.req = d.ctx.req := by
  unfold raised
  split_ifs <;> rfl

/-! ## Interrupts outside `Idle` -/

theorem irq_bounded_busy {d : TwiDriver} {p : Peripheral} (h : Bounded d p) (hbusy : d.ctx.state ≠ .idle)
    {isr : Isr} (htxis : isr.txis = true → p.txis = true) (rxdr : UInt8) (nested : List Request) :
    Bounded (d.irq isr rxdr nested).1 (p.sees (d.irq isr rxdr nested).2) := by
  have hraised := raised_bounded h isr
  have hne := (raised_busy hbusy isr).1
  rw [irq_eq]
  cases hst : (d.raised isr).ctx.state with
  | idle => exact absurd hst hne
  | start =>
      simp only [irqDefault_untouched]
      exact irqDefault_bounded hst hraised htxis
  | tx => exact irqTx_bounded hst hraised isr
  | rx => exact irqRx_bounded hst hraised isr rxdr
  | stop => exact irqEnd_bounded _ true nested p
  | error => exact irqEnd_bounded _ false nested p

/-- An error flag ends the request; otherwise the state decides. -/
theorem irq_bounds_busy_iff {d : TwiDriver} {p : Peripheral} (h : Bounded d p) (hbusy : d.ctx.state ≠ .idle)
    (isr : Isr) (rxdr : UInt8) (nested : List Request) :
    (∀ e ∈ (d.irq isr rxdr nested).2, InBounds d.ctx.req e) ↔ OwnFlags d (.irq isr rxdr nested) := by
  by_cases herr : isr.nackf = true ∨ isr.berr = true
  · rw [irq_raised herr]
    exact ⟨fun _ hok => absurd herr hok, fun _ => inBounds_of_quiet (irqEnd_untouched _ false nested)⟩
  · have hown : OwnFlags d (.irq isr rxdr nested) ↔
        (d.ctx.state = .tx → isr.txis = true → d.ctx.req.txLen ≠ 0) ∧
        (d.ctx.state = .rx → isr.rxne = true → d.ctx.req.rxLen ≠ 0) := ⟨fun ho => ho herr, fun ho _ => ho⟩
    rw [hown, irq_eq, raised, if_neg herr]
    cases hst : d.ctx.state with
    | idle => exact absurd hst hbusy
    | start => simp [irqDefault_untouched]
    | tx => simpa using irqTx_bounds_iff hst h isr
    | rx => simpa using irqRx_bounds_iff hst h isr rxdr
    | stop => simpa using inBounds_of_quiet (irqEnd_untouched d true nested)
    | error => simpa using inBounds_of_quiet (irqEnd_untouched d false nested)

/-! ## Interrupts in `Idle` -/

/-- Outside `Idle` submissions only lengthen the queue. -/
theorem submitAll_length {d : TwiDriver} (hbusy : d.ctx.state ≠ .idle) (rs : List Request) :
    d.queue.items.length ≤ (d.submitAll rs).1.queue.items.length := by
  induction rs generalizing d with
  | nil => exact Nat.le_refl _
  | cons r rs ih =>
      have hstep : d.queue.items.length ≤ (d.submit r).1.queue.items.length := by
        cases hfull : d.queue.full with
        | true =>
            rw [submit_full hfull]
        | false =>
            have hpush := push_items hfull r
            rw [submit_busy hfull hbusy]
            simp [hpush]
      have hrest := ih (d := (d.submit r).1) (by rw [(submit_ctx hbusy r).1]; exact hbusy)
      exact Nat.le_trans hstep hrest

/-- With an empty queue, a callback that submits something leaves it non-empty. -/
theorem submitAll_nonempty {d : TwiDriver} (hbusy : d.ctx.state ≠ .idle) (hempty : d.queue.items = [])
    (r : Request) (rs : List Request) : (d.submitAll (r :: rs)).1.queue.items ≠ [] := by
  have hfull : d.queue.full = false := by
    rw [Fifo.not_full_iff, hempty]
    decide
  have hone : (d.submit r).1.queue.items.length = 1 := by
    rw [submit_busy hfull hbusy]
    show (d.queue.push r).items.length = 1
    rw [push_items hfull, hempty]
    rfl
  have hrest := submitAll_length (d := (d.submit r).1) (by rw [(submit_ctx hbusy r).1]; exact hbusy) rs
  intro hnil
  have hlength : ((d.submit r).1.submitAll rs).1.queue.items.length = 0 := congrArg List.length hnil
  omega

/-- From `Idle`, `startNext` moves exactly if the queue is not empty. -/
theorem startNext_state {d : TwiDriver} (hidle : d.ctx.state = .idle) :
    d.startNext.1.ctx.state = .idle ↔ d.queue.items = [] := by
  unfold startNext
  cases hq : d.queue.front with
  | none => exact ⟨fun _ => Fifo.front_none.mp hq, fun _ => hidle⟩
  | some r =>
      have hitems := Fifo.front_pop hq
      constructor
      · intro hcontra
        cases hcontra
      · intro hempty
        rw [hempty] at hitems
        cases hitems

/-- **In `Idle`** an interrupt leaves the driver idle exactly if it is silent. -/
theorem irq_idle_iff {d : TwiDriver} {p : Peripheral} (h : Bounded d p) (hidle : d.ctx.state = .idle) (isr : Isr)
    (rxdr : UInt8) (nested : List Request) :
    (d.irq isr rxdr nested).1.ctx.state = .idle ↔ IdleSilent d (.irq isr rxdr nested) := by
  have hempty : d.queue.items = [] := h.idle hidle
  have hsilent : IdleSilent d (.irq isr rxdr nested) ↔
      if isr.nackf ∨ isr.berr then d.ctx.req.callback = none ∨ nested = []
      else isr.txis = false ∧ isr.rxne = false := ⟨fun hs => hs hidle, fun hs _ => hs⟩
  rw [hsilent]
  by_cases herr : isr.nackf = true ∨ isr.berr = true
  · rw [irq_raised herr, if_pos herr]
    show ((d.setState .error).finish false nested).1.ctx.state = .idle ↔ _
    cases hcb : d.ctx.req.callback with
    | none =>
        rw [finish_silent (d := d.setState .error) hcb]
        refine (startNext_state (d := (d.setState .error).setState .idle) rfl).trans ?_
        exact ⟨fun _ => Or.inl rfl, fun _ => hempty⟩
    | some c =>
        rw [finish_called (d := d.setState .error) hcb]
        refine (startNext_state (d := ((d.setState .error).submitAll nested).1.setState .idle) rfl).trans ?_
        cases nested with
        | nil => exact ⟨fun _ => Or.inr rfl, fun _ => hempty⟩
        | cons r rs =>
            have hqueue := submitAll_nonempty (d := d.setState .error) (by simp [setState]) hempty r rs
            constructor
            · intro hnil
              exact absurd hnil hqueue
            · rintro (hcontra | hcontra) <;> cases hcontra
  · rw [irq_idle_default hidle herr, if_neg herr]
    unfold irqDefault
    cases htxis : isr.txis with
    | true => simp [setState]
    | false => cases hrxne : isr.rxne <;> simp [hidle, setState]

/-- In `Idle` no interrupt touches a buffer; the harm is done by the next ones. -/
theorem irq_idle_untouched {d : TwiDriver} (hidle : d.ctx.state = .idle) (isr : Isr) (rxdr : UInt8)
    (nested : List Request) : ∀ e ∈ (d.irq isr rxdr nested).2, e.touchesBuffer = false := by
  by_cases herr : isr.nackf = true ∨ isr.berr = true
  · rw [irq_raised herr]
    exact irqEnd_untouched _ false nested
  · rw [irq_idle_default hidle herr, irqDefault_untouched]
    simp

/-! ## One step -/

/-- **One step.** With the flags of the peripheral, a step keeps to the buffers exactly if it is clean. -/
theorem boundsOk_iff {s : TwiDriver × Peripheral} {i : WireInput} (h : Bounded s.1 s.2) :
    BoundsOk s i ↔ Clean s i := by
  cases i with
  | txis => exact Iff.rfl
  | receive b => exact Iff.rfl
  | driver i =>
      cases i with
      | submit r =>
          refine ⟨fun _ => ⟨trivial, trivial⟩, fun _ => ⟨inBounds_of_quiet (submit_untouched s.1 r), ?_⟩⟩
          rintro - ⟨isr, rxdr, ns, hcontra⟩
          cases hcontra
      | tick =>
          refine ⟨fun _ => ⟨trivial, trivial⟩, fun _ => ⟨inBounds_of_quiet (by simp [step]), ?_⟩⟩
          rintro - ⟨isr, rxdr, ns, hcontra⟩
          cases hcontra
      | irq isr rxdr nested =>
          by_cases hidle : s.1.ctx.state = .idle
          · have hiff := irq_idle_iff h hidle isr rxdr nested
            have hquiet := irq_idle_untouched hidle isr rxdr nested
            constructor
            · intro hok
              refine ⟨hiff.mp (hok.2 hidle ⟨isr, rxdr, nested, rfl⟩).1, ?_⟩
              intro _
              rw [hidle]
              exact ⟨nofun, nofun⟩
            · intro hclean
              exact ⟨inBounds_of_quiet hquiet, fun _ _ => ⟨hiff.mpr hclean.1, hquiet⟩⟩
          · have hiff := irq_bounds_busy_iff h hidle isr rxdr nested
            constructor
            · intro hok
              exact ⟨fun hcontra => absurd hcontra hidle, hiff.mp hok.1⟩
            · intro hclean
              exact ⟨hiff.mpr hclean.2, fun hcontra => absurd hcontra hidle⟩

theorem tick1ms_bounded {d : TwiDriver} {p : Peripheral} (h : Bounded d p) : Bounded d.tick1ms p := by
  unfold tick1ms
  simp only
  split_ifs
  · exact h
  · exact bounded_end (Or.inr rfl)
  · exact ⟨h.idle, h.start, h.tx, h.rx, h.reads⟩
  · exact h

theorem receive_bounded {d : TwiDriver} {p : Peripheral} (h : Bounded d p) (b : UInt8) :
    Bounded d (p.receive b) := by
  unfold Peripheral.receive
  cases p.rxdr <;> exact h.hardware id Or.inl

/-- Clean steps keep the invariant. -/
theorem bounded_step {s : TwiDriver × Peripheral} {i : WireInput} (h : Bounded s.1 s.2) (hflags : Conforms s i)
    (hclean : Clean s i) : Bounded (wireStep s i).1.1 (wireStep s i).1.2 := by
  cases i with
  | txis => exact h.hardware id (fun _ => Or.inr hflags)
  | receive b => exact receive_bounded h b
  | driver i =>
      cases i with
      | submit r => exact submit_bounded h r
      | tick => exact tick1ms_bounded h
      | irq isr rxdr nested =>
          by_cases hidle : s.1.ctx.state = .idle
          · show Bounded (s.1.irq isr rxdr nested).1 (s.2.sees (s.1.irq isr rxdr nested).2)
            by_cases herr : isr.nackf = true ∨ isr.berr = true
            · rw [irq_raised herr]
              exact irqEnd_bounded _ false nested s.2
            · have hdata := hclean.1 hidle
              rw [if_neg herr] at hdata
              rw [irq_idle_quiet hidle herr hdata.1 hdata.2]
              exact h
          · exact irq_bounded_busy h hidle hflags.1 rxdr nested

/-! ## Whole runs -/

theorem bounded_fresh : Bounded fresh Peripheral.quiet := bounded_idle rfl rfl Peripheral.quiet

/-- **Bounds and a quiet `Idle`**, in every run in which the peripheral conforms: exactly if every step is clean. -/
theorem bounds_iff {is : List WireInput} (hflags : Trace.Along wireStep Conforms wireFresh is) :
    Trace.Along wireStep BoundsOk wireFresh is ↔ Trace.Along wireStep Clean wireFresh is := by
  have hcongr : Trace.Along wireStep (fun s i => Conforms s i ∧ Clean s i) wireFresh is ↔
      Trace.Along wireStep (fun s i => Conforms s i ∧ BoundsOk s i) wireFresh is := by
    refine Trace.along_congr (fun s => Bounded s.1 s.2) ?_ ?_ bounded_fresh
    · intro s i h hC
      exact bounded_step h hC.1 hC.2
    · intro s i h
      exact and_congr_right (fun _ => (boundsOk_iff h).symm)
  rw [Trace.along_and, Trace.along_and] at hcongr
  constructor
  · intro hok
    exact (hcongr.mpr ⟨hflags, hok⟩).2
  · intro hclean
    exact (hcongr.mp ⟨hflags, hclean⟩).2

/-- A write of one byte, and then an interrupt for nothing. -/
def oneByteWire : List WireInput :=
  [.driver (.submit oneByte), .txis, .driver (.irq ⟨false, false, true, false⟩ 0 []),
    .driver (.irq ⟨false, false, true, false⟩ 0 []), .driver (.irq ⟨false, false, false, false⟩ 0 []),
    .driver (.irq ⟨false, false, false, false⟩ 0 [])]

theorem bounds_iff_oneByte :
    Trace.Along wireStep BoundsOk wireFresh oneByteWire ↔ Trace.Along wireStep Clean wireFresh oneByteWire := by
  apply bounds_iff
  refine ⟨trivial, ⟨startWord oneByte, rfl, rfl, by decide⟩, ⟨id, rfl, ?_⟩, ⟨id, rfl, ?_⟩, ⟨id, rfl, ?_⟩,
    ⟨id, rfl, ?_⟩, trivial⟩ <;> rintro b ⟨⟩

/-- Two bytes to write, one to read. The only START is a read of two bytes. -/
def twoOne : Request := ⟨0x50, fun _ => 0xAA, 2, 1, some 0⟩

/-- An interrupt with `RXNE` set and this byte in `RXDR`. -/
def rxneIrq (b : UInt8) : WireInput := .driver (.irq ⟨false, false, false, true⟩ b [])

/-- The driver takes the first byte and ends the request; the second comes in behind it, and is found in `Idle`. -/
def overrun : List WireInput :=
  [.driver (.submit twoOne), .receive 0x55, rxneIrq 0x55, rxneIrq 0x55, .receive 0x66, rxneIrq 0x66, rxneIrq 0x66,
    rxneIrq 0x66]

/-- A write of one byte is waiting; the second byte of the first request is still unread when it is started. -/
def leftOver : List WireInput :=
  [.driver (.submit twoOne), .driver (.submit oneByte), .receive 0x55, .receive 0x66, rxneIrq 0x55, rxneIrq 0x55,
    rxneIrq 0x66, rxneIrq 0x66, rxneIrq 0x66]

/-- Both runs write past the buffer: `rx[1]` of one byte from `Idle`, and `rx[0]` of none without any interrupt in
    `Idle`. -/
theorem bounds_fail :
    (Trace.Along wireStep Conforms wireFresh overrun ∧ ¬ Trace.Along wireStep BoundsOk wireFresh overrun) ∧
    Trace.Along wireStep Conforms wireFresh leftOver ∧ ¬ Trace.Along wireStep BoundsOk wireFresh leftOver := by
  refine ⟨⟨?_, ?_⟩, ?_, ?_⟩
  · refine ⟨trivial, ⟨by decide, rfl⟩, ⟨id, rfl, ?_⟩, ⟨id, rfl, ?_⟩, ⟨by decide, rfl⟩, ⟨id, rfl, ?_⟩,
      ⟨id, rfl, ?_⟩, ⟨id, rfl, ?_⟩, trivial⟩ <;> rintro b ⟨⟩ <;> rfl
  · rintro ⟨-, -, -, -, -, -, -, hlast, -⟩
    have hwrite : InBounds twoOne (.rxWrite 1 0x66) := hlast.1 _ (List.mem_singleton.mpr rfl)
    revert hwrite
    unfold InBounds
    decide
  · refine ⟨trivial, trivial, ⟨by decide, rfl⟩, ⟨by decide, rfl⟩, ⟨id, rfl, ?_⟩, ⟨id, rfl, ?_⟩, ⟨id, rfl, ?_⟩,
      ⟨id, rfl, ?_⟩, ⟨id, rfl, ?_⟩, trivial⟩ <;> rintro b ⟨⟩ <;> rfl
  · rintro ⟨-, -, -, -, -, -, -, -, hlast, -⟩
    have hwrite : InBounds oneByte (.rxWrite 0 0x66) := hlast.1 _ (List.mem_singleton.mpr rfl)
    revert hwrite
    unfold InBounds
    decide

end TwiDriver
end Thermostat
