import Thermostat.App.AppLoop

/-!
# `App.Correctness.TickCount` — the timer block under preemption

`app_loop` consumes the interrupts that `TIM17` counts, one per iteration, and makes an event of every hundredth.
The decrement `m_irqCount--` is a load and a store. An interrupt between the two increments a value that the
store then overwrites: it is lost.

**`tick_block`**: this is the only loss. Every interleaving of the block with the handler does what an
undisturbed block does if these interrupts do not happen at all, and all others are counted once. So an event
never comes early, and the places at which `appLoop` takes interrupts are no restriction.
-/

namespace Thermostat

open Config

/-- The variables of the timer block of `app_loop`. -/
structure Ticker where
  tim17 : TimDriver
  tick100 : UInt8
deriving DecidableEq, Repr

namespace Ticker

/-- An interrupt that counts, one that is lost, and a `Tick100ms`. -/
inductive Effect where
  | interrupt
  | lost
  | tick
deriving DecidableEq, Repr

/-- A run of the handler that finds the update flag set, and an iteration of `app_loop`. -/
inductive Input where
  | irq
  | iterate
deriving DecidableEq, Repr

/-- `++tick100`, and the event if it is due. -/
def count (t : Ticker) : Ticker × List Effect :=
  if t.tick100 + 1 ≥ appLoopTicksPer100ms then ({ t with tick100 := 0 }, [.tick])
  else ({ t with tick100 := t.tick100 + 1 }, [])

/-- The whole block. -/
def iterate (t : Ticker) : Ticker × List Effect :=
  if t.tim17.getIrqCount ≠ 0 then { t with tim17 := t.tim17.decIrqCount }.count else (t, [])

def step (t : Ticker) : Input → Ticker × List Effect
  | .irq     => ({ t with tim17 := t.tim17.handleIRQ true }, [.interrupt])
  | .iterate => t.iterate

def boot : Ticker := ⟨⟨0⟩, 0⟩

end Ticker

/-! ## The block is the one of `appLoop` -/

namespace App

def ticker (a : App) : Ticker := ⟨a.tim17, a.tick100⟩

/-- What the block pushes, seen as a tick. -/
def tickOf : Effect → Option Ticker.Effect
  | .push .timer ⟨.tick100ms, 0⟩ _ => some .tick
  | _ => none

/-- The timer stage of an iteration is an iteration of the ticker. -/
theorem timerTick_ticker (a : App) :
    a.ticker.iterate = ((timerTick a).1.ticker, (timerTick a).2.filterMap tickOf) := by
  by_cases hirq : a.tim17.getIrqCount ≠ 0
  · have hblock : timerTick a =
        if a.tick100 + 1 ≥ appLoopTicksPer100ms then
          { a with tim17 := a.tim17.decIrqCount, tick100 := 0 }.push .timer ⟨.tick100ms, 0⟩
        else ({ a with tim17 := a.tim17.decIrqCount, tick100 := a.tick100 + 1 }, []) := if_pos hirq
    have hticker : a.ticker.iterate =
        if a.tick100 + 1 ≥ appLoopTicksPer100ms then (⟨a.tim17.decIrqCount, 0⟩, [.tick])
        else (⟨a.tim17.decIrqCount, a.tick100 + 1⟩, []) := if_pos hirq
    rw [hblock, hticker]
    split_ifs <;> rfl
  · have hblock : timerTick a = (a, []) := if_neg hirq
    have hticker : a.ticker.iterate = (a.ticker, []) := if_neg hirq
    rw [hblock, hticker]
    rfl

theorem boot_ticker : boot.ticker = Ticker.boot := rfl

end App

/-! ## The block taken apart -/

/-- The two looks at the counter, the load and the store of its decrement, and the rest of the block. -/
inductive Preempted.Phase where
  | look
  | check
  | load
  | store (v : UInt16)
  | count
deriving DecidableEq, Repr

structure Preempted where
  ticker : Ticker
  phase : Preempted.Phase
deriving DecidableEq, Repr

namespace Preempted

open Ticker (Effect)

inductive Input where
  | irq
  | advance
deriving DecidableEq, Repr

/-- One step of the block. -/
def advance (p : Preempted) : Preempted × List Effect :=
  match p.phase with
  | .look    => (if p.ticker.tim17.getIrqCount ≠ 0 then { p with phase := .check } else p, [])
  | .check   => ({ p with phase := if p.ticker.tim17.irqCount > 0 then .load else .count }, [])
  | .load    => ({ p with phase := .store p.ticker.tim17.irqCount }, [])
  | .store v => ({ ticker := { p.ticker with tim17 := ⟨v - 1⟩ }, phase := .count }, [])
  | .count   => ({ ticker := p.ticker.count.1, phase := .look }, p.ticker.count.2)

/-- The increment is overwritten if a store is due. -/
def seen (p : Preempted) : Effect :=
  match p.phase with
  | .store _ => .lost
  | _        => .interrupt

def step (p : Preempted) : Input → Preempted × List Effect
  | .irq     => ({ p with ticker := (p.ticker.step .irq).1 }, [p.seen])
  | .advance => p.advance

def boot : Preempted := ⟨.boot, .look⟩

/-- The counter does not overflow: less than 65534 interrupts wait. -/
def Room (p : Preempted) (i : Input) : Prop := i = .irq → p.ticker.tim17.irqCount.toNat < 65534

instance (p : Preempted) (i : Input) : Decidable (Room p i) :=
  inferInstanceAs (Decidable (i = .irq → p.ticker.tim17.irqCount.toNat < 65534))

/-! ## The lost interrupts do not happen -/

def counts : Effect → Option Effect
  | .lost => none
  | e     => some e

/-- The block stands where an undisturbed one stands before its iteration. A store that is due has decided what
    becomes of the counter. -/
def Stands (p : Preempted) (t : Ticker) : Prop :=
  t.tick100 = p.ticker.tick100 ∧
    match p.phase with
    | .look    => t.tim17.irqCount = p.ticker.tim17.irqCount
    | .check   => t.tim17.irqCount = p.ticker.tim17.irqCount ∧ t.tim17.irqCount ≠ 0
    | .load    => t.tim17.irqCount = p.ticker.tim17.irqCount ∧ t.tim17.irqCount ≠ 0
    | .store v => t.tim17.irqCount = v ∧ v ≠ 0
    | .count   => t.tim17.irqCount = p.ticker.tim17.irqCount + 1 ∧ p.ticker.tim17.irqCount.toNat < 65535

/-- Below the largest value the counter counts. -/
theorem succ_toNat {x : UInt16} (h : x.toNat < 65535) : (x + 1).toNat = x.toNat + 1 := by
  rw [UInt16.toNat_add]
  show (x.toNat + 1) % 65536 = x.toNat + 1
  omega

theorem succ_ne_zero {x : UInt16} (h : x.toNat < 65535) : x + 1 ≠ 0 := by
  intro hzero
  have hsucc := succ_toNat h
  rw [hzero] at hsucc
  exact absurd hsucc (by simp)

/-- The two looks at the counter ask the same. -/
theorem pos_of_ne_zero {x : UInt16} (h : x ≠ 0) : x > 0 := by
  rw [gt_iff_lt, UInt16.lt_iff_toNat_lt]
  exact Nat.pos_of_ne_zero fun hzero => h (UInt16.toNat_inj.mp hzero)

/-- A decrement takes one off, if there is one. -/
theorem pred_toNat {x : UInt16} (h : x ≠ 0) : (x - 1).toNat + 1 = x.toNat := by
  have hpos : 0 < x.toNat := UInt16.lt_iff_toNat_lt.mp (pos_of_ne_zero h)
  have hle : (1 : UInt16) ≤ x := UInt16.le_iff_toNat_le.mpr hpos
  rw [UInt16.toNat_sub_of_le x 1 hle]
  show x.toNat - 1 + 1 = x.toNat
  omega

theorem pred_succ (x : UInt16) : x - 1 + 1 = x := by simp

theorem succ_pred (x : UInt16) : x + 1 - 1 = x := by simp

/-- What an undisturbed block does for a step of the other one: an interrupt that is not lost is one, and the
    iteration is the step that counts. -/
def undisturbed (p : Preempted) : Input → List Ticker.Input
  | .irq =>
      match p.phase with
      | .store _ => []
      | _        => [.irq]
  | .advance =>
      match p.phase with
      | .count => [.iterate]
      | _      => []

/-- The counting step loses nothing. -/
theorem shown_count (t : Ticker) : t.count.2.filterMap counts = t.count.2 := by
  unfold Ticker.count
  split_ifs <;> rfl

/-- **An interrupt**: the undisturbed block takes it too, unless a store is due, which overwrites the increment. -/
theorem irq_stands {p : Preempted} {t : Ticker} (h : Stands p t) (hroom : p.ticker.tim17.irqCount.toNat < 65534) :
    Stands (p.step .irq).1 (Trace.run Ticker.step t (p.undisturbed .irq)).1 ∧
      (Trace.run Ticker.step t (p.undisturbed .irq)).2 = (p.step .irq).2.filterMap counts := by
  obtain ⟨⟨⟨n⟩, tick⟩, phase⟩ := p
  obtain ⟨⟨m⟩, tick'⟩ := t
  obtain ⟨htick, hcount⟩ := h
  cases phase with
  | look => exact ⟨⟨htick, congrArg (· + 1) hcount⟩, rfl⟩
  | check =>
      obtain ⟨hsame, -⟩ := hcount
      refine ⟨⟨htick, congrArg (· + 1) hsame, ?_⟩, rfl⟩
      subst hsame
      exact succ_ne_zero (Nat.lt_succ_of_lt hroom)
  | load =>
      obtain ⟨hsame, -⟩ := hcount
      refine ⟨⟨htick, congrArg (· + 1) hsame, ?_⟩, rfl⟩
      subst hsame
      exact succ_ne_zero (Nat.lt_succ_of_lt hroom)
  | store v => exact ⟨⟨htick, hcount⟩, rfl⟩
  | count =>
      obtain ⟨hsame, -⟩ := hcount
      refine ⟨⟨htick, congrArg (· + 1) hsame, ?_⟩, rfl⟩
      show (n + 1).toNat < 65535
      rw [succ_toNat (Nat.lt_succ_of_lt hroom)]
      exact Nat.succ_lt_succ hroom

/-- **A step of the block**: nothing happens in the undisturbed one until the step that counts, where its whole
    iteration happens. -/
theorem advance_stands {p : Preempted} {t : Ticker} (h : Stands p t) :
    Stands (p.step .advance).1 (Trace.run Ticker.step t (p.undisturbed .advance)).1 ∧
      (Trace.run Ticker.step t (p.undisturbed .advance)).2 = (p.step .advance).2.filterMap counts := by
  obtain ⟨⟨⟨n⟩, tick⟩, phase⟩ := p
  obtain ⟨⟨m⟩, tick'⟩ := t
  obtain ⟨htick, hcount⟩ := h
  cases phase with
  | look =>
      refine ⟨?_, rfl⟩
      show Stands (if n ≠ 0 then _ else _) _
      split_ifs with hzero
      · exact ⟨htick, hcount, fun h => hzero (hcount.symm.trans h)⟩
      · exact ⟨htick, hcount⟩
  | check =>
      obtain ⟨hsame, hne⟩ := hcount
      have hpos : n > 0 := pos_of_ne_zero fun hzero => hne (hsame.trans hzero)
      refine ⟨?_, rfl⟩
      show Stands ⟨⟨⟨n⟩, tick⟩, if n > 0 then _ else _⟩ _
      rw [if_pos hpos]
      exact ⟨htick, hsame, hne⟩
  | load =>
      obtain ⟨hsame, hne⟩ := hcount
      exact ⟨⟨htick, hsame, hsame ▸ hne⟩, rfl⟩
  | store v =>
      obtain ⟨hsame, hne⟩ := hcount
      refine ⟨⟨htick, hsame.trans (pred_succ v).symm, ?_⟩, rfl⟩
      have hpred := pred_toNat hne
      have hbound := v.toNat_lt
      show (v - 1).toNat < 65535
      omega
  | count =>
      obtain ⟨hsame, hbound⟩ := hcount
      have hsame' : m = n + 1 := hsame
      have htick' : tick' = tick := htick
      subst hsame' htick'
      have hdec : (TimDriver.mk (n + 1)).decIrqCount = ⟨n⟩ := by
        have hpos : n + 1 > 0 := pos_of_ne_zero (succ_ne_zero hbound)
        unfold TimDriver.decIrqCount
        rw [if_pos hpos]
        exact congrArg TimDriver.mk (succ_pred n)
      have hiterate : (Ticker.mk ⟨n + 1⟩ tick').iterate = (Ticker.mk ⟨n⟩ tick').count := by
        have hne : n + 1 ≠ 0 := succ_ne_zero hbound
        have hblock : (Ticker.mk ⟨n + 1⟩ tick').iterate
            = (Ticker.mk (TimDriver.mk (n + 1)).decIrqCount tick').count := if_pos hne
        rw [hblock, hdec]
      show Stands ⟨(Ticker.mk ⟨n⟩ tick').count.1, .look⟩ (Ticker.mk ⟨n + 1⟩ tick').iterate.1 ∧
        (Ticker.mk ⟨n + 1⟩ tick').iterate.2 ++ [] = (Ticker.mk ⟨n⟩ tick').count.2.filterMap counts
      rw [hiterate, List.append_nil]
      exact ⟨⟨rfl, rfl⟩, (shown_count _).symm⟩

/-! ## Every other interrupt is counted once -/

/-- The interrupts that are still to be counted. -/
def waiting (p : Preempted) : Nat :=
  match p.phase with
  | .store v => v.toNat
  | .count   => p.ticker.tim17.irqCount.toNat + 1
  | _        => p.ticker.tim17.irqCount.toNat

/-- The counted interrupts are those in the ticks, in the counter of the ticks, and those that wait. -/
structure Accounted (p : Preempted) (es : List Effect) : Prop where
  sum : es.count .interrupt = 100 * es.count .tick + p.ticker.tick100.toNat + p.waiting
  small : p.ticker.tick100.toNat < 100

/-- Counting one interrupt: a tick of the hundred, or one more on the way to it. -/
theorem count_tick (t : Ticker) (hsmall : t.tick100.toNat < 100) :
    100 * t.count.2.count .tick + t.count.1.tick100.toNat = t.tick100.toNat + 1 ∧
      t.count.1.tick100.toNat < 100 ∧ t.count.2.count .interrupt = 0 ∧ t.count.1.tim17 = t.tim17 := by
  have hsucc : (t.tick100 + 1).toNat = t.tick100.toNat + 1 := by
    rw [UInt8.toNat_add]
    show (t.tick100.toNat + 1) % 256 = _
    omega
  have hticks : appLoopTicksPer100ms.toNat = 100 := rfl
  unfold Ticker.count
  split_ifs with hdue
  · have hfull : 100 ≤ (t.tick100 + 1).toNat := hticks ▸ UInt8.le_iff_toNat_le.mp hdue
    refine ⟨?_, ?_, rfl, rfl⟩
    · show 100 * 1 + 0 = _
      omega
    · show 0 < 100
      omega
  · have hmore : ¬ 100 ≤ (t.tick100 + 1).toNat := fun h => hdue (UInt8.le_iff_toNat_le.mpr (hticks ▸ h))
    refine ⟨?_, ?_, rfl, rfl⟩
    · show 100 * 0 + (t.tick100 + 1).toNat = _
      omega
    · show (t.tick100 + 1).toNat < 100
      omega

/-- An interrupt is in the account as one that waits; a lost one is not in it. -/
theorem irq_accounted {p : Preempted} {es : List Effect} (h : Accounted p es)
    (hroom : p.ticker.tim17.irqCount.toNat < 65534) :
    Accounted (p.step .irq).1 (es ++ (p.step .irq).2) := by
  obtain ⟨⟨⟨n⟩, tick⟩, phase⟩ := p
  obtain ⟨hsum, hsmall⟩ := h
  have hsucc : (n + 1).toNat = n.toNat + 1 := succ_toNat (Nat.lt_succ_of_lt hroom)
  refine ⟨?_, hsmall⟩
  rw [List.count_append, List.count_append]
  cases phase with
  | store v => exact hsum
  | count =>
      show es.count .interrupt + 1 = 100 * (es.count .tick + 0) + tick.toNat + ((n + 1).toNat + 1)
      change es.count .interrupt = 100 * es.count .tick + tick.toNat + (n.toNat + 1) at hsum
      omega
  | _ =>
      show es.count .interrupt + 1 = 100 * (es.count .tick + 0) + tick.toNat + (n + 1).toNat
      change es.count .interrupt = 100 * es.count .tick + tick.toNat + n.toNat at hsum
      omega

/-- A step of the block moves an interrupt from those that wait to those that are counted. -/
theorem advance_accounted {p : Preempted} {t : Ticker} (hstands : Stands p t) {es : List Effect}
    (h : Accounted p es) : Accounted (p.step .advance).1 (es ++ (p.step .advance).2) := by
  obtain ⟨⟨⟨n⟩, tick⟩, phase⟩ := p
  obtain ⟨hsum, hsmall⟩ := h
  obtain ⟨-, hcount⟩ := hstands
  cases phase with
  | look =>
      rw [show (Preempted.step ⟨⟨⟨n⟩, tick⟩, .look⟩ .advance).2 = [] from rfl, List.append_nil]
      show Accounted (if n ≠ 0 then _ else _) es
      split_ifs
      · exact ⟨hsum, hsmall⟩
      · exact ⟨hsum, hsmall⟩
  | check =>
      obtain ⟨hsame, hne⟩ := hcount
      have hpos : n > 0 := pos_of_ne_zero fun hzero => hne (hsame.trans hzero)
      rw [show (Preempted.step ⟨⟨⟨n⟩, tick⟩, .check⟩ .advance).2 = [] from rfl, List.append_nil]
      show Accounted ⟨⟨⟨n⟩, tick⟩, if n > 0 then _ else _⟩ es
      rw [if_pos hpos]
      exact ⟨hsum, hsmall⟩
  | load =>
      rw [show (Preempted.step ⟨⟨⟨n⟩, tick⟩, .load⟩ .advance).2 = [] from rfl, List.append_nil]
      exact ⟨hsum, hsmall⟩
  | store v =>
      rw [show (Preempted.step ⟨⟨⟨n⟩, tick⟩, .store v⟩ .advance).2 = [] from rfl, List.append_nil]
      refine ⟨?_, hsmall⟩
      show es.count .interrupt = 100 * es.count .tick + tick.toNat + ((v - 1).toNat + 1)
      rw [pred_toNat hcount.2]
      exact hsum
  | count =>
      obtain ⟨hticks, hlittle, hnone, htim⟩ := count_tick (Ticker.mk ⟨n⟩ tick) hsmall
      refine ⟨?_, hlittle⟩
      show (es ++ (Ticker.mk ⟨n⟩ tick).count.2).count .interrupt
        = 100 * (es ++ (Ticker.mk ⟨n⟩ tick).count.2).count .tick + (Ticker.mk ⟨n⟩ tick).count.1.tick100.toNat
          + (Ticker.mk ⟨n⟩ tick).count.1.tim17.irqCount.toNat
      rw [List.count_append, List.count_append, hnone, htim]
      change es.count .interrupt = 100 * es.count .tick + tick.toNat + (n.toNat + 1) at hsum
      change 100 * (Ticker.mk ⟨n⟩ tick).count.2.count .tick + (Ticker.mk ⟨n⟩ tick).count.1.tick100.toNat
        = tick.toNat + 1 at hticks
      show es.count .interrupt + 0 = 100 * (es.count .tick + (Ticker.mk ⟨n⟩ tick).count.2.count .tick)
          + (Ticker.mk ⟨n⟩ tick).count.1.tick100.toNat + n.toNat
      omega

/-! ## The block -/

/-- **One step**, of either kind, in the undisturbed block. -/
theorem step_stands {p : Preempted} {t : Ticker} (h : Stands p t) {i : Input} (hroom : Room p i) :
    ∃ js, Stands (p.step i).1 (Trace.run Ticker.step t js).1 ∧
      (Trace.run Ticker.step t js).2 = (p.step i).2.filterMap counts := by
  cases i with
  | irq => exact ⟨p.undisturbed .irq, irq_stands h (hroom rfl)⟩
  | advance => exact ⟨p.undisturbed .advance, advance_stands h⟩

/-- The account needs the other block: it knows that there is something to take off. -/
theorem step_accounted (p : Preempted) (es : List Effect) (i : Input) (h : Accounted p es ∧ ∃ t, Stands p t)
    (hroom : Room p i) : Accounted (p.step i).1 (es ++ (p.step i).2) ∧ ∃ t, Stands (p.step i).1 t := by
  obtain ⟨hacc, t, hstands⟩ := h
  obtain ⟨js, hnext, -⟩ := step_stands hstands hroom
  refine ⟨?_, _, hnext⟩
  cases i with
  | irq => exact irq_accounted hacc (hroom rfl)
  | advance => exact advance_accounted hstands hacc

/-- **The timer block under preemption.** From power-on, in every interleaving of the block with the handler, as
    long as the counter has room: an undisturbed block does the same without the interrupts that come between
    load and store, and every other interrupt is in exactly one tick, or in the counter of the ticks, or waits. -/
theorem tick_block {is : List Input} (hroom : Trace.Along step Room boot is) :
    (∃ js, Stands (Trace.run step boot is).1 (Trace.run Ticker.step Ticker.boot js).1 ∧
      (Trace.run Ticker.step Ticker.boot js).2 = (Trace.run step boot is).2.filterMap counts) ∧
    Accounted (Trace.run step boot is).1 (Trace.run step boot is).2 := by
  have hstart : Stands boot Ticker.boot := ⟨rfl, rfl⟩
  constructor
  · exact Trace.run_simulates Stands counts (fun p t i h hi => step_stands h hi) hstart hroom
  · have hempty : Accounted boot [] ∧ ∃ t, Stands boot t := ⟨⟨rfl, by decide⟩, _, hstart⟩
    exact (Trace.run_invariant_along Room (fun p es => Accounted p es ∧ ∃ t, Stands p t) step_accounted hempty
      hroom).1

/-- An interrupt in front of the block, one that is lost in it, and one behind it. -/
def disturbed : List Input :=
  [.irq, .advance, .advance, .advance, .irq, .advance, .advance, .irq]

/-- Interrupts before, between and behind the load and the store. -/
theorem tick_block_disturbed :
    Accounted (Trace.run step boot disturbed).1 (Trace.run step boot disturbed).2 :=
  (tick_block (by decide : Trace.Along step Room boot disturbed)).2

end Preempted
end Thermostat
