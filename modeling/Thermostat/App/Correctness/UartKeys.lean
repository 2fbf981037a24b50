import Thermostat.App.Correctness.Delivery

/-!
# `App.Correctness.UartKeys` — the keys of the serial port

A key `1` to `4` of the serial port pushes the press of a button at once and its release later. There is
one place for a release to come, with its deadline: the slot. What happens to it is a machine with two
operations (`Slot.step`): the main loop looks at the slot once an iteration, and a byte that is read may
fill it. Everything else in an iteration leaves the slot alone and pushes no key's event, so what the keys
do in a whole run is a run of that machine (`run_logged`).
-/

namespace Thermostat
namespace App

open Config

/-! ## The slot -/

/-- The release to come, and the tick count it waits for. -/
structure Slot where
  pending : Option Event
  deadline : UInt32
deriving DecidableEq, Repr

/-- A look at the slot, or a byte from the receive buffer, each with the tick count that it reads. -/
inductive KeyOp where
  | look (now : UInt32)
  | read (byte : Int) (now : UInt32)
deriving DecidableEq, Repr

/-- The byte stands for a button. -/
def KeyOp.isKey : KeyOp → Bool
  | .look _      => false
  | .read byte _ => (keyOf byte).isSome

/-- The operation lets a release go that waits for this deadline. -/
def KeyOp.isDue (deadline : UInt32) : KeyOp → Bool
  | .look now => deadline ≤ now
  | .read _ _ => false

namespace Slot

def step (s : Slot) : KeyOp → Slot × List Event
  | .look now =>
      match s.pending with
      | some e => if now ≥ s.deadline then ({ s with pending := none }, [e]) else (s, [])
      | none   => (s, [])
  | .read byte now =>
      match keyOf byte with
      | some type => (⟨some ⟨type, 2⟩, now + uartButtonPressDurationMs⟩, [⟨type, 0⟩])
      | none      => (s, [])

variable {s s' : Slot} {op : KeyOp}

theorem step_key {byte : Int} {type : EventType} (h : keyOf byte = some type) (now : UInt32) :
    s.step (.read byte now) = (⟨some ⟨type, 2⟩, now + uartButtonPressDurationMs⟩, [⟨type, 0⟩]) := by
  simp only [step, h]

theorem step_other {byte : Int} (h : keyOf byte = none) (now : UInt32) :
    s.step (.read byte now) = (s, []) := by
  simp only [step, h]

/-- Without a key, an empty slot stays as it is. -/
theorem step_idle (hpending : s.pending = none) (hkey : op.isKey = false) : s.step op = (s, []) := by
  cases op with
  | look now => simp only [step, hpending]
  | read byte now =>
      have hnone : keyOf byte = none := by simpa [KeyOp.isKey] using hkey
      exact step_other hnone now

/-- Without a key, a release waits for its deadline. -/
theorem step_waiting {e : Event} (hpending : s.pending = some e) (hkey : op.isKey = false) :
    s.step op = if op.isDue s.deadline then ({ s with pending := none }, [e]) else (s, []) := by
  cases op with
  | look now => simp only [step, hpending, KeyOp.isDue, decide_eq_true_eq, ge_iff_le]
  | read byte now =>
      have hnone : keyOf byte = none := by simpa [KeyOp.isKey] using hkey
      exact step_other hnone now

/-- One if this slot holds a release of the button. -/
def owes (s : Slot) (type : EventType) : Nat := if s.pending = some ⟨type, 2⟩ then 1 else 0

/-- A release comes out of the slot, and only a press puts it there. -/
theorem step_owes (s : Slot) (op : KeyOp) (type : EventType) :
    (s.step op).2.count ⟨type, 2⟩ + (s.step op).1.owes type
      ≤ (s.step op).2.count ⟨type, 0⟩ + s.owes type := by
  cases op with
  | look now =>
      cases hpending : s.pending with
      | none =>
          rw [step_idle hpending rfl]
          exact Nat.le_refl _
      | some e =>
          rw [step_waiting hpending rfl]
          split_ifs
          -- what comes out has been in the slot
          · by_cases he : e = ⟨type, 2⟩ <;> simp [owes, hpending, he]
          · exact Nat.le_refl _
  | read byte now =>
      cases hkey : keyOf byte with
      | none =>
          rw [step_other hkey]
          exact Nat.le_refl _
      | some pressed =>
          rw [step_key hkey]
          -- a press puts its own release in, and drops the one that waited
          by_cases he : pressed = type <;> simp [owes, he]

end Slot

/-! ## Logs -/

/-- An operation and the events that it pushed. -/
structure Entry where
  op : KeyOp
  events : List Event
deriving DecidableEq, Repr

/-- The events of a log, in order. -/
def pushed (log : List Entry) : List Event := log.flatMap (·.events)

/-- The log is one of the machine, from `s` to `s'`. -/
inductive Follows : Slot → List Entry → Slot → Prop where
  | nil (s : Slot) : Follows s [] s
  | cons {s s' : Slot} {log : List Entry} (op : KeyOp) (h : Follows (s.step op).1 log s') :
      Follows s (⟨op, (s.step op).2⟩ :: log) s'

namespace Follows

variable {s t s' : Slot} {log log' : List Entry}

theorem append (h : Follows s log t) (h' : Follows t log' s') : Follows s (log ++ log') s' := by
  induction h with
  | nil s => exact h'
  | cons op h ih => exact .cons op (ih h')

/-- A log can be cut anywhere. -/
theorem split (h : Follows s (log ++ log') s') : ∃ t, Follows s log t ∧ Follows t log' s' := by
  induction log generalizing s with
  | nil => exact ⟨s, .nil s, h⟩
  | cons x log ih =>
      cases h with
      | cons op h =>
          obtain ⟨t, hlog, hlog'⟩ := ih h
          exact ⟨t, .cons op hlog, hlog'⟩

/-- From an empty slot nothing comes until a key is read. -/
theorem silent (h : Follows s log s') (hpending : s.pending = none)
    (hkeys : ∀ x ∈ log, x.op.isKey = false) : pushed log = [] := by
  induction h with
  | nil s => rfl
  | @cons s s' log op h ih =>
      have hidle := Slot.step_idle hpending (hkeys _ List.mem_cons_self)
      rw [hidle] at ih
      show (s.step op).2 ++ pushed log = []
      rw [hidle]
      exact ih hpending (fun x hx => hkeys x (List.mem_cons_of_mem _ hx))

/-- **A release comes once**, at the first look that finds it due, if no key is read before. -/
theorem released {e : Event} (h : Follows s log s') (hpending : s.pending = some e)
    (hkeys : ∀ x ∈ log, x.op.isKey = false) :
    pushed log = if log.any (·.op.isDue s.deadline) then [e] else [] := by
  induction h with
  | nil s => rfl
  | @cons s s' log op h ih =>
      have hrest : ∀ x ∈ log, x.op.isKey = false := fun x hx => hkeys x (List.mem_cons_of_mem _ hx)
      have hstep := Slot.step_waiting hpending (hkeys _ List.mem_cons_self)
      show (s.step op).2 ++ pushed log = if op.isDue s.deadline || log.any _ then [e] else []
      cases hdue : op.isDue s.deadline with
      | true =>
          rw [hdue, if_pos rfl] at hstep
          -- the slot is empty from here on
          rw [hstep] at h
          rw [hstep, h.silent rfl hrest]
          rfl
      | false =>
          rw [hdue, if_neg Bool.false_ne_true] at hstep
          rw [hstep] at ih
          rw [hstep, Bool.false_or]
          exact ih hpending hrest

/-- An entry says what the machine does at its place. -/
theorem entry {x : Entry} (h : Follows s (log ++ x :: log') s') :
    ∃ t : Slot, x.events = (t.step x.op).2 ∧ Follows (t.step x.op).1 log' s' := by
  obtain ⟨t, -, hrest⟩ := h.split
  cases hrest with
  | cons op hrest => exact ⟨t, rfl, hrest⟩

/-- Releases come behind presses: their number never catches up with one that was lost. -/
theorem owes (h : Follows s log s') (type : EventType) :
    (pushed log).count ⟨type, 2⟩ + s'.owes type ≤ (pushed log).count ⟨type, 0⟩ + s.owes type := by
  induction h with
  | nil s => exact Nat.le_refl _
  | @cons s s' log op h ih =>
      have hstep := Slot.step_owes s op type
      show ((s.step op).2 ++ pushed log).count _ + _ ≤ ((s.step op).2 ++ pushed log).count _ + _
      rw [List.count_append, List.count_append]
      omega

end Follows

/-! ## The log of a run -/

def slot (a : App) : Slot := ⟨a.pendingUartRelease, a.pendingUartReleaseDeadline⟩

/-- The events that the keys pushed. -/
def uartEvents (es : List Effect) : List Event :=
  es.filterMap (fun o => match o with | .push .uart e _ => some e | _ => none)

theorem uartEvents_append (es fs : List Effect) : uartEvents (es ++ fs) = uartEvents es ++ uartEvents fs :=
  List.filterMap_append

/-- What `readKeys` does, one entry for each byte. -/
def readLog : List Arrival → App → List Entry
  | [],      _ => []
  | x :: xs, a =>
      let a := a.interrupts x.irqs
      if a.uart.hasData then
        let (uart, byte) := a.uart.readByte
        let a := { a with uart := uart }
        if byte < 0 then []
        else
          let (a, es) := pressKey byte x.now a
          ⟨.read byte x.now, uartEvents es⟩ :: readLog xs a
      else []

/-- The stages of an iteration before the keys. -/
def beforeKeys (i : Iteration) : App → App × List Effect :=
  Trace.seq [take i.head, pollSensor, pollButtons i.keys, pollCtrl i.ctrlNow, pollBeep i.beepNow]

/-- The stages behind the keys. -/
def afterKeys (i : Iteration) : App → App × List Effect :=
  Trace.seq [take i.timer, timerTick, processQueue i.dispatchNow, iwdgReload]

/-- What the keys do in an iteration. -/
def keyLog (a : App) (i : Iteration) : List Entry :=
  let a := (beforeKeys i a).1
  let (a, es) := releaseKey i.releaseNow a
  ⟨.look i.releaseNow, uartEvents es⟩ :: readLog (i.arrivals ++ quiet i.lateNow) a

/-- What the keys do in a run. -/
def runLog : App → List Iteration → List Entry
  | _, []      => []
  | a, i :: is => keyLog a i ++ runLog (appLoop a i).1 is

/-! ## The keys follow the machine -/

/-- What comes out of a stage, `r`, fits the log: it has the events of the log, which is one of the
    machine and begins with the slot `s`. -/
structure Logged (s : Slot) (r : App × List Effect) (log : List Entry) : Prop where
  events : uartEvents r.2 = pushed log
  follows : Follows s log r.1.slot

theorem Logged.append {s : Slot} {r t : App × List Effect} {log log' : List Entry} (hr : Logged s r log)
    (ht : Logged r.1.slot t log') : Logged s (t.1, r.2 ++ t.2) (log ++ log') := by
  refine ⟨?_, hr.follows.append ht.follows⟩
  rw [uartEvents_append, hr.events, ht.events]
  exact List.flatMap_append.symm

/-- A stage that leaves the slot alone and pushes no key's event. -/
def Silent (f : App → App × List Effect) : Prop := ∀ a, Logged a.slot (f a) []

theorem logged_nil {s : Slot} {a : App} (h : a.slot = s) : Logged s (a, []) [] := by
  refine ⟨rfl, ?_⟩
  rw [h]
  exact .nil s

theorem silent_seq {fs : List (App → App × List Effect)} (h : ∀ f ∈ fs, Silent f) :
    Silent (Trace.seq fs) := by
  apply Trace.seq_induction (P := Silent)
  · intro a
    exact logged_nil rfl
  · intro f g hf hg a
    exact (hf a).append (hg (f a).1)
  · exact h

theorem push_silent {p : Producer} (hp : p ≠ .uart) (e : Event) : Silent (push p e) := by
  intro a
  refine ⟨?_, .nil a.slot⟩
  cases p with
  | uart => exact absurd rfl hp
  | _ => rfl

theorem interrupt_slot (a : App) (i : Interrupt) : (a.interrupt i).slot = a.slot := by
  cases i <;> rfl

theorem interrupts_slot (a : App) (is : List Interrupt) : (a.interrupts is).slot = a.slot := by
  induction is generalizing a with
  | nil => rfl
  | cons i is ih =>
      show ((a.interrupt i).interrupts is).slot = a.slot
      rw [ih, interrupt_slot]

theorem take_silent (is : List Interrupt) : Silent (take is) := by
  intro a
  exact logged_nil (interrupts_slot a is)

theorem sensorEffect_silent (o : DS18B20.Effect) : Silent (sensorEffect o) := by
  intro a
  cases o with
  | tempReady temp =>
      show Logged a.slot (ds18b20TempReady temp a) []
      unfold ds18b20TempReady
      split_ifs
      · exact logged_nil rfl
      · exact logged_nil rfl
      · exact logged_nil rfl
      · exact push_silent (by decide) _ a
  | _ => exact logged_nil rfl

theorem pollSensor_silent : Silent pollSensor := by
  intro a
  have hseq : Silent (Trace.seq (a.sensor.poll.2.map sensorEffect)) := by
    apply silent_seq
    intro f hf
    obtain ⟨o, -, rfl⟩ := List.mem_map.mp hf
    exact sensorEffect_silent o
  exact hseq { a with sensor := a.sensor.poll.1 }

theorem pollButtons_silent (keys : KeyReadings) : Silent (pollButtons keys) := by
  intro a
  have hseq : Silent (Trace.seq ((a.buttons.poll keys).2.map (push .buttons))) := by
    apply silent_seq
    intro f hf
    obtain ⟨e, -, rfl⟩ := List.mem_map.mp hf
    exact push_silent (by decide) e
  exact hseq { a with buttons := (a.buttons.poll keys).1 }

theorem timerTick_silent : Silent timerTick := by
  intro a
  unfold timerTick
  split_ifs
  · simp only
    split_ifs
    · have hpush := @push_silent .timer (by decide) ⟨.tick100ms, 0⟩
      exact hpush { a with tim17 := a.tim17.decIrqCount, tick100 := 0 }
    · exact logged_nil rfl
  · exact logged_nil rfl

theorem dispatchEvent_slot (e : Event) (now : UInt32) (a : App) :
    (dispatchEvent e now a).1.slot = a.slot := by
  unfold dispatchEvent
  split_ifs <;> rfl

theorem processQueue_silent (now : UInt32) : Silent (processQueue now) := by
  intro a
  unfold processQueue EventQueue.pop
  cases a.queue.front with
  | none => exact logged_nil rfl
  | some e =>
      refine ⟨rfl, ?_⟩
      show Follows a.slot [] (dispatchEvent e now _).1.slot
      rw [dispatchEvent_slot]
      exact .nil a.slot

theorem beforeKeys_silent (i : Iteration) : Silent (beforeKeys i) := by
  apply silent_seq
  intro f hf
  simp only [List.mem_cons, List.not_mem_nil, or_false] at hf
  rcases hf with rfl | rfl | rfl | rfl | rfl
  · exact take_silent i.head
  · exact pollSensor_silent
  · exact pollButtons_silent i.keys
  · exact fun a => logged_nil rfl
  · exact fun a => logged_nil rfl

theorem afterKeys_silent (i : Iteration) : Silent (afterKeys i) := by
  apply silent_seq
  intro f hf
  simp only [List.mem_cons, List.not_mem_nil, or_false] at hf
  rcases hf with rfl | rfl | rfl | rfl
  · exact take_silent i.timer
  · exact timerTick_silent
  · exact processQueue_silent i.dispatchNow
  · intro a
    exact ⟨rfl, .nil a.slot⟩

theorem releaseKey_step (now : UInt32) (a : App) :
    a.slot.step (.look now) = ((releaseKey now a).1.slot, uartEvents (releaseKey now a).2) := by
  cases hpending : a.pendingUartRelease with
  | none =>
      rw [Slot.step_idle hpending rfl]
      simp only [releaseKey, hpending]
      rfl
  | some e =>
      rw [Slot.step_waiting hpending rfl]
      simp only [releaseKey, hpending, KeyOp.isDue, decide_eq_true_eq]
      by_cases hdue : now ≥ a.pendingUartReleaseDeadline
      · rw [if_pos hdue]
        exact if_pos hdue
      · rw [if_neg hdue]
        exact if_neg hdue

theorem pressKey_step (byte : Int) (now : UInt32) (a : App) :
    a.slot.step (.read byte now) = ((pressKey byte now a).1.slot, uartEvents (pressKey byte now a).2) := by
  cases hkey : keyOf byte with
  | none =>
      rw [Slot.step_other hkey]
      simp only [pressKey, hkey]
      rfl
  | some type =>
      rw [Slot.step_key hkey]
      simp only [pressKey, hkey]
      rfl

/-- A step of the machine, done by a stage. -/
theorem logged_step {a : App} {op : KeyOp} {r : App × List Effect}
    (h : a.slot.step op = (r.1.slot, uartEvents r.2)) : Logged a.slot r [⟨op, uartEvents r.2⟩] := by
  refine ⟨(List.append_nil _).symm, ?_⟩
  have hfollows : Follows a.slot [⟨op, (a.slot.step op).2⟩] (a.slot.step op).1 := .cons op (.nil _)
  rwa [h] at hfollows

theorem readKeys_logged (xs : List Arrival) (a : App) : Logged a.slot (readKeys xs a) (readLog xs a) := by
  induction xs generalizing a with
  | nil => exact logged_nil rfl
  | cons x xs ih =>
      -- the slot does not see the interrupts, nor the byte leaving the buffer
      have hirqs := interrupts_slot a x.irqs
      unfold readKeys readLog
      generalize a.interrupts x.irqs = b at hirqs
      rw [← hirqs]
      simp only
      split_ifs
      · exact logged_nil rfl
      · have hpress := logged_step (pressKey_step b.uart.readByte.2 x.now { b with uart := b.uart.readByte.1 })
        have hrest := hpress.append (ih _)
        rw [Trace.seq_cons, Trace.seq_cons, Trace.seq_nil, List.append_nil]
        exact hrest
      · exact logged_nil rfl

theorem appLoop_keys (a : App) (i : Iteration) :
    appLoop a i
      = Trace.seq [beforeKeys i, releaseKey i.releaseNow, readKeys (i.arrivals ++ quiet i.lateNow),
          afterKeys i] a := by
  simp only [appLoop, beforeKeys, afterKeys, Trace.seq_cons, Trace.seq_nil, List.append_nil,
    List.append_assoc]

theorem appLoop_logged (a : App) (i : Iteration) : Logged a.slot (appLoop a i) (keyLog a i) := by
  have hbefore := beforeKeys_silent i a
  have hrelease := logged_step (releaseKey_step i.releaseNow (beforeKeys i a).1)
  have hread := readKeys_logged (i.arrivals ++ quiet i.lateNow)
    (releaseKey i.releaseNow (beforeKeys i a).1).1
  have hafter := afterKeys_silent i
    (readKeys (i.arrivals ++ quiet i.lateNow) (releaseKey i.releaseNow (beforeKeys i a).1).1).1
  -- only the two stages of the keys have a part in the log
  have hall := hbefore.append (hrelease.append (hread.append hafter))
  rw [appLoop_keys]
  simp only [Trace.seq_cons, Trace.seq_nil, List.append_nil]
  simp only [List.append_nil] at hall
  exact hall

/-- **What the keys do in a run is a run of the machine.** -/
theorem run_logged (a : App) (is : List Iteration) : Logged a.slot (Trace.run appLoop a is) (runLog a is) := by
  induction is generalizing a with
  | nil => exact logged_nil rfl
  | cons i is ih => exact (appLoop_logged a i).append (ih (appLoop a i).1)

/-! ## What a press and its release look like -/

theorem isDue_iff {deadline : UInt32} {op : KeyOp} :
    op.isDue deadline = true ↔ ∃ later, op = .look later ∧ deadline.toNat ≤ later.toNat := by
  cases op with
  | look now => simp [KeyOp.isDue, UInt32.le_iff_toNat_le]
  | read byte now => simp [KeyOp.isDue]

/-- The release of a button that was pressed at `now`, as far as the operations `mid` behind the press go:
    it is pushed once at most, and is pushed if and only if one of them looks at the slot 50 ms later or more.
    Of a deadline beyond the counter's end only the first is said. -/
structure ReleasedOnce (type : EventType) (now : UInt32) (mid : List Entry) : Prop where
  once : pushed mid = [] ∨ pushed mid = [⟨type, 2⟩]
  due : now.toNat + uartButtonPressDurationMs.toNat < 4294967296 →
    (pushed mid = [⟨type, 2⟩] ↔ ∃ x ∈ mid, ∃ later, x.op = .look later ∧
      now.toNat + uartButtonPressDurationMs.toNat ≤ later.toNat)

/-- From the effects of a run and its log: what the keys push. -/
structure KeysRight (es : List Effect) (log : List Entry) : Prop where
  complete : uartEvents es = pushed log
  other : ∀ byte now events, ⟨.read byte now, events⟩ ∈ log → keyOf byte = none → events = []
  press : ∀ byte now events type, ⟨.read byte now, events⟩ ∈ log → keyOf byte = some type →
    events = [⟨type, 0⟩]
  release : ∀ pre mid post byte now events type,
    log = pre ++ ⟨.read byte now, events⟩ :: (mid ++ post) → keyOf byte = some type →
    (∀ x ∈ mid, x.op.isKey = false) → ReleasedOnce type now mid
  idle : ∀ mid post, log = mid ++ post → (∀ x ∈ mid, x.op.isKey = false) → pushed mid = []
  accepted : ∀ before after p e ok, es = before ++ .push p e ok :: after →
    (ok = true ↔ (accepted before).length < (dispatched before).length + eventQueueMaxSize)

theorem follows_releasedOnce {s s' : Slot} {mid : List Entry} {type : EventType} {now : UInt32}
    (h : Follows s mid s') (hslot : s = ⟨some ⟨type, 2⟩, now + uartButtonPressDurationMs⟩)
    (hkeys : ∀ x ∈ mid, x.op.isKey = false) : ReleasedOnce type now mid := by
  subst hslot
  have hpushed := h.released rfl hkeys
  refine ⟨?_, ?_⟩
  · rw [hpushed]
    split_ifs
    · exact .inr rfl
    · exact .inl rfl
  · intro hfar
    -- the deadline does not wrap, so the counter's order is that of the numbers
    have hdeadline : (now + uartButtonPressDurationMs).toNat
        = now.toNat + uartButtonPressDurationMs.toNat := by
      rw [UInt32.toNat_add]
      exact Nat.mod_eq_of_lt hfar
    rw [hpushed, ← hdeadline]
    simp only [← isDue_iff, ← List.any_eq_true]
    split_ifs with hany
    · simp [hany]
    · simp [hany]

/-- **The keys press and release buttons.** In every run each byte `1` to `4` that is read pushes the press of
    its button at once, and its release follows once, as soon as the slot is looked at 50 ms later or more,
    unless another key is read before. Nothing else is pushed, and a push is refused exactly when the queue
    is full. -/
theorem keys_right (is : List Iteration) : KeysRight (Trace.run appLoop boot is).2 (runLog boot is) := by
  obtain ⟨hevents, hfollows⟩ := run_logged boot is
  refine ⟨hevents, ?_, ?_, ?_, ?_, ?_⟩
  · intro byte now events hmem hnone
    obtain ⟨pre, post, hlog⟩ := List.append_of_mem hmem
    rw [hlog] at hfollows
    obtain ⟨t, hout, -⟩ := hfollows.entry
    rw [Slot.step_other hnone] at hout
    exact hout
  · intro byte now events type hmem hkey
    obtain ⟨pre, post, hlog⟩ := List.append_of_mem hmem
    rw [hlog] at hfollows
    obtain ⟨t, hout, -⟩ := hfollows.entry
    rw [Slot.step_key hkey] at hout
    exact hout
  -- behind a key the slot holds its release
  · intro pre mid post byte now events type hlog hkey hmid
    rw [hlog] at hfollows
    obtain ⟨t, -, hrest⟩ := hfollows.entry
    obtain ⟨t', hquiet, -⟩ := hrest.split
    exact follows_releasedOnce hquiet (congrArg Prod.fst (Slot.step_key hkey now)) hmid
  -- at the start it is empty
  · intro mid post hlog hmid
    rw [hlog] at hfollows
    obtain ⟨t, hquiet, -⟩ := hfollows.split
    exact hquiet.silent rfl hmid
  · intro before after p e ok hsplit
    exact push_accepted hsplit

/-! ## Releases that never come -/

/-- The keys `1` and `2` come in together, and the release that is left comes 50 ms later. -/
def twoKeys : List Iteration :=
  [ { calm [] with arrivals := [⟨[.arrive 0x31, .usart1], 0⟩, ⟨[.arrive 0x32, .usart1], 0⟩] },
    { calm [] with releaseNow := 50 } ]

/-- Seventeen times the key `1` in one iteration. -/
def manyKeys : Iteration := { calm [] with arrivals := List.replicate 17 ⟨[.arrive 0x31, .usart1], 0⟩ }

/-- **The release of a button is lost** when the next key takes the slot: however the run goes on, one press
    of it is left without. And the queue can refuse a press. -/
theorem keys_lose :
    (∀ is, (uartEvents (Trace.run appLoop boot (twoKeys ++ is)).2).count ⟨.buttonS1, 2⟩
      < (uartEvents (Trace.run appLoop boot (twoKeys ++ is)).2).count ⟨.buttonS1, 0⟩) ∧
    .push .uart ⟨.buttonS1, 0⟩ false ∈ (appLoop boot manyKeys).2 := by
  refine ⟨?_, by decide +kernel⟩
  intro is
  have hpresses : (uartEvents (Trace.run appLoop boot twoKeys).2).count ⟨.buttonS1, 0⟩ = 1 := by
    decide +kernel
  have hreleases : (uartEvents (Trace.run appLoop boot twoKeys).2).count ⟨.buttonS1, 2⟩ = 0 := by
    decide +kernel
  -- S1 has been pressed once more than it will ever be released
  have hslot : (Trace.run appLoop boot twoKeys).1.slot.owes .buttonS1 = 0 := by decide +kernel
  obtain ⟨hevents, hfollows⟩ := run_logged (Trace.run appLoop boot twoKeys).1 is
  have howes := hfollows.owes .buttonS1
  rw [← hevents, hslot] at howes
  rw [Trace.run_append, uartEvents_append, List.count_append, List.count_append, hpresses, hreleases]
  omega

end App
end Thermostat
