import Mathlib.Data.List.Basic
import Mathlib.Order.Basic
import Mathlib.Tactic.SplitIfs

/-!
# `Lib.OneWire` — a sensor on a one-wire bus

The master pulls the bus low for some time and times the edges at which it comes back up. A pulse of 480 us is a
reset, which the sensor answers with a presence pulse. In all other slots a short pulse is a one and a long one a
zero. Eight of them make a command, lowest bit first: `0xCC` selects the sensor, and then `0x44` starts a measurement
and `0xBE` makes it send its memory, one bit in each slot. For a zero it holds the bus itself.

- `pulses` finds the low stretches of a wave, and `pulses_slot` those of a slot.
- `Slave` is the sensor. What a measurement will find is up to the outside, and so is, within limits, when the edges
  come (`Conduct`).
- `session` lets it hear some pulses; `session_read` says what it sends.
-/

namespace OneWire

/-! ## Waves -/

/-- The lengths of the low stretches (`true`) of a wave that is low for `n` already. -/
def pulsesFrom (n : Nat) : List Bool → List Nat
  | []            => if n = 0 then [] else [n]
  | true :: wave  => pulsesFrom (n + 1) wave
  | false :: wave => if n = 0 then pulsesFrom 0 wave else n :: pulsesFrom 0 wave

def pulses (wave : List Bool) : List Nat := pulsesFrom 0 wave

theorem pulsesFrom_low (n a : Nat) (wave : List Bool) :
    pulsesFrom n (List.replicate a true ++ wave) = pulsesFrom (n + a) wave := by
  induction a generalizing n with
  | zero => rfl
  | succ a ih =>
    rw [List.replicate_succ, List.cons_append, pulsesFrom, ih, Nat.add_right_comm]
    rfl

theorem pulses_high (b : Nat) (wave : List Bool) : pulses (List.replicate b false ++ wave) = pulses wave := by
  induction b with
  | zero => rfl
  | succ b ih =>
    rw [List.replicate_succ, List.cons_append]
    exact ih

/-- **A slot** that starts low and ends high has one pulse, or none. -/
theorem pulses_slot (a : Nat) {b : Nat} (hb : b ≠ 0) (wave : List Bool) :
    pulses (List.replicate a true ++ (List.replicate b false ++ wave)) =
      (if a = 0 then [] else [a]) ++ pulses wave := by
  obtain ⟨b, rfl⟩ := Nat.exists_eq_succ_of_ne_zero hb
  have hrest := pulses_high b wave
  unfold pulses at hrest ⊢
  rw [pulsesFrom_low, Nat.zero_add, List.replicate_succ, List.cons_append, pulsesFrom, hrest]
  split_ifs <;> rfl

/-! ## The sensor -/

inductive Symbol where
  | reset
  | bit (b : Bool)
  | noise
deriving DecidableEq, Repr

/-- What a pulse of the master means. -/
def symbol (low : Nat) : Symbol :=
  if 480 ≤ low then .reset
  else if 60 ≤ low ∧ low ≤ 120 then .bit false
  else if 1 ≤ low ∧ low < 15 then .bit true
  else .noise

inductive Phase where
  | asleep
  /-- The bits so far of the command that selects a sensor. -/
  | rom (bits : List Bool)
  /-- The bits so far of the command for the selected sensor. -/
  | function (bits : List Bool)
  /-- It sends its memory. -/
  | talking (sent : Nat)
deriving DecidableEq, Repr

/-- The longest time that a measurement takes. -/
def measuringTime : Nat := 750000

/-- The memory of the sensor is a `φ`. `history` has the results of all measurements that were started. -/
structure Slave (φ : Type) where
  phase : Phase
  memory : φ
  /-- The result of the measurement that goes on, and the time until it is in the memory. -/
  pending : Option (φ × Nat)
  history : List φ

/-- The number that some bits are, the lowest one first. -/
def number (bits : List Bool) : Nat := bits.foldr (fun b n => b.toNat + 2 * n) 0

/-- The times that are up to the sensor and to the bus: how long the bus takes to rise, how long the sensor waits
    after a reset and how long its presence pulse is; and by the number of the slot, how long the bus takes to rise
    and how long the sensor holds it for a zero. -/
structure Conduct where
  rise : Nat
  wait : Nat
  presence : Nat
  lag : Nat → Nat
  hold : Nat → Nat
  rise_le : rise ≤ 60
  wait_ge : 15 ≤ wait
  wait_le : wait ≤ 60
  presence_ge : 60 ≤ presence
  presence_le : presence ≤ 240
  lag_le : ∀ slot, lag slot ≤ 9
  hold_ge : ∀ slot, 15 ≤ hold slot
  hold_le : ∀ slot, hold slot ≤ 60

namespace Slave

variable {φ : Type} (bits : φ → List Bool) (c : Conduct) (measured : φ)

/-- Hear a pulse of the master. A measurement that starts here finds `measured`. -/
def hear (s : Slave φ) (low : Nat) : Slave φ :=
  match symbol low with
  | .reset => { s with phase := .rom [] }
  | .noise => { s with phase := .asleep }
  | .bit b =>
    match s.phase with
    | .asleep       => s
    | .talking sent => { s with phase := .talking (sent + 1) }
    | .rom heard =>
      let command := heard ++ [b]
      if command.length < 8 then { s with phase := .rom command }
      else { s with phase := if number command = 0xCC then .function [] else .asleep }
    | .function heard =>
      let command := heard ++ [b]
      if command.length < 8 then { s with phase := .function command }
      else if number command = 0x44 then
        { s with phase := .asleep, pending := some (measured, measuringTime), history := s.history ++ [measured] }
      else { s with phase := if number command = 0xBE then .talking 0 else .asleep }

/-- The rising edges in a slot that the master starts with a pulse. -/
def edges (s : Slave φ) (slot low : Nat) : List Nat :=
  match symbol low with
  | .reset => [low + c.rise, low + c.rise + c.wait + c.presence]
  | .noise => [low + c.lag slot]
  | .bit _ =>
    match s.phase with
    | .talking sent => if (bits s.memory).getD sent true then [low + c.lag slot] else [max low (c.hold slot)]
    | _             => [low + c.lag slot]

/-- Hear some pulses, from slot number `slot` on. -/
def session (s : Slave φ) (slot : Nat) : List Nat → Slave φ × List Nat
  | []           => (s, [])
  | low :: lows =>
    let rest := session (s.hear measured low) (slot + 1) lows
    (rest.1, s.edges bits c slot low ++ rest.2)

/-- Time passes for the measurement that goes on. -/
def age (s : Slave φ) (time : Nat) : Slave φ :=
  { s with pending := s.pending.map fun p => (p.1, p.2 - time) }

/-- A measurement whose time is up goes to the memory. -/
def settle (s : Slave φ) : Slave φ :=
  match s.pending with
  | some (result, 0) => { s with memory := result, pending := none }
  | _                => s

/-- Some pulses within some time. A result that comes in this time is not there before its end. -/
def spend (s : Slave φ) (time : Nat) (lows : List Nat) : Slave φ × List Nat :=
  let (s, es) := (s.age time).session bits c measured 0 lows
  (s.settle, es)

/-! ## Sessions -/

theorem session_fst (s : Slave φ) (slot : Nat) (lows : List Nat) :
    (s.session bits c measured slot lows).1 = lows.foldl (fun s low => s.hear measured low) s := by
  induction lows generalizing s slot with
  | nil => rfl
  | cons low lows ih => exact ih (s.hear measured low) (slot + 1)

theorem age_idle {s : Slave φ} (h : s.pending = none) (time : Nat) : s.age time = s := by
  unfold age
  rw [h, Option.map_none, ← h]

theorem settle_idle {s : Slave φ} (h : s.pending = none) : s.settle = s := by
  unfold settle
  rw [h]

@[simp] theorem settle_phase (s : Slave φ) : s.settle.phase = s.phase := by
  unfold settle
  split <;> rfl

@[simp] theorem settle_history (s : Slave φ) : s.settle.history = s.history := by
  unfold settle
  split <;> rfl

/-- **A reset** is answered with a presence pulse, and the sensor waits for a command. -/
theorem spend_reset (s : Slave φ) (time : Nat) {low : Nat} (h : 480 ≤ low) :
    s.spend bits c measured time [low] =
      (settle { s.age time with phase := .rom [] }, [low + c.rise, low + c.rise + c.wait + c.presence]) := by
  have hsymbol : symbol low = .reset := if_pos h
  have hheard : (s.age time).hear measured low = { s.age time with phase := .rom [] } := by
    unfold hear
    rw [hsymbol]
  have hedges : (s.age time).edges bits c 0 low = [low + c.rise, low + c.rise + c.wait + c.presence] := by
    unfold edges
    rw [hsymbol]
  unfold spend session
  rw [hheard, hedges]
  rfl

/-- And if it is not measuring, nothing else happens. -/
theorem spend_reset_idle {s : Slave φ} (hidle : s.pending = none) (time : Nat) {low : Nat} (h : 480 ≤ low) :
    s.spend bits c measured time [low] =
      ({ s with phase := .rom [] }, [low + c.rise, low + c.rise + c.wait + c.presence]) := by
  have hsettle : ({ s with phase := .rom [] } : Slave φ).settle = { s with phase := .rom [] } := settle_idle hidle
  rw [spend_reset bits c measured s time h, age_idle hidle]
  exact congrArg (fun s => (s, _)) hsettle

theorem spend_snd (s : Slave φ) (time : Nat) (lows : List Nat) :
    (s.spend bits c measured time lows).2 = ((s.age time).session bits c measured 0 lows).2 := rfl

/-- Pulses that are heard in time. -/
theorem spend_fst (s : Slave φ) (time : Nat) (lows : List Nat) :
    (s.spend bits c measured time lows).1 = (lows.foldl (fun s low => s.hear measured low) (s.age time)).settle := by
  unfold spend
  rw [← session_fst bits c measured _ 0]

/-- **A measurement is over** when its time is, if no pulses disturb it. -/
theorem spend_measuring {s : Slave φ} {result : φ} {left : Nat} (h : s.pending = some (result, left)) {time : Nat}
    (htime : left ≤ time) :
    (s.spend bits c measured time []).1 = { s with memory := result, pending := none } := by
  have hage : (s.age time).pending = some (result, 0) := by
    unfold age
    rw [h, ← Nat.sub_eq_zero_of_le htime]
    rfl
  rw [spend_fst]
  show (s.age time).settle = _
  unfold settle
  rw [hage]
  rfl

/-- A slot of a sensor that sends is read off its edge. -/
theorem edges_talking {s : Slave φ} {sent : Nat} (h : s.phase = .talking sent) (slot : Nat) :
    ∃ e, s.edges bits c slot 1 = [e] ∧ e ≤ 60 ∧ ((bits s.memory).getD sent true = true ↔ e ≤ 10) := by
  have hlag := c.lag_le slot
  have hmin := c.hold_ge slot
  have hmax := c.hold_le slot
  have hedges : s.edges bits c slot 1 =
      if (bits s.memory).getD sent true then [1 + c.lag slot] else [max 1 (c.hold slot)] := by
    have hsymbol : symbol 1 = .bit true := rfl
    unfold edges
    rw [hsymbol, h]
  rw [hedges]
  cases (bits s.memory).getD sent true with
  | true => exact ⟨1 + c.lag slot, rfl, by omega, iff_of_true rfl (by omega)⟩
  | false => exact ⟨max 1 (c.hold slot), rfl, by omega, iff_of_false Bool.false_ne_true (by omega)⟩

/-- **What is read.** A sensor that sends answers short pulses with one edge each: an early one for a one, and a late
    one for a zero. -/
theorem session_read {s : Slave φ} {sent : Nat} (h : s.phase = .talking sent) (slot n : Nat) :
    (s.session bits c measured slot (List.replicate n 1)).1 = { s with phase := .talking (sent + n) } ∧
    (s.session bits c measured slot (List.replicate n 1)).2.length = n ∧
    ∀ k < n, ∃ e, (s.session bits c measured slot (List.replicate n 1)).2[k]? = some e ∧ e ≤ 60 ∧
      ((bits s.memory).getD (sent + k) true = true ↔ e ≤ 10) := by
  induction n generalizing s sent slot with
  | zero =>
    refine ⟨?_, rfl, fun k hk => absurd hk (Nat.not_lt_zero k)⟩
    rw [Nat.add_zero, ← h]
    rfl
  | succ n ih =>
    have hheard : s.hear measured 1 = { s with phase := .talking (sent + 1) } := by
      unfold hear
      rw [h]
      rfl
    obtain ⟨e, hedge, hlate, hbit⟩ := edges_talking bits c h slot
    obtain ⟨hstate, hlength, hlater⟩ := ih (s := { s with phase := .talking (sent + 1) }) rfl (slot + 1)
    rw [List.replicate_succ]
    unfold session
    rw [hheard, hedge]
    refine ⟨?_, ?_, ?_⟩
    · rw [hstate, Nat.add_assoc, Nat.add_comm 1 n]
    · rw [List.length_append, hlength]
      exact Nat.add_comm 1 n
    · intro k hk
      cases k with
      | zero => exact ⟨e, rfl, hlate, hbit⟩
      | succ k =>
        obtain ⟨e', hget, hlate', hbit'⟩ := hlater k (Nat.lt_of_succ_lt_succ hk)
        refine ⟨e', hget, hlate', ?_⟩
        rw [← hbit', Nat.add_assoc, Nat.add_comm 1 k]

end Slave
end OneWire
