import Thermostat.Drivers.TimDriver
import Thermostat.Lib.Trace

/-!
# `Drivers.Correctness.PwmArithmetic` — the registers of the PWM output

`setFrequency` divides the timer clock twice and cuts both results to 16 bits, and `setPower` scales the
reload value that it finds. `Bounded` is what the registers keep under both.

**`pwm_safe`**: in every run of the two, from `Init` on, no result is cut, no divisor and no minuend is zero,
the compare value stays within the period, and a tone's period is right up to one step of the prescaler.
-/

namespace Thermostat
namespace PwmDriver

/-- The calls of the two setters. -/
inductive Call where
  | setPower (value : Int)
  | setFrequency (frequency : Nat)
deriving DecidableEq, Repr

def call (d : PwmDriver) : Call → PwmDriver × List Unit
  | .setPower value         => (d.setPower value, [])
  | .setFrequency frequency => (d.setFrequency frequency, [])

/-- A frequency is at most that of the timer clock. -/
def Call.InRange : Call → Prop
  | .setPower _             => True
  | .setFrequency frequency => frequency ≤ 48000000

/-! ## The divisions of `setFrequency` -/

/-- The timer clocks of a period. -/
def period (frequency : Nat) : Nat := 48000000 / frequency

/-- The prescaler and the reload value, before the cuts to 16 bits. -/
def prescaler (frequency : Nat) : Nat := period frequency / 65535 + 1
def reload (frequency : Nat) : Nat := period frequency / prescaler frequency

/-- The cuts lose nothing, the prescaler can be divided by, and `1` can be taken from both. -/
structure Exact (frequency : Nat) : Prop where
  prescaler : 0 < prescaler frequency ∧ prescaler frequency < 65536
  reload : 0 < reload frequency ∧ reload frequency < 65536

/-- The period of a frequency up to the clock is at least one tick. -/
theorem period_range {frequency : Nat} (hpos : 0 < frequency) (hmax : frequency ≤ 48000000) :
    1 ≤ period frequency ∧ period frequency ≤ 48000000 :=
  ⟨(Nat.one_le_div_iff hpos).mpr hmax, Nat.div_le_self _ _⟩

/-- Up to the frequency of the clock, the registers hold what the driver computes. -/
theorem exact_of_range {frequency : Nat} (hpos : 0 < frequency) (hmax : frequency ≤ 48000000) :
    Exact frequency := by
  obtain ⟨hlow, hhigh⟩ := period_range hpos hmax
  have hprescaler : 0 < prescaler frequency ∧ prescaler frequency < 65536 := by
    unfold prescaler
    omega
  refine ⟨hprescaler, ?_, ?_⟩
  · -- the prescaler is not larger than the period
    apply Nat.div_pos _ hprescaler.1
    unfold prescaler
    omega
  · -- and larger than the 65535th part of it
    unfold reload
    rw [Nat.div_lt_iff_lt_mul hprescaler.1]
    unfold prescaler
    omega

/-- Without the cuts. -/
theorem setFrequency_eq {frequency : Nat} (hpos : 0 < frequency) (h : Exact frequency) (d : PwmDriver) :
    d.setFrequency frequency =
      { d with
        psc := prescaler frequency - 1
        arr := reload frequency - 1
        ccr1 := reload frequency / 2 } := by
  obtain ⟨⟨hpsc, hpsc16⟩, harr, harr16⟩ := h
  have hcut : (48000000 / frequency / 65535 + 1) % 65536 = prescaler frequency := Nat.mod_eq_of_lt hpsc16
  have hcut' : 48000000 / frequency / prescaler frequency % 65536 = reload frequency := Nat.mod_eq_of_lt harr16
  have hless : ∀ n, 0 < n → n < 65536 → (n + 65535) % 65536 = n - 1 := by omega
  unfold setFrequency
  simp only [if_neg (Nat.ne_of_gt hpos), hcut, hcut', hless _ hpsc hpsc16, hless _ harr harr16]

/-! ## The registers -/

/-- What the registers keep: channel 1, a reload value of 16 bits, and a compare value within it. -/
structure Bounded (d : PwmDriver) : Prop where
  channel : d.channel = 1
  arr : d.arr < 65536
  ccr1 : d.ccr1 ≤ d.arr

/-- The power is clamped, so its share of the period is at most the period. -/
theorem setPower_bounded {d : PwmDriver} (h : Bounded d) (value : Int) : Bounded (d.setPower value) := by
  obtain ⟨hchannel, harr, hccr⟩ := h
  unfold setPower
  simp only
  rw [if_pos hchannel]
  refine ⟨hchannel, harr, ?_⟩
  generalize hclamp : (if (if value < 0 then 0 else value) > 1000 then 1000 else
    (if value < 0 then 0 else value)).toNat = power
  have hpower : power ≤ 1000 := by
    split_ifs at hclamp <;> omega
  have hscaled : d.arr * power ≤ d.arr * 1000 := Nat.mul_le_mul_left d.arr hpower
  show d.arr * power / 1000 ≤ d.arr
  omega

/-- A new frequency sets the compare value to half of the new period. -/
theorem setFrequency_bounded {d : PwmDriver} (h : Bounded d) {frequency : Nat} (hmax : frequency ≤ 48000000) :
    Bounded (d.setFrequency frequency) := by
  obtain ⟨hchannel, harr, hccr⟩ := h
  rcases Nat.eq_zero_or_pos frequency with rfl | hpos
  · exact ⟨hchannel, harr, Nat.zero_le _⟩
  · have hexact := exact_of_range hpos hmax
    obtain ⟨hlow, hhigh⟩ := hexact.reload
    rw [setFrequency_eq hpos hexact]
    refine ⟨hchannel, ?_, ?_⟩
    · show reload frequency - 1 < 65536
      omega
    · show reload frequency / 2 ≤ reload frequency - 1
      omega

/-- Every call keeps the compare value within the period. -/
theorem call_bounded {d : PwmDriver} (h : Bounded d) {c : Call} (hc : c.InRange) : Bounded (d.call c).1 := by
  cases c with
  | setPower value => exact setPower_bounded h value
  | setFrequency frequency => exact setFrequency_bounded h hc

theorem init_bounded (prescaler autoReload : UInt16) :
    Bounded (init 1 prescaler.toNat autoReload.toNat) :=
  ⟨rfl, autoReload.toNat_lt, Nat.zero_le _⟩

/-! ## The law -/

/-- The timer clocks of a period that the registers make. -/
def generated (d : PwmDriver) : Nat := (d.psc + 1) * (d.arr + 1)

/-- What a call does in a state: the product of `setPower` fits its 32 bits; a tone loses nothing to the cuts
    and has a period that is at most the one asked for, and less than one prescaler step shorter. -/
def Ok (d : PwmDriver) : Call → Prop
  | .setPower _ => d.arr * 1000 < 4294967296
  | .setFrequency frequency => 0 < frequency →
      Exact frequency ∧ (d.setFrequency frequency).generated ≤ period frequency ∧
        period frequency < (d.setFrequency frequency).generated + (period frequency / 65535 + 1)

/-- **The period that is generated** is the one asked for, up to one step of the prescaler. -/
theorem setFrequency_accurate {frequency : Nat} (hpos : 0 < frequency) (h : Exact frequency) (d : PwmDriver) :
    (d.setFrequency frequency).generated ≤ period frequency ∧
      period frequency < (d.setFrequency frequency).generated + prescaler frequency := by
  obtain ⟨hpsc, -⟩ := h.prescaler
  obtain ⟨hreload, -⟩ := h.reload
  have hgenerated : (d.setFrequency frequency).generated = prescaler frequency * reload frequency := by
    rw [setFrequency_eq hpos h]
    unfold generated
    rw [Nat.sub_add_cancel hpsc, Nat.sub_add_cancel hreload]
  have hdivision := Nat.div_add_mod (period frequency) (prescaler frequency)
  have hrest := Nat.mod_lt (period frequency) hpsc
  rw [hgenerated]
  unfold reload
  omega

/-- What one call does, from the bound on the state before it. -/
theorem ok_of_bounded {d : PwmDriver} (h : Bounded d) {c : Call} (hc : c.InRange) : Ok d c := by
  cases c with
  | setPower value =>
      have harr := h.arr
      show d.arr * 1000 < 4294967296
      omega
  | setFrequency frequency =>
      intro hpos
      have hexact := exact_of_range hpos hc
      exact ⟨hexact, setFrequency_accurate hpos hexact d⟩

/-- Every call of a run is right, and the bound holds after it. -/
theorem run_ok {calls : List Call} (hcalls : ∀ c ∈ calls, c.InRange) {d : PwmDriver} (h : Bounded d) :
    Trace.Along call Ok d calls ∧ Bounded (Trace.run call d calls).1 := by
  induction calls generalizing d with
  | nil => exact ⟨trivial, h⟩
  | cons c calls ih =>
      have hc := hcalls c List.mem_cons_self
      obtain ⟨halong, hbounded⟩ := ih (fun c' hc' => hcalls c' (List.mem_cons_of_mem c hc')) (call_bounded h hc)
      exact ⟨⟨ok_of_bounded h hc, halong⟩, hbounded⟩

/-- **PWM arithmetic is safe and accurate**, in every run of the two setters after `Init` on channel 1 of a
    fresh timer. -/
theorem pwm_safe (prescaler autoReload : UInt16) {calls : List Call} (hcalls : ∀ c ∈ calls, c.InRange) :
    Trace.Along call Ok (init 1 prescaler.toNat autoReload.toNat) calls ∧
      ∀ pre post, calls = pre ++ post →
        (Trace.run call (init 1 prescaler.toNat autoReload.toNat) pre).1.ccr1
          ≤ (Trace.run call (init 1 prescaler.toNat autoReload.toNat) pre).1.arr := by
  have hinit := init_bounded prescaler autoReload
  refine ⟨(run_ok hcalls hinit).1, ?_⟩
  rintro pre post rfl
  exact (run_ok (fun c hc => hcalls c (List.mem_append_left post hc)) hinit).2.ccr1

/-- The calls of a beep. -/
theorem pwm_safe_beep :
    Trace.Along call Ok (init 1 47 499) [.setFrequency 3000, .setPower 500, .setFrequency 0] ∧
      ∀ pre post, [.setFrequency 3000, .setPower 500, .setFrequency 0] = pre ++ post →
        (Trace.run call (init 1 47 499) pre).1.ccr1 ≤ (Trace.run call (init 1 47 499) pre).1.arr := by
  have hcalls : ∀ c ∈ [Call.setFrequency 3000, .setPower 500, .setFrequency 0], c.InRange := by
    intro c hc
    simp only [List.mem_cons, List.not_mem_nil, or_false] at hc
    rcases hc with rfl | rfl | rfl
    · exact Nat.le_of_ble_eq_true rfl
    · exact trivial
    · exact Nat.zero_le _
  exact pwm_safe 47 499 hcalls

end PwmDriver
end Thermostat
