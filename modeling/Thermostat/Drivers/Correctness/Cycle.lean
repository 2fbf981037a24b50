import Thermostat.Drivers.DS18B20
import Thermostat.Lib.Trace

/-!
# `Drivers.Correctness.Cycle` — the measurement cycle of the sensor

`poll_eq` says once what a poll does in each state; it is the only place where the table is scanned.
From it, over every run of the driver and its hardware:

- the actions executed are complete measurement cycles and the beginning of one more;
- a poll that consumes the update flag executes one action, or `idle` and `start`, and starts the timer
  once, so the timer is always running or its flag pending;
- every complete cycle makes one report.

The report of `decode` is the exception: `decode_temperature` divides by zero for some DS18S20 frames that
pass the CRC, and the cut to 16 bits turns others into the code of the generic error. `cycleLaw_of_clean`
excludes those frames, `cycleLaw_fails` shows one.
-/

namespace Thermostat
namespace DS18B20

/-! ## What a poll does -/

/-- The driver once `poll` has consumed the update flag. -/
def cleared (d : DS18B20) : DS18B20 := { d with tim := { d.tim with uif := false } }

/-- Execute an action and move on. -/
def fire (a : Action) (next : FsmStates) (d : DS18B20) : DS18B20 × List Effect :=
  ({ (a.perform d).1 with current := next }, .action a :: (a.perform d).2)

theorem poll_quiet {d : DS18B20} (h : d.tim.uif = false) : d.poll = (d, []) := by
  simp [poll, h]

@[simp] theorem fire_current (a : Action) (next : FsmStates) (d : DS18B20) :
    (fire a next d).1.current = next := rfl

theorem take_eq (t : Transition) (d : DS18B20) : t.take d = fire t.action t.next d := rfl

/-- The first loop, by the state it starts in. Behind the row for `IDLE` it finds the one for `START`. -/
theorem scan_eq (d : DS18B20) :
    scan d transitions =
      match d.current with
      | .idle =>
          ⟨(fire .start .convert (fire .idle .start d).1).1,
            (fire .idle .start d).2 ++ (fire .start .convert (fire .idle .start d).1).2, true, true⟩
      | .start     => ⟨(fire .start .convert d).1, (fire .start .convert d).2, true, false⟩
      | .convert   =>
          if d.checkPresence then ⟨(fire .convertOk .wait d).1, (fire .convertOk .wait d).2, true, false⟩
          else ⟨(fire .convertFail .idle d).1, (fire .convertFail .idle d).2, true, false⟩
      | .wait      => ⟨(fire .wait .continue_ d).1, (fire .wait .continue_ d).2, true, false⟩
      | .continue_ => ⟨(fire .continue_ .request d).1, (fire .continue_ .request d).2, true, false⟩
      | .request   =>
          if d.checkPresence then ⟨(fire .requestOk .read d).1, (fire .requestOk .read d).2, true, false⟩
          else ⟨(fire .requestFail .idle d).1, (fire .requestFail .idle d).2, true, false⟩
      | .read      => ⟨(fire .read .decode d).1, (fire .read .decode d).2, true, false⟩
      | .decode    => ⟨(fire .decode .idle d).1, (fire .decode .idle d).2, true, false⟩
      | .error     => ⟨d, [], false, false⟩ := by
  cases hc : d.current with
  | convert =>
      cases hp : d.checkPresence <;>
        simp [scan, transitions, Transition.applies, take_eq, Guard.holds, hc, hp]
  | request =>
      cases hp : d.checkPresence <;>
        simp [scan, transitions, Transition.applies, take_eq, Guard.holds, hc, hp]
  | _ => simp [scan, transitions, Transition.applies, take_eq, hc]

/-- What `poll` does after its first loop. -/
def settle (s : Scan) : DS18B20 × List Effect :=
  let (d, es) :=
    if s.needFallthrough ∧ s.driver.current = .start then
      ((fallThrough s.driver transitions).1, s.effects ++ (fallThrough s.driver transitions).2)
    else (s.driver, s.effects)
  if s.transitionFound then (d, es) else ({ d with current := .idle }, es ++ [.tempReady tempErrorGeneric])

theorem poll_scan {d : DS18B20} (h : d.tim.uif = true) : d.poll = settle (scan d.cleared transitions) := by
  unfold poll
  rw [if_pos h]
  rfl

/-- **A poll in each state.** Only in `IDLE` are two rows taken; the second loop never runs. -/
theorem poll_eq {d : DS18B20} (h : d.tim.uif = true) :
    d.poll =
      match d.current with
      | .idle =>
          ((fire .start .convert (fire .idle .start d.cleared).1).1,
            (fire .idle .start d.cleared).2 ++ (fire .start .convert (fire .idle .start d.cleared).1).2)
      | .start     => fire .start .convert d.cleared
      | .convert   =>
          if d.checkPresence then fire .convertOk .wait d.cleared else fire .convertFail .idle d.cleared
      | .wait      => fire .wait .continue_ d.cleared
      | .continue_ => fire .continue_ .request d.cleared
      | .request   =>
          if d.checkPresence then fire .requestOk .read d.cleared else fire .requestFail .idle d.cleared
      | .read      => fire .read .decode d.cleared
      | .decode    => fire .decode .idle d.cleared
      | .error     => ({ d.cleared with current := .idle }, [.tempReady tempErrorGeneric]) := by
  have hscan := scan_eq d.cleared
  have hcurrent : d.cleared.current = d.current := rfl
  have hpresence : d.cleared.checkPresence = d.checkPresence := rfl
  rw [hcurrent, hpresence] at hscan
  rw [poll_scan h, hscan]
  cases d.current with
  | convert => cases d.checkPresence <;> rfl
  | request => cases d.checkPresence <;> rfl
  | _ => rfl

/-! ## What the effects say -/

/-- The actions executed, in order. -/
def actions (es : List Effect) : List Action :=
  es.filterMap (fun e => match e with | .action a => some a | _ => none)

/-- The temperatures and codes reported, in order. -/
def reports (es : List Effect) : List Int :=
  es.filterMap (fun e => match e with | .tempReady t => some t | _ => none)

@[simp] theorem actions_append (xs ys : List Effect) : actions (xs ++ ys) = actions xs ++ actions ys :=
  List.filterMap_append

@[simp] theorem reports_append (xs ys : List Effect) : reports (xs ++ ys) = reports xs ++ reports ys :=
  List.filterMap_append

/-- The effects of an action: `idle` has none, the others start the timer, three report first. -/
theorem perform_effects (a : Action) (d : DS18B20) :
    (a.perform d).2 =
      match a with
      | .idle => []
      | .convertFail | .requestFail => [.tempReady tempErrorNoSensor, .startTimer]
      | .decode =>
          [decodeReport (detectSensorType (decodeScratchpad d.mem)) (decodeScratchpad d.mem), .startTimer]
      | _ => [.startTimer] := by
  cases a with
  | decode => simp only [Action.perform, actionDecode, ledControl, startCyclePause, startTimer]
  | _ => rfl

/-- Every action but `idle` leaves the one-pulse timer running. -/
theorem fire_running {a : Action} (ha : a ≠ .idle) (next : FsmStates) (d : DS18B20) :
    (fire a next d).1.running = true := by
  have hcr1 : (fire a next d).1.tim.cr1 = cr1Opm ||| cr1Cen := by
    cases a with
    | idle => exact absurd rfl ha
    | _ => rfl
  unfold running
  rw [hcr1]
  decide

/-- The action ends a cycle. -/
def Action.Ends (a : Action) : Prop := a = .convertFail ∨ a = .requestFail ∨ a = .decode

/-- An action that does not end the cycle reports nothing. -/
theorem fire_silent {a : Action} (ha : ¬ a.Ends) (next : FsmStates) (d : DS18B20) :
    actions (fire a next d).2 = [a] ∧ reports (fire a next d).2 = [] ∧
    Effect.divideByZero ∉ (fire a next d).2 := by
  unfold fire
  rw [perform_effects]
  cases a with
  | convertFail => exact absurd (Or.inl rfl) ha
  | requestFail => exact absurd (Or.inr (Or.inl rfl)) ha
  | decode => exact absurd (Or.inr (Or.inr rfl)) ha
  | _ => exact ⟨rfl, rfl, by simp⟩

/-! ## The report of a cycle -/

/-- The CRC of the frame matches, it is one of a DS18S20, and its temperature is undefined (no count per
    degree) or cut to the code of the generic error. -/
def BadFrame (s : Bytes 72) : Prop :=
  s.rd 8 = checkScratchpadCrc s ∧ s.rd 4 = 0xFF ∧
  (s.rd 7 = 0 ∨
    (rawTemperature s / 2 * 10 - 2 +
      (((s.rd 7).toNat - (s.rd 6).toNat : Int) * 10).tdiv (s.rd 7).toNat + 32768) % 65536 = 0)

instance (s : Bytes 72) : Decidable (BadFrame s) :=
  inferInstanceAs (Decidable (_ ∧ _ ∧ (_ ∨ _)))

theorem rawTemperature_range (s : Bytes 72) : -32768 ≤ rawTemperature s ∧ rawTemperature s ≤ 32767 := by
  unfold rawTemperature Word.int16
  omega

theorem int16_ne_generic {x : Int} (h : ¬ (x + 32768) % 65536 = 0) : Word.int16 x ≠ tempErrorGeneric := by
  unfold Word.int16 tempErrorGeneric
  omega

/-- The temperature of a DS18S20 frame with a count per degree. -/
theorem decodeTemperature_s20 {s : Bytes 72} (hcount : s.rd 7 ≠ 0) :
    decodeTemperature 0x10 s = some (Word.int16 (rawTemperature s / 2 * 10 - 2 +
      (((s.rd 7).toNat - (s.rd 6).toNat : Int) * 10).tdiv (s.rd 7).toNat)) := by
  have hcount' : ((s.rd 7).toNat : Int) ≠ 0 := by
    intro hzero
    apply hcount
    apply UInt8.toNat_inj.mp
    exact_mod_cast hzero
  simp only [decodeTemperature, if_true, if_neg hcount']

/-- A frame that is not bad is reported, and not as the generic error. -/
theorem decodeReport_clean {s : Bytes 72} (h : ¬ BadFrame s) :
    ∃ t, decodeReport (detectSensorType s) s = .tempReady t ∧ t ≠ tempErrorGeneric := by
  unfold decodeReport
  by_cases hcrc : s.rd 8 = checkScratchpadCrc s
  · rw [if_pos hcrc]
    by_cases hfamily : s.rd 4 = 0xFF
    · have hcount : s.rd 7 ≠ 0 := fun hzero => h ⟨hcrc, hfamily, Or.inl hzero⟩
      rw [detectSensorType, if_pos hfamily, decodeTemperature_s20 hcount]
      exact ⟨_, rfl, int16_ne_generic (fun hmod => h ⟨hcrc, hfamily, Or.inr hmod⟩)⟩
    · obtain ⟨hlo, hhi⟩ := rawTemperature_range s
      refine ⟨Word.int16 (rawTemperature s * 10 / 16), ?_, ?_⟩
      · simp [detectSensorType, hfamily, decodeTemperature]
      · rw [Word.int16_eq_self (by omega) (by omega), tempErrorGeneric]
        omega
  · rw [if_neg hcrc]
    exact ⟨_, rfl, by decide⟩

/-- The last action of a cycle makes one report, and not of the generic error. -/
theorem fire_ends {a : Action} (ha : a.Ends) (next : FsmStates) (d : DS18B20)
    (hclean : a = .decode → ¬ BadFrame (decodeScratchpad d.mem)) :
    actions (fire a next d).2 = [a] ∧
    (∃ t, reports (fire a next d).2 = [t] ∧ t ≠ tempErrorGeneric) ∧
    Effect.divideByZero ∉ (fire a next d).2 := by
  unfold fire
  rw [perform_effects]
  rcases ha with rfl | rfl | rfl
  · exact ⟨rfl, ⟨tempErrorNoSensor, rfl, by decide⟩, by simp⟩
  · exact ⟨rfl, ⟨tempErrorNoSensor, rfl, by decide⟩, by simp⟩
  · obtain ⟨t, hreport, ht⟩ := decodeReport_clean (hclean rfl)
    rw [hreport]
    exact ⟨rfl, ⟨t, rfl, ht⟩, by simp⟩

/-! ## Cycles -/

/-- The complete cycles: no sensor at the first reset, none at the second, and a reading. -/
def cycleWords : List (List Action) := [
  [.idle, .start, .convertFail],
  [.idle, .start, .convertOk, .wait, .continue_, .requestFail],
  [.idle, .start, .convertOk, .wait, .continue_, .requestOk, .read, .decode]]

/-- The part of the current cycle that lies behind a state. -/
def partOf : FsmStates → List Action
  | .idle      => []
  | .start     => [.idle]
  | .convert   => [.idle, .start]
  | .wait      => [.idle, .start, .convertOk]
  | .continue_ => [.idle, .start, .convertOk, .wait]
  | .request   => [.idle, .start, .convertOk, .wait, .continue_]
  | .read      => [.idle, .start, .convertOk, .wait, .continue_, .requestOk]
  | .decode    => [.idle, .start, .convertOk, .wait, .continue_, .requestOk, .read]
  | .error     => []

/-- The part is the proper beginning of a complete cycle. -/
theorem partOf_prefix (st : FsmStates) :
    ∃ word ∈ cycleWords, partOf st <+: word ∧ partOf st ≠ word := by
  refine ⟨[.idle, .start, .convertOk, .wait, .continue_, .requestOk, .read, .decode], ?_, ?_, ?_⟩
  · simp [cycleWords]
  · cases st <;> decide
  · cases st <;> decide

/-- An action that lengthens the part, but not to the first one, is neither the first nor the last of a
    cycle. -/
theorem inside_of_part {st next : FsmStates} {a : Action} (h : partOf next = partOf st ++ [a])
    (hnext : next ≠ .start) : a ≠ .idle ∧ ¬ a.Ends := by
  have hlast : (partOf next).getLast? = some a := by rw [h, List.getLast?_concat]
  cases next with
  | start => exact absurd rfl hnext
  | _ => simp [partOf] at hlast <;> subst hlast <;> simp [Action.Ends]

/-- An action that completes the part ends the cycle. -/
theorem ends_of_word {st : FsmStates} {a : Action} (h : partOf st ++ [a] ∈ cycleWords) :
    a ≠ .idle ∧ a.Ends := by
  have hlast : ∀ word ∈ cycleWords, word.getLast? = some a → a ≠ .idle ∧ a.Ends := by
    simp only [cycleWords, List.forall_mem_cons, List.not_mem_nil, List.getLast?_cons_cons,
      List.getLast?_singleton, Option.some.injEq, Action.Ends]
    refine ⟨?_, ?_, ?_, by simp⟩ <;> rintro rfl <;> simp
  exact hlast _ h List.getLast?_concat

/-- The law for one state, given the effects so far: complete cycles and the proper beginning of another;
    one report for each complete cycle; a timer that is running or has its flag pending; no error. -/
structure CycleOk (d : DS18B20) (es : List Effect) : Prop where
  cycles : ∃ (cs : List (List Action)) (part word : List Action), (∀ c ∈ cs, c ∈ cycleWords) ∧
    word ∈ cycleWords ∧ part <+: word ∧ part ≠ word ∧ actions es = cs.flatten ++ part ∧
    (reports es).length = cs.length
  live : d.running = true ∨ d.tim.uif = true
  noError : d.current ≠ .error
  noGeneric : tempErrorGeneric ∉ reports es
  defined : Effect.divideByZero ∉ es

/-- The law for the next poll: nothing without the update flag; with it one action, or `idle` and `start`
    from `IDLE`, and one start of the timer. -/
structure PollOk (d : DS18B20) : Prop where
  quiet : d.tim.uif = false → d.poll = (d, [])
  action : d.tim.uif = true →
    if d.current = .idle then actions d.poll.2 = [.idle, .start] else ∃ a, actions d.poll.2 = [a]
  timer : d.tim.uif = true → d.poll.2.count .startTimer = 1

/-- Both laws, after every prefix of a run. -/
def CycleLaw (is : List Input) : Prop :=
  ∀ pre post, is = pre ++ post →
    CycleOk (Trace.run step init pre).1 (Trace.run step init pre).2 ∧ PollOk (Trace.run step init pre).1

/-- A poll in `DECODE` does not find a bad frame. -/
def Clean (d : DS18B20) : Input → Prop
  | .poll => d.tim.uif = true → d.current = .decode → ¬ BadFrame (decodeScratchpad d.mem)
  | _ => True

instance (d : DS18B20) : ∀ i, Decidable (Clean d i)
  | .poll      => inferInstanceAs (Decidable (_ → _ → ¬ _))
  | .capture _ => isTrue trivial
  | .expire    => isTrue trivial

/-! ## The invariant -/

/-- What the state says about the effects so far. -/
structure OnCycle (d : DS18B20) (es : List Effect) : Prop where
  trace : ∃ cs : List (List Action), (∀ c ∈ cs, c ∈ cycleWords) ∧ actions es = cs.flatten ++ partOf d.current ∧
    (reports es).length = cs.length
  live : d.running = true ∨ d.tim.uif = true
  between : d.current ≠ .start ∧ d.current ≠ .error
  noGeneric : tempErrorGeneric ∉ reports es
  defined : Effect.divideByZero ∉ es

theorem OnCycle.ok {d : DS18B20} {es : List Effect} (h : OnCycle d es) : CycleOk d es := by
  obtain ⟨cs, hcs, hactions, hreports⟩ := h.trace
  obtain ⟨word, hword, hprefix, hproper⟩ := partOf_prefix d.current
  exact ⟨⟨cs, partOf d.current, word, hcs, hword, hprefix, hproper, hactions, hreports⟩, h.live,
    h.between.2, h.noGeneric, h.defined⟩

/-- An action inside a cycle lengthens its part. -/
theorem OnCycle.proceed {d d' : DS18B20} {es es' : List Effect} (h : OnCycle d es)
    (hpart : partOf d'.current = partOf d.current ++ actions es')
    (hbetween : d'.current ≠ .start ∧ d'.current ≠ .error) (hlive : d'.running = true)
    (hreports : reports es' = []) (hdefined : Effect.divideByZero ∉ es') : OnCycle d' (es ++ es') := by
  obtain ⟨cs, hcs, hactions, hcount⟩ := h.trace
  refine ⟨⟨cs, hcs, ?_, ?_⟩, Or.inl hlive, hbetween, ?_, ?_⟩
  · rw [actions_append, hactions, hpart, List.append_assoc]
  · rw [reports_append, hreports, List.append_nil, hcount]
  · rw [reports_append, hreports, List.append_nil]
    exact h.noGeneric
  · rw [List.mem_append]
    rintro (hold | hnew)
    · exact h.defined hold
    · exact hdefined hnew

/-- The last action of a cycle closes it with one report. -/
theorem OnCycle.close {d d' : DS18B20} {es es' : List Effect} (h : OnCycle d es)
    (hword : partOf d.current ++ actions es' ∈ cycleWords) (hidle : d'.current = .idle)
    (hlive : d'.running = true) {t : Int} (hreports : reports es' = [t]) (ht : t ≠ tempErrorGeneric)
    (hdefined : Effect.divideByZero ∉ es') : OnCycle d' (es ++ es') := by
  obtain ⟨cs, hcs, hactions, hcount⟩ := h.trace
  refine ⟨⟨cs ++ [partOf d.current ++ actions es'], ?_, ?_, ?_⟩, Or.inl hlive, ?_, ?_, ?_⟩
  · intro c hc
    rcases List.mem_append.mp hc with hold | hnew
    · exact hcs c hold
    · rw [List.mem_singleton.mp hnew]
      exact hword
  · rw [actions_append, hactions, hidle]
    simp [partOf]
  · rw [reports_append, hreports, List.length_append, List.length_append, hcount]
    rfl
  · rw [hidle]
    exact ⟨by decide, by decide⟩
  · rw [reports_append, hreports, List.mem_append]
    rintro (hold | hnew)
    · exact h.noGeneric hold
    · exact ht (List.mem_singleton.mp hnew).symm
  · rw [List.mem_append]
    rintro (hold | hnew)
    · exact h.defined hold
    · exact hdefined hnew

/-! ## One step -/

/-- Inside the cycle: the next action of the word. -/
theorem OnCycle.fire_inside {d : DS18B20} {es : List Effect} (h : OnCycle d es) {a : Action}
    {next : FsmStates} (hpoll : d.poll = fire a next d.cleared)
    (hpart : partOf next = partOf d.current ++ [a]) (hbetween : next ≠ .start ∧ next ≠ .error) :
    OnCycle d.poll.1 (es ++ d.poll.2) := by
  obtain ⟨hidle, hends⟩ := inside_of_part hpart hbetween.1
  obtain ⟨hacts, hreps, hdefined⟩ := fire_silent hends next d.cleared
  rw [hpoll]
  exact h.proceed (by rw [hacts]; exact hpart) hbetween (fire_running hidle next _) hreps hdefined

/-- At its end: the last action, and back to `IDLE`. -/
theorem OnCycle.fire_last {d : DS18B20} {es : List Effect} (h : OnCycle d es) {a : Action}
    (hpoll : d.poll = fire a .idle d.cleared)
    (hclean : a = .decode → ¬ BadFrame (decodeScratchpad d.mem))
    (hword : partOf d.current ++ [a] ∈ cycleWords) : OnCycle d.poll.1 (es ++ d.poll.2) := by
  obtain ⟨hidle, hends⟩ := ends_of_word hword
  obtain ⟨hacts, ⟨t, hreps, ht⟩, hdefined⟩ := fire_ends hends .idle d.cleared hclean
  rw [hpoll]
  exact h.close (by rw [hacts]; exact hword) rfl (fire_running hidle .idle _) hreps ht hdefined

/-- At its beginning: `IDLE` and `START` are fired in one poll. -/
theorem OnCycle.fire_first {d : DS18B20} {es : List Effect} (h : OnCycle d es) (hc : d.current = .idle)
    (hpoll : d.poll = ((fire .start .convert (fire .idle .start d.cleared).1).1,
      (fire .idle .start d.cleared).2 ++ (fire .start .convert (fire .idle .start d.cleared).1).2)) :
    OnCycle d.poll.1 (es ++ d.poll.2) := by
  obtain ⟨hacts, hreps, hdefined⟩ := fire_silent (a := .start) (by simp [Action.Ends]) .convert
    (fire .idle .start d.cleared).1
  obtain ⟨hacts₀, hreps₀, hdefined₀⟩ := fire_silent (a := .idle) (by simp [Action.Ends]) .start d.cleared
  rw [hpoll]
  refine h.proceed ?_ ⟨by simp, by simp⟩ (fire_running (by decide) .convert _) ?_ ?_
  · rw [actions_append, hacts, hacts₀, hc]
    rfl
  · rw [reports_append, hreps, hreps₀]
    rfl
  · rw [List.mem_append]
    rintro (hold | hnew)
    · exact hdefined₀ hold
    · exact hdefined hnew

theorem onCycle_poll {d : DS18B20} {es : List Effect} (h : OnCycle d es) (huif : d.tim.uif = true)
    (hclean : d.current = .decode → ¬ BadFrame (decodeScratchpad d.mem)) :
    OnCycle d.poll.1 (es ++ d.poll.2) := by
  have hpoll := poll_eq huif
  cases hc : d.current with
  | idle =>
      rw [hc] at hpoll
      exact h.fire_first hc hpoll
  | start => exact absurd hc h.between.1
  | error => exact absurd hc h.between.2
  | convert =>
      rw [hc] at hpoll
      cases hp : d.checkPresence with
      | true =>
          rw [hp] at hpoll
          exact h.fire_inside hpoll (by rw [hc]; rfl) (by decide)
      | false =>
          rw [hp] at hpoll
          exact h.fire_last hpoll (by simp) (by rw [hc]; decide)
  | wait =>
      rw [hc] at hpoll
      exact h.fire_inside hpoll (by rw [hc]; rfl) (by decide)
  | continue_ =>
      rw [hc] at hpoll
      exact h.fire_inside hpoll (by rw [hc]; rfl) (by decide)
  | request =>
      rw [hc] at hpoll
      cases hp : d.checkPresence with
      | true =>
          rw [hp] at hpoll
          exact h.fire_inside hpoll (by rw [hc]; rfl) (by decide)
      | false =>
          rw [hp] at hpoll
          exact h.fire_last hpoll (by simp) (by rw [hc]; decide)
  | read =>
      rw [hc] at hpoll
      exact h.fire_inside hpoll (by rw [hc]; rfl) (by decide)
  | decode =>
      rw [hc] at hpoll
      exact h.fire_last hpoll (fun _ => hclean hc) (by rw [hc]; decide)

/-- The hardware between two polls: captures leave the cycle alone, the end of the timer sets its flag. -/
theorem onCycle_capture {d : DS18B20} {es : List Effect} (h : OnCycle d es) (v : UInt16) :
    OnCycle (d.capture v) es := by
  unfold capture
  split_ifs <;> exact ⟨h.trace, h.live, h.between, h.noGeneric, h.defined⟩

theorem onCycle_expire {d : DS18B20} {es : List Effect} (h : OnCycle d es) : OnCycle d.expire es := by
  unfold expire
  split_ifs
  · exact ⟨h.trace, Or.inr rfl, h.between, h.noGeneric, h.defined⟩
  · exact h

theorem onCycle_step {d : DS18B20} {es : List Effect} (i : Input) (h : OnCycle d es) (hclean : Clean d i) :
    OnCycle (step d i).1 (es ++ (step d i).2) := by
  cases i with
  | capture v =>
      show OnCycle (d.capture v) (es ++ [])
      rw [List.append_nil]
      exact onCycle_capture h v
  | expire =>
      show OnCycle d.expire (es ++ [])
      rw [List.append_nil]
      exact onCycle_expire h
  | poll =>
      show OnCycle d.poll.1 (es ++ d.poll.2)
      cases huif : d.tim.uif with
      | true => exact onCycle_poll h huif (hclean huif)
      | false =>
          rw [poll_quiet huif, List.append_nil]
          exact h

/-! ## The law of the next poll -/

/-- Whatever `decode` finds, its report is no action and no start of the timer. -/
theorem decodeReport_cases (family : UInt8) (s : Bytes 72) :
    (∃ t, decodeReport family s = .tempReady t) ∨ decodeReport family s = .divideByZero := by
  unfold decodeReport
  split_ifs
  · cases decodeTemperature family s with
    | none => exact Or.inr rfl
    | some t => exact Or.inl ⟨t, rfl⟩
  · exact Or.inl ⟨_, rfl⟩

theorem fire_decode (next : FsmStates) (d : DS18B20) :
    (∃ t, (fire .decode next d).2 = [.action .decode, .tempReady t, .startTimer]) ∨
    (fire .decode next d).2 = [.action .decode, .divideByZero, .startTimer] := by
  unfold fire
  rw [perform_effects]
  rcases decodeReport_cases (detectSensorType (decodeScratchpad d.mem)) (decodeScratchpad d.mem)
    with ⟨t, ht⟩ | hzero
  · exact Or.inl ⟨t, by rw [ht]⟩
  · exact Or.inr (by rw [hzero])

theorem fire_actions (a : Action) (next : FsmStates) (d : DS18B20) :
    actions (fire a next d).2 = [a] := by
  cases a with
  | decode => rcases fire_decode next d with ⟨t, ht⟩ | hzero <;> simp [actions, *]
  | _ => rfl

/-- Every action but `idle` starts the timer once. -/
theorem fire_starts {a : Action} (ha : a ≠ .idle) (next : FsmStates) (d : DS18B20) :
    (fire a next d).2.count .startTimer = 1 := by
  cases a with
  | idle => exact absurd rfl ha
  | decode => rcases fire_decode next d with ⟨t, ht⟩ | hzero <;> simp [*]
  | _ => rfl

/-- An action reports at most once. -/
theorem fire_reports (a : Action) (next : FsmStates) (d : DS18B20) :
    (reports (fire a next d).2).length ≤ 1 := by
  cases a with
  | decode => rcases fire_decode next d with ⟨t, ht⟩ | hzero <;> simp [reports, *]
  | convertFail => exact Nat.le_refl 1
  | requestFail => exact Nat.le_refl 1
  | _ => exact Nat.zero_le 1

/-- **A poll reports at most once.** -/
theorem poll_reports (d : DS18B20) : (reports d.poll.2).length ≤ 1 := by
  cases huif : d.tim.uif with
  | false =>
      rw [poll_quiet huif]
      exact Nat.zero_le 1
  | true =>
      rw [poll_eq huif]
      cases d.current with
      | idle =>
          have hidle := (fire_silent (a := .idle) (by simp [Action.Ends]) .start d.cleared).2.1
          show (reports (_ ++ _)).length ≤ 1
          rw [reports_append, hidle, List.nil_append]
          exact fire_reports _ _ _
      | convert => cases d.checkPresence <;> exact fire_reports _ _ _
      | request => cases d.checkPresence <;> exact fire_reports _ _ _
      | error => exact Nat.le_refl 1
      | _ => exact fire_reports _ _ _

/-- A poll that fires one action. -/
theorem pollOk_single {d : DS18B20} {a : Action} {next : FsmStates} (hpoll : d.poll = fire a next d.cleared)
    (ha : a ≠ .idle) (hidle : d.current ≠ .idle) : PollOk d := by
  refine ⟨poll_quiet, ?_, ?_⟩
  · intro _
    rw [if_neg hidle, hpoll]
    exact ⟨a, fire_actions a next _⟩
  · intro _
    rw [hpoll]
    exact fire_starts ha next _

/-- The law of the next poll needs only that the state is one between two polls. -/
theorem pollOk_of_between {d : DS18B20} (h : d.current ≠ .start ∧ d.current ≠ .error) : PollOk d := by
  cases huif : d.tim.uif with
  | false => exact ⟨poll_quiet, by simp [huif], by simp [huif]⟩
  | true =>
      have hpoll := poll_eq huif
      cases hc : d.current with
      | idle =>
          rw [hc] at hpoll
          refine ⟨poll_quiet, ?_, ?_⟩
          · intro _
            rw [if_pos hc, hpoll, actions_append, fire_actions, fire_actions]
            rfl
          · intro _
            rw [hpoll, List.count_append, fire_starts (a := .start) (by decide)]
            rfl
      | start => exact absurd hc h.1
      | error => exact absurd hc h.2
      | convert =>
          rw [hc] at hpoll
          cases hp : d.checkPresence <;> rw [hp] at hpoll <;>
            exact pollOk_single hpoll (by decide) (by simp [hc])
      | request =>
          rw [hc] at hpoll
          cases hp : d.checkPresence <;> rw [hp] at hpoll <;>
            exact pollOk_single hpoll (by decide) (by simp [hc])
      | _ =>
          rw [hc] at hpoll
          exact pollOk_single hpoll (by decide) (by simp [hc])

/-! ## Whole runs -/

theorem onCycle_init : OnCycle init [] := by
  refine ⟨⟨[], ?_, rfl, rfl⟩, Or.inr rfl, ⟨by decide, by decide⟩, by simp [reports], by simp⟩
  intro c hc
  cases hc

/-- **The measurement cycle**, in every run whose frames are not bad. -/
theorem cycleLaw_of_clean {is : List Input} (hclean : Trace.Along step Clean init is) : CycleLaw is := by
  rintro pre post rfl
  have hpre := (Trace.along_append.mp hclean).1
  have hinv := Trace.run_invariant_along Clean OnCycle (fun d es i h hc => onCycle_step i h hc)
    onCycle_init hpre
  rw [List.nil_append] at hinv
  exact ⟨hinv.ok, pollOk_of_between hinv.between⟩

/-- A cycle up to `READ`: the sensor answers both resets. -/
def untilRead : List Input :=
  [.poll, .capture 500, .capture 600, .expire, .poll, .expire, .poll, .expire,
    .poll, .capture 500, .capture 600, .expire, .poll, .expire, .poll]

/-- The sensor sends these bytes, and the driver decodes them. -/
def readFrame (bytes : List UInt8) : List Input :=
  (bytes.flatMap byteToPulses).map (fun p => .capture p.toUInt16) ++ [.expire, .poll]

/-- The power-on reading of a DS18B20, 85 °C. -/
def powerOnFrame : List UInt8 := [0x50, 0x05, 0x4B, 0x46, 0x7F, 0xFF, 0x0C, 0x10, 0x1C]

theorem cycleLaw_powerOn : CycleLaw (untilRead ++ readFrame powerOnFrame) :=
  cycleLaw_of_clean (by decide +kernel)

/-- The raw temperature `0x1998` of a DS18S20 with `COUNT_PER_C = 16`: 3276.8 degrees, whose tenths are cut
    to the code of the generic error. The last byte is the CRC. -/
def hotFrame : List UInt8 := [0x98, 0x19, 0x00, 0x00, 0xFF, 0x00, 0x00, 0x10, 0xAD]

theorem cycleLaw_fails : ¬ CycleLaw (untilRead ++ readFrame hotFrame) := by
  intro hlaw
  have hgeneric : tempErrorGeneric ∈ reports (Trace.run step init (untilRead ++ readFrame hotFrame)).2 := by
    decide +kernel
  exact (hlaw _ [] (List.append_nil _).symm).1.noGeneric hgeneric

end DS18B20
end Thermostat
