import Thermostat.Services.ServicesInit

/-!
# `Services.Correctness.BootOutput` — the start-up messages under preemption

`services_init` writes the firmware information, waits in `flush`, and writes the greeting, with interrupts
enabled throughout. The buffer holds 64 bytes, so pieces of the information can be cut.

**`boots`**: whatever comes in between, `services_init` returns, the greeting has been accepted whole, and all
that was accepted before it has left the buffer; each earlier message has been accepted up to the point at which
it found the buffer full. Of the environment it is asked only that the transmitter and, where its interrupt is
enabled, the handler keep running.
-/

namespace Thermostat
namespace Console

variable {txBuffSize rxBuffSize : Nat}

/-- A step inside a call. -/
theorem advance_inside (c : Console txBuffSize rxBuffSize) (h : c.sender.phase ≠ .idle) :
    c.advance = { c with sender := c.sender.advance } := by
  unfold advance
  cases hphase : c.sender.phase with
  | idle => exact absurd hphase h
  | _ => rfl

/-! ## A console is a sender -/

/-- What a step asks of the sender. A turn of the waiting loop asks nothing. -/
def request (c : Console txBuffSize rxBuffSize) : Input → Sender.Input
  | .advance =>
      match c.sender.phase, c.rest with
      | .idle, .writeStr s :: _ => .call (Sender.textOf s)
      | _, _ => .advance
  | .irq         => .irq
  | .transmitted => .transmitted
  | .arrive byte => .arrive byte

/-- **Every step of the console is one of the sender.** -/
theorem step_sender (c : Console txBuffSize rxBuffSize) (i : Input) :
    (c.step i).1.sender = (c.sender.step (c.request i)).1 := by
  cases i with
  | irq => rfl
  | transmitted => rfl
  | arrive byte => rfl
  | advance =>
      have hidle : c.sender.phase = .idle → c.sender.advance = c.sender := by
        intro hphase
        unfold Sender.advance
        rw [hphase]
      show c.advance.sender = (c.sender.step (c.request .advance)).1
      unfold advance request
      cases hphase : c.sender.phase with
      | idle =>
          cases hrest : c.rest with
          | nil => exact (hidle hphase).symm
          | cons statement rest =>
              cases statement with
              | writeStr s => rfl
              | flush =>
                  simp only
                  split_ifs <;> exact (hidle hphase).symm
      | check text count => rfl
      | push text count byte => rfl
      | enable text count => rfl

theorem start_law (info : FwInfo) : Sender.Law [] (start info : Console txBuffSize rxBuffSize).sender :=
  Sender.start_law (u := UsartDriver.init) fun hitems => absurd rfl hitems

/-! ## The measure -/

end Console

/-- The steps that are left of the call in progress. -/
def Sender.Phase.left : Sender.Phase → Nat
  | .idle => 0
  | .check text count => 3 * (text.length - count) + 1
  | .push text count _ => 3 * (text.length - count)
  | .enable text count => 3 * (text.length - count) - 1

namespace Console

/-- The steps that a statement takes, apart from the waiting. -/
def Statement.cost : Statement → Nat
  | .writeStr s => 3 * (Sender.textOf s).length + 2
  | .flush => 1

def costs : List Statement → Nat
  | []      => 0
  | s :: ss => s.cost + costs ss

/-- Each step of the main program counts twice, so that the byte it may put into the buffer is paid for. -/
def left (c : Console txBuffSize rxBuffSize) : Nat :=
  2 * (c.sender.phase.left + costs c.rest) + c.sender.driver.txBuf.items.length

/-- The two consoles are at the same point, with as many bytes in the buffer. -/
structure SamePoint (c d : Console txBuffSize rxBuffSize) : Prop where
  phase : d.sender.phase = c.sender.phase
  rest : d.rest = c.rest
  length : d.sender.driver.txBuf.items.length = c.sender.driver.txBuf.items.length

variable {c d : Console txBuffSize rxBuffSize} {before : List UInt8}

theorem SamePoint.left (h : SamePoint c d) : d.left = c.left := by
  unfold Console.left
  rw [h.phase, h.rest, h.length]

theorem SamePoint.trans {e : Console txBuffSize rxBuffSize} (h : SamePoint c d) (k : SamePoint d e) :
    SamePoint c e :=
  ⟨k.phase.trans h.phase, k.rest.trans h.rest, k.length.trans h.length⟩

/-- The main program is in the loop of `flush`. -/
def Waiting (c : Console txBuffSize rxBuffSize) : Prop :=
  c.sender.phase = .idle ∧ (∃ rest, c.rest = .flush :: rest) ∧ c.sender.driver.txBuf.items ≠ []

/-- A step of a call brings it closer to its end, or to a fuller buffer. -/
theorem sender_advance_left {s : Sender txBuffSize rxBuffSize} (h : Sender.Law before s)
    (hphase : s.phase ≠ .idle) :
    2 * s.advance.phase.left + s.advance.driver.txBuf.items.length
      < 2 * s.phase.left + s.driver.txBuf.items.length := by
  have hcall := h.inCall
  unfold Sender.InCall at hcall
  unfold Sender.advance
  cases hp : s.phase with
  | idle => exact absurd hp hphase
  | check text count =>
      have hfinish : (s.finish text count).driver = s.driver ∧ (s.finish text count).phase = .idle := ⟨rfl, rfl⟩
      simp only
      cases text[count]? with
      | none =>
          simp only [hfinish, Sender.Phase.left]
          omega
      | some byte =>
          simp only
          split_ifs
          · simp only [hfinish, Sender.Phase.left]
            omega
          · simp only [Sender.Phase.left]
            omega
  | push text count byte =>
      rw [hp] at hcall
      obtain ⟨-, hbyte, hfull⟩ := hcall
      have hcount : count < text.length := (List.getElem?_eq_some_iff.mp hbyte).1
      have hpush := Fifo.push_items (Fifo.not_full_iff.mp hfull) byte
      simp only [Sender.Phase.left, hpush, List.length_append, List.length_singleton]
      omega
  | enable text count =>
      rw [hp] at hcall
      have hcount := hcall.2
      simp only [Sender.Phase.left]
      omega

/-- **A step of the main program gets on**, unless it is a turn of the waiting loop or there is nothing left. -/
theorem advance_left (h : Sender.Law before c.sender) :
    c.advance.left < c.left ∨ c.advance = c ∧ (c.Finished ∨ c.Waiting) := by
  by_cases hphase : c.sender.phase = .idle
  · unfold advance
    simp only [hphase]
    cases hrest : c.rest with
    | nil => exact Or.inr ⟨rfl, Or.inl ⟨hphase, hrest⟩⟩
    | cons statement rest =>
        cases statement with
        | writeStr s =>
            left
            have hcall : (c.sender.step (.call (Sender.textOf s))).1 =
                { c.sender with phase := .check (Sender.textOf s) 0 } := by
              unfold Sender.step
              simp only [hphase]
            simp only [Console.left, hcall, hphase, hrest, Sender.Phase.left, costs, Statement.cost]
            omega
        | flush =>
            simp only
            split_ifs with hempty
            · left
              simp only [Console.left, hphase, hrest, Sender.Phase.left, costs, Statement.cost]
              omega
            · right
              have hitems : c.sender.driver.txBuf.items ≠ [] := by simpa using hempty
              exact ⟨rfl, Or.inr ⟨hphase, ⟨rest, hrest⟩, hitems⟩⟩
  · left
    have hless := sender_advance_left h hphase
    rw [c.advance_inside hphase]
    unfold Console.left
    simp only
    omega

/-- What comes beside the main program can only empty the buffer. -/
theorem irq_left : (c.step .irq).1.left < c.left ∨ SamePoint c (c.step .irq).1 := by
  obtain ⟨-, hlength, -⟩ := c.sender.driver.handleIRQ_tx
  rcases Nat.lt_or_eq_of_le hlength with hless | hsame
  · left
    show 2 * (c.sender.phase.left + costs c.rest) + c.sender.driver.handleIRQ.txBuf.items.length < _
    unfold Console.left
    omega
  · exact Or.inr ⟨rfl, rfl, hsame⟩

theorem step_left (h : Sender.Law before c.sender) (i : Input) :
    (c.step i).1.left < c.left ∨ SamePoint c (c.step i).1 := by
  cases i with
  | advance =>
      rcases advance_left h with hless | ⟨hstay, -⟩
      · exact Or.inl hless
      · right
        show SamePoint c c.advance
        rw [hstay]
        exact ⟨rfl, rfl, rfl⟩
  | irq => exact irq_left
  | transmitted => exact Or.inr ⟨rfl, rfl, rfl⟩
  | arrive byte => exact Or.inr ⟨rfl, rfl, rfl⟩

theorem step_law (h : Sender.Law before c.sender) (i : Input) : Sender.Law before (c.step i).1.sender := by
  rw [step_sender]
  exact Sender.step_law h _

/-! ## Stretches -/

/-- The console after a list of inputs. -/
def after (c : Console txBuffSize rxBuffSize) (is : List Input) : Console txBuffSize rxBuffSize :=
  (Trace.run step c is).1

theorem after_append (c : Console txBuffSize rxBuffSize) (xs ys : List Input) :
    c.after (xs ++ ys) = (c.after xs).after ys := by
  unfold after
  rw [Trace.run_append]

theorem after_cons (c : Console txBuffSize rxBuffSize) (i : Input) (is : List Input) :
    c.after (i :: is) = (c.step i).1.after is := rfl

theorem after_law (h : Sender.Law before c.sender) (is : List Input) : Sender.Law before (c.after is).sender :=
  Trace.run_state_invariant (fun c : Console txBuffSize rxBuffSize => Sender.Law before c.sender)
    (fun _ i hc => step_law hc i) h is

theorem after_left (h : Sender.Law before c.sender) (is : List Input) :
    (c.after is).left < c.left ∨ SamePoint c (c.after is) := by
  induction is generalizing c with
  | nil => exact Or.inr ⟨rfl, rfl, rfl⟩
  | cons i is ih =>
      have hrest := ih (step_law h i)
      rw [after_cons]
      rcases step_left h i with hless | hsame
      · left
        rcases hrest with hrest | hrest
        · omega
        · rw [hrest.left]
          exact hless
      · rcases hrest with hrest | hrest
        · left
          rw [← hsame.left]
          exact hrest
        · exact Or.inr (hsame.trans hrest)

theorem after_le (h : Sender.Law before c.sender) (is : List Input) : (c.after is).left ≤ c.left := by
  rcases after_left h is with hless | hsame
  · exact Nat.le_of_lt hless
  · exact Nat.le_of_eq hsame.left

/-- With the register free and bytes in the buffer, the handler takes one. -/
theorem irq_takes (htxe : c.sender.driver.usart1.txe = true) (hitems : c.sender.driver.txBuf.items ≠ []) :
    (c.step .irq).1.left < c.left := by
  have htail : c.sender.driver.handleIRQ.txBuf.items = c.sender.driver.txBuf.items.tail := by
    unfold UsartDriver.handleIRQ
    rw [(UsartDriver.handleRx_tx _).1]
    exact UsartDriver.handleTxe_items htxe
  have hpos := List.length_pos_iff.mpr hitems
  show 2 * (c.sender.phase.left + costs c.rest) + c.sender.driver.handleIRQ.txBuf.items.length < _
  unfold Console.left
  rw [htail, List.length_tail]
  omega

/-- The main program does not touch the register. -/
theorem advance_txe (c : Console txBuffSize rxBuffSize) :
    c.advance.sender.driver.usart1.txe = c.sender.driver.usart1.txe := by
  by_cases hphase : c.sender.phase = .idle
  · unfold advance
    simp only [hphase]
    cases c.rest with
    | nil => rfl
    | cons statement rest =>
        cases statement with
        | writeStr s =>
            unfold Sender.step
            simp only [hphase]
        | flush =>
            simp only
            split_ifs <;> rfl
  · rw [c.advance_inside hphase]
    show c.sender.advance.driver.usart1.txe = _
    unfold Sender.advance
    cases c.sender.phase with
    | check text count =>
        simp only
        cases text[count]? with
        | none => rfl
        | some byte =>
            simp only
            split_ifs <;> rfl
    | _ => rfl

/-- The register stays free until the handler uses it. -/
theorem after_ready (h : Sender.Law before c.sender) (hitems : c.sender.driver.txBuf.items ≠ [])
    (htxe : c.sender.driver.usart1.txe = true) (is : List Input) :
    (c.after is).left < c.left ∨
      SamePoint c (c.after is) ∧ (c.after is).sender.driver.usart1.txe = true := by
  induction is generalizing c with
  | nil => exact Or.inr ⟨⟨rfl, rfl, rfl⟩, htxe⟩
  | cons i is ih =>
      have hlaw := step_law h i
      rw [after_cons]
      rcases step_left h i with hless | hsame
      · exact Or.inl (Nat.lt_of_le_of_lt (after_le hlaw is) hless)
      · have hstill : (c.step i).1.sender.driver.usart1.txe = true := by
          cases i with
          | advance => exact (advance_txe c).trans htxe
          | irq =>
              have htakes := irq_takes htxe hitems
              rw [hsame.left] at htakes
              exact absurd htakes (Nat.lt_irrefl _)
          | transmitted => rfl
          | arrive byte =>
              show (c.sender.driver.usart1.arrive byte).txe = true
              unfold Usart1.arrive
              split_ifs <;> exact htxe
        have hsome : (c.step i).1.sender.driver.txBuf.items ≠ [] := by
          rw [← List.length_pos_iff, hsame.length]
          exact List.length_pos_iff.mpr hitems
        rcases ih hlaw hsome hstill with hrest | ⟨hrest, hend⟩
        · left
          rw [← hsame.left]
          exact hrest
        · exact Or.inr ⟨hsame.trans hrest, hend⟩

/-! ## `services_init` returns -/

/-- The handler runs where its interrupt is enabled. -/
def handled (c : Console txBuffSize rxBuffSize) : List Input :=
  if c.sender.driver.usart1.txeie then [.irq] else []

/-- Somewhere in the block the transmitter takes its byte, later the handler runs if its interrupt is enabled,
    and later still the main program makes a step; anything else can happen between these. -/
def Fair (c : Console txBuffSize rxBuffSize) (block : List Input) : Prop :=
  ∃ a b d e, block = a ++ .transmitted :: b ++ (handled (c.after (a ++ .transmitted :: b)) ++ d) ++ .advance :: e

theorem finished_step (h : c.Finished) (i : Input) : (c.step i).1.Finished := by
  obtain ⟨hphase, hrest⟩ := h
  cases i with
  | advance =>
      have hstay : c.advance = c := by
        unfold advance
        simp only [hphase, hrest]
      show c.advance.Finished
      rw [hstay]
      exact ⟨hphase, hrest⟩
  | irq => exact ⟨hphase, hrest⟩
  | transmitted => exact ⟨hphase, hrest⟩
  | arrive byte => exact ⟨hphase, hrest⟩

theorem finished_after (h : c.Finished) (is : List Input) : (c.after is).Finished :=
  Trace.run_state_invariant Finished (fun _ i hc => finished_step hc i) h is

theorem SamePoint.waiting (h : SamePoint c d) : c.Waiting ↔ d.Waiting := by
  unfold Waiting
  rw [h.phase, h.rest, ← List.length_pos_iff, ← List.length_pos_iff, h.length]

/-- **A waiting console is woken up**: the bytes it waits for have their interrupt enabled. -/
theorem waiting_handled (h : Sender.Law before c.sender) (hc : c.Waiting) : handled c = [.irq] := by
  obtain ⟨hphase, -, hitems⟩ := hc
  have hawake := h.awake (Sender.not_enabling hphase (by simp)) hitems
  unfold handled
  rw [hawake, if_pos rfl]

/-- While the main program waits, the transmitter and the handler take a byte out of the buffer. -/
theorem waiting_left (h : Sender.Law before c.sender) (hc : c.Waiting) (b d : List Input) :
    (c.after (.transmitted :: b ++ (handled (c.after (.transmitted :: b)) ++ d))).left < c.left := by
  have hlaw := after_law h (.transmitted :: b)
  have hready : (c.after (.transmitted :: b)).left < c.left ∨ SamePoint c (c.after (.transmitted :: b)) ∧
      (c.after (.transmitted :: b)).sender.driver.usart1.txe = true := by
    have hfree : SamePoint c (c.step .transmitted).1 := ⟨rfl, rfl, rfl⟩
    rcases after_ready (step_law h .transmitted) hc.2.2 rfl b with hless | ⟨hsame, htxe⟩
    · exact Or.inl (hfree.left ▸ hless)
    · exact Or.inr ⟨hfree.trans hsame, htxe⟩
  rw [after_append]
  generalize c.after (.transmitted :: b) = k at hlaw hready ⊢
  rcases hready with hless | ⟨hsame, htxe⟩
  · exact Nat.lt_of_le_of_lt (after_le hlaw _) hless
  · have hwaits := hsame.waiting.mp hc
    rw [waiting_handled hlaw hwaits, ← hsame.left]
    exact Nat.lt_of_le_of_lt (after_le (step_law hlaw .irq) d) (irq_takes htxe hwaits.2.2)

/-- **A fair block gets on**, until there is nothing left. -/
theorem fair_left (h : Sender.Law before c.sender) {block : List Input} (hfair : Fair c block)
    (hrun : ¬ (c.after block).Finished) : (c.after block).left < c.left := by
  obtain ⟨a, b, d, e, rfl⟩ := hfair
  -- the console in front of the transmitter's step, and in front of the step of the main program
  have hlaw₁ := after_law h a
  have hle₁ := after_le h a
  rw [List.append_assoc a, List.append_assoc a, after_append c a, after_append c a, after_append] at hrun ⊢
  generalize c.after a = c₁ at hlaw₁ hle₁ hrun ⊢
  have hround := after_left hlaw₁ (.transmitted :: b ++ (handled (c₁.after (.transmitted :: b)) ++ d))
  have hwaiting := fun hc => waiting_left hlaw₁ hc b d
  have hlaw₅ := after_law hlaw₁ (.transmitted :: b ++ (handled (c₁.after (.transmitted :: b)) ++ d))
  generalize c₁.after (.transmitted :: b ++ (handled (c₁.after (.transmitted :: b)) ++ d)) = c₅
    at hround hwaiting hlaw₅ hrun ⊢
  rw [after_cons] at hrun ⊢
  have hend := after_le (step_law hlaw₅ .advance) e
  have hstep : (c₅.step .advance).1 = c₅.advance := rfl
  rw [hstep] at hend hrun ⊢
  rcases hround with hless | hsame
  · -- something has been done before the last step
    have hlast : c₅.advance.left ≤ c₅.left := after_le hlaw₅ [.advance]
    omega
  · have hpoint := hsame.left
    rcases advance_left hlaw₅ with hless | ⟨hstay, hfinished | hwaits⟩
    · omega
    · rw [hstay] at hrun
      exact absurd (finished_after hfinished e) hrun
    · -- it has waited throughout the block
      have hless := hwaiting (hsame.waiting.mpr hwaits)
      omega

/-! ## What is said -/

end Console

namespace Sender

variable {txBuffSize rxBuffSize : Nat}

/-- The text of the call in progress. -/
def Phase.text : Phase → Option (List UInt8)
  | .idle => none
  | .check text _ => some text
  | .push text _ _ => some text
  | .enable text _ => some text

/-- A step of a call goes on with it, or returns from it at the end of its text or at a full buffer. -/
theorem advance_cases {s : Sender txBuffSize rxBuffSize} {text : List UInt8} (htext : s.phase.text = some text) :
    s.advance.phase.text = some text ∧ s.advance.returned = s.returned ∨
      s.advance.phase = .idle ∧ ∃ count, s.phase = .check text count ∧
        s.advance.returned = s.returned ++ [⟨text, s.taken, count, s.driver.txBuf.full⟩] ∧
        (text[count]? = none ∨ s.driver.txBuf.full = true) := by
  unfold advance
  cases hphase : s.phase with
  | idle =>
      rw [hphase] at htext
      cases htext
  | check t count =>
      rw [hphase] at htext
      obtain rfl : t = text := Option.some.inj htext
      cases hbyte : t[count]? with
      | none =>
          right
          simp only [hbyte]
          exact ⟨rfl, count, rfl, rfl, Or.inl hbyte⟩
      | some byte =>
          simp only [hbyte]
          split_ifs with hfull
          · right
            exact ⟨rfl, count, rfl, rfl, Or.inr hfull⟩
          · left
            exact ⟨rfl, rfl⟩
  | push t count byte =>
      rw [hphase] at htext
      exact Or.inl ⟨htext, rfl⟩
  | enable t count =>
      rw [hphase] at htext
      exact Or.inl ⟨htext, rfl⟩

theorem advance_sent (s : Sender txBuffSize rxBuffSize) :
    s.advance.driver.usart1.sent = s.driver.usart1.sent := by
  unfold advance
  cases s.phase with
  | check text count =>
      simp only
      cases text[count]? with
      | none => rfl
      | some byte =>
          simp only
          split_ifs <;> rfl
  | _ => rfl

/-- What has been sent stays sent. -/
theorem irq_sent (u : UsartDriver txBuffSize rxBuffSize) : u.usart1.sent <+: u.handleIRQ.usart1.sent := by
  obtain ⟨hstream, hlength, -⟩ := u.handleIRQ_tx
  have hparts := congrArg List.length hstream
  rw [List.length_append, List.length_append] at hparts
  have hold : u.usart1.sent <+: u.handleIRQ.usart1.sent ++ u.handleIRQ.txBuf.items :=
    hstream ▸ List.prefix_append _ _
  exact List.prefix_of_prefix_length_le hold (List.prefix_append _ _) (by omega)

end Sender

namespace Console

variable {txBuffSize rxBuffSize : Nat} {c : Console txBuffSize rxBuffSize}

/-- The texts of the firmware information. -/
def infoTexts (info : FwInfo) : List (List UInt8) := (printFwInfo info).map Sender.textOf

/-- What the calls that have returned have put into the buffer. -/
def accepted (c : Console txBuffSize rxBuffSize) : List UInt8 :=
  (c.sender.returned.map Sender.Returned.accepted).flatten

/-- The texts of the calls that have returned. -/
def told (c : Console txBuffSize rxBuffSize) : List (List UInt8) := c.sender.returned.map Sender.Returned.text

/-- Where `services_init` stands. -/
inductive Stage (info : FwInfo) (c : Console txBuffSize rxBuffSize) : Prop where
  | informing (todo : List (List Char))
      (rest : c.rest = todo.map .writeStr ++ [.flush, .writeStr readyMessage])
      (told : c.told ++ c.sender.phase.text.toList ++ todo.map Sender.textOf = infoTexts info)
  | flushed (rest : c.rest = [.writeStr readyMessage]) (phase : c.sender.phase = .idle)
      (told : c.told = infoTexts info) (sent : c.accepted <+: c.sender.driver.usart1.sent)
  | greeting (rest : c.rest = []) (phase : c.sender.phase.text = some (Sender.textOf readyMessage))
      (told : c.told = infoTexts info) (sent : c.accepted <+: c.sender.driver.usart1.sent)
  | finished (rest : c.rest = []) (phase : c.sender.phase = .idle) (rs : List Sender.Returned)
      (r : Sender.Returned) (returned : c.sender.returned = rs ++ [r])
      (told : rs.map Sender.Returned.text = infoTexts info) (whole : r.accepted = Sender.textOf readyMessage)
      (sent : (rs.map Sender.Returned.accepted).flatten <+: c.sender.driver.usart1.sent)

/-- What comes beside the main program does not change where it stands. -/
theorem Stage.beside {info : FwInfo} (h : Stage info c) {d : Console txBuffSize rxBuffSize} (hrest : d.rest = c.rest)
    (hphase : d.sender.phase = c.sender.phase) (hreturned : d.sender.returned = c.sender.returned)
    (hsent : c.sender.driver.usart1.sent <+: d.sender.driver.usart1.sent) : Stage info d := by
  have htold : d.told = c.told := congrArg (List.map Sender.Returned.text) hreturned
  have haccepted : d.accepted = c.accepted :=
    congrArg (fun rs => (rs.map Sender.Returned.accepted).flatten) hreturned
  cases h with
  | informing todo rest told => exact .informing todo (hrest.trans rest) (by rw [htold, hphase]; exact told)
  | flushed rest phase told sent =>
      exact .flushed (hrest.trans rest) (hphase.trans phase) (htold.trans told)
        (haccepted ▸ sent.trans hsent)
  | greeting rest phase told sent =>
      exact .greeting (hrest.trans rest) (by rw [hphase]; exact phase) (htold.trans told)
        (haccepted ▸ sent.trans hsent)
  | finished rest phase rs r returned told whole sent =>
      exact .finished (hrest.trans rest) (hphase.trans phase) rs r (hreturned.trans returned) told whole
        (sent.trans hsent)

theorem idle_iff_text {p : Sender.Phase} : p = .idle ↔ p.text = none := by
  cases p <;> simp [Sender.Phase.text]

theorem idle_taken {before : List UInt8} (h : Sender.Law before c.sender) (hidle : c.sender.phase = .idle) :
    c.sender.taken = [] := by
  have hcall := h.inCall
  unfold Sender.InCall at hcall
  rw [hidle] at hcall
  exact hcall

/-- What is not sent yet, once all earlier texts are, belongs to the call in progress. -/
theorem buffered_le (h : Sender.Law [] c.sender) (hsent : c.accepted <+: c.sender.driver.usart1.sent) :
    c.sender.driver.txBuf.items.length ≤ c.sender.taken.length := by
  have hfifo := congrArg List.length h.fifo
  have hle := hsent.length_le
  unfold Sender.stream at hfifo
  unfold accepted at hle
  rw [List.nil_append, List.length_append, List.length_append] at hfifo
  omega

/-- **A step of the main program takes it from stage to stage.** The greeting meets an empty buffer. -/
theorem Stage.advance {info : FwInfo} {c : Console 64 32} (hlaw : Sender.Law [] c.sender) (h : Stage info c) :
    Stage info c.advance := by
  cases h with
  | informing todo rest told =>
      cases htext : c.sender.phase.text with
      | some text =>
          have hinside := c.advance_inside (fun hidle => by rw [idle_iff_text.mp hidle] at htext; cases htext)
          rw [htext] at told
          rw [hinside]
          rcases Sender.advance_cases htext with ⟨hgoes, hsame⟩ | ⟨hidle, count, -, hreturned, -⟩
          · refine .informing todo rest ?_
            show c.sender.advance.returned.map _ ++ c.sender.advance.phase.text.toList ++ _ = _
            rw [hgoes, hsame]
            exact told
          · refine .informing todo rest ?_
            show c.sender.advance.returned.map _ ++ c.sender.advance.phase.text.toList ++ _ = _
            rw [hidle, hreturned, List.map_append]
            exact (congrArg (· ++ todo.map Sender.textOf) (List.append_nil _)).trans told
      | none =>
          have hidle := idle_iff_text.mpr htext
          rw [htext] at told
          cases todo with
          | cons s todo =>
              have hstep : c.advance =
                  ⟨{ c.sender with phase := .check (Sender.textOf s) 0 },
                    todo.map .writeStr ++ [.flush, .writeStr readyMessage]⟩ := by
                unfold Console.advance Sender.step
                simp only [hidle, rest, List.map_cons, List.cons_append]
              rw [hstep]
              refine .informing todo rfl ?_
              rw [← told]
              simp [Console.told, Sender.Phase.text]
          | nil =>
              have htold : c.told = infoTexts info := by simpa using told
              by_cases hempty : c.sender.driver.txBuf.items = []
              · have hstep : c.advance = { c with rest := [.writeStr readyMessage] } := by
                  unfold Console.advance
                  simp [hidle, rest, hempty]
                rw [hstep]
                refine .flushed rfl hidle htold ?_
                -- nothing is left in the buffer: what was accepted has been sent
                have hfifo := hlaw.fifo
                unfold Sender.stream at hfifo
                rw [hempty, idle_taken hlaw hidle, List.append_nil, List.append_nil, List.nil_append] at hfifo
                exact hfifo ▸ List.prefix_refl _
              · have hstep : c.advance = c := by
                  unfold Console.advance
                  simp [hidle, rest, hempty]
                rw [hstep]
                exact .informing [] rest (by rw [htext]; exact told)
  | flushed rest phase told sent =>
      have hstep : c.advance = ⟨{ c.sender with phase := .check (Sender.textOf readyMessage) 0 }, []⟩ := by
        unfold Console.advance Sender.step
        simp only [phase, rest]
      rw [hstep]
      exact .greeting rfl rfl told sent
  | greeting rest phase told sent =>
      have hinside := c.advance_inside (fun hidle => by rw [idle_iff_text.mp hidle] at phase; cases phase)
      have hsent := Sender.advance_sent c.sender
      rw [hinside]
      rcases Sender.advance_cases phase with ⟨hgoes, hsame⟩ | ⟨hidle, count, hcheck, hreturned, hstop⟩
      · refine .greeting rest hgoes ?_ ?_
        · show c.sender.advance.returned.map _ = _
          rw [hsame]
          exact told
        · show (c.sender.advance.returned.map _).flatten <+: c.sender.advance.driver.usart1.sent
          rw [hsame, hsent]
          exact sent
      · have hcall := hlaw.inCall
        unfold Sender.InCall at hcall
        rw [hcheck] at hcall
        obtain ⟨htaken, hcount⟩ := hcall
        have hlength : (Sender.textOf readyMessage).length = 15 := by decide
        have hfull : ¬ c.sender.driver.txBuf.full = true := by
          have hle := buffered_le hlaw sent
          rw [htaken, List.length_take] at hle
          rw [Fifo.full_iff]
          omega
        have hend : (Sender.textOf readyMessage).length ≤ count :=
          List.getElem?_eq_none_iff.mp (hstop.resolve_right hfull)
        refine .finished rest hidle c.sender.returned _ hreturned told ?_ ?_
        · show c.sender.taken = _
          rw [htaken, List.take_of_length_le hend]
        · show _ <+: c.sender.advance.driver.usart1.sent
          rw [hsent]
          exact sent
  | finished rest phase rs r returned told whole sent =>
      have hstep : c.advance = c := by
        unfold Console.advance
        simp only [phase, rest]
      rw [hstep]
      exact .finished rest phase rs r returned told whole sent

theorem Stage.step {info : FwInfo} {c : Console 64 32} (hlaw : Sender.Law [] c.sender) (h : Stage info c)
    (i : Input) : Stage info (c.step i).1 := by
  cases i with
  | advance => exact h.advance hlaw
  | irq => exact h.beside rfl rfl rfl (Sender.irq_sent c.sender.driver)
  | transmitted => exact h.beside rfl rfl rfl (List.prefix_refl _)
  | arrive byte =>
      refine h.beside rfl rfl rfl ?_
      show c.sender.driver.usart1.sent <+: (c.sender.driver.usart1.arrive byte).sent
      unfold Usart1.arrive
      split_ifs <;> exact List.prefix_refl _

theorem start_stage (info : FwInfo) : Stage info (start info : Console 64 32) :=
  .informing (printFwInfo info) rfl rfl

theorem after_stage (info : FwInfo) (is : List Input) : Stage info ((start info : Console 64 32).after is) := by
  have hstep : ∀ (c : Console 64 32) i, Sender.Law [] c.sender ∧ Stage info c →
      Sender.Law [] (c.step i).1.sender ∧ Stage info (c.step i).1 :=
    fun c i h => ⟨step_law h.1 i, h.2.step h.1 i⟩
  exact (Trace.run_state_invariant _ hstep ⟨start_law info, start_stage info⟩ is).2

/-! ## The whole boot -/

theorem textOf_length (s : List Char) : (Sender.textOf s).length ≤ s.length := by
  unfold Sender.textOf
  rw [List.length_map]
  exact (List.takeWhile_prefix _).length_le

theorem cost_le (s : List Char) : (Statement.writeStr s).cost ≤ 3 * s.length + 2 := by
  have hlength := textOf_length s
  show 3 * (Sender.textOf s).length + 2 ≤ 3 * s.length + 2
  omega

/-- The texts of `fw_info` are short enough for a bound that does not depend on them. -/
theorem start_left (info : FwInfo) : (start info : Console 64 32).left < 800 := by
  have htag := cost_le info.tag
  have hcommit := cost_le info.commit
  have htagFits := info.tagFits
  have hcommitFits := info.commitFits
  have hleft : (start info : Console 64 32).left = 2 * costs (servicesInit info) := by
    show 2 * (0 + costs (servicesInit info)) + 0 = _
    omega
  rw [hleft]
  unfold servicesInit printFwInfo
  split_ifs
  · decide
  · simp only [List.map_cons, List.map_nil, List.cons_append, List.nil_append, costs]
    have hrest : (Statement.writeStr "=== Firmware Info ===\r\n".toList).cost
        + (Statement.writeStr "Tag: ".toList).cost + (Statement.writeStr "\r\n".toList).cost
        + (Statement.writeStr "Commit: ".toList).cost + (Statement.writeStr "\r\n".toList).cost
        + (Statement.writeStr "=====================\r\n".toList).cost + Statement.flush.cost
        + (Statement.writeStr readyMessage).cost = 249 := by decide
    omega

/-- **`services_init` says what it has to say.** Whatever has happened so far and whatever else happens, 800 fair
    blocks bring it to its end; by then the greeting has been accepted whole, behind what has been accepted
    of the firmware information, a beginning of each of its texts, which has been sent. -/
theorem boots (info : FwInfo) (pre : List Input) {blocks : List (List Input)}
    (hfair : Trace.Along (Trace.run step) Fair ((start info : Console 64 32).after pre) blocks)
    (hmany : 800 ≤ blocks.length) :
    ((start info : Console 64 32).after (pre ++ blocks.flatten)).Finished ∧
      ∃ pieces, List.Forall₂ (fun piece text => piece <+: text) pieces (infoTexts info) ∧
        ((start info : Console 64 32).after (pre ++ blocks.flatten)).sender.stream
          = pieces.flatten ++ Sender.textOf readyMessage ∧
        pieces.flatten <+:
          ((start info : Console 64 32).after (pre ++ blocks.flatten)).sender.driver.usart1.sent := by
  have hlaw := after_law (start_law info) (pre ++ blocks.flatten) (c := (start info : Console 64 32))
  have hstage := after_stage info (pre ++ blocks.flatten)
  have hfinished : ((start info : Console 64 32).after (pre ++ blocks.flatten)).Finished := by
    rw [after_append]
    refine Trace.run_progress (fun c : Console 64 32 => Sender.Law [] c.sender) Finished left
      (fun c i h => step_law h i) (fun c i _ h => finished_step h i) (fun c b h hfair hrun => fair_left h hfair hrun)
      (after_law (start_law info) pre) hfair ?_
    have hless := Nat.lt_of_le_of_lt (after_le (start_law info) pre) (start_left info)
    omega
  refine ⟨hfinished, ?_⟩
  generalize (start info : Console 64 32).after (pre ++ blocks.flatten) = c at hlaw hstage hfinished ⊢
  obtain ⟨hidle, hnothing⟩ := hfinished
  cases hstage with
  | informing todo rest told =>
      rw [rest] at hnothing
      simp at hnothing
  | flushed rest phase told sent =>
      rw [rest] at hnothing
      cases hnothing
  | greeting rest phase told sent =>
      rw [hidle] at phase
      cases phase
  | finished rest phase rs r returned told whole sent =>
      refine ⟨rs.map Sender.Returned.accepted, ?_, ?_, sent⟩
      · rw [← told, List.forall₂_map_left_iff, List.forall₂_map_right_iff, List.forall₂_same]
        intro d hd
        exact (hlaw.results d (returned ▸ List.mem_append_left _ hd)).accepted
      · rw [hlaw.fifo, idle_taken hlaw phase, returned]
        simp [whole]

/-- The transmitter, the handler and the main program take turns. -/
def turn : List Input := [.transmitted, .irq, .advance]

theorem turn_fair {txBuffSize rxBuffSize : Nat} (c : Console txBuffSize rxBuffSize) : Fair c turn := by
  cases henabled : (c.after [.transmitted]).sender.driver.usart1.txeie with
  | true =>
      refine ⟨[], [], [], [], ?_⟩
      rw [List.nil_append, handled, henabled, if_pos rfl]
      rfl
  | false =>
      refine ⟨[], [], [.irq], [], ?_⟩
      rw [List.nil_append, handled, henabled, if_neg Bool.false_ne_true]
      rfl

theorem turns_fair {txBuffSize rxBuffSize : Nat} (n : Nat) (c : Console txBuffSize rxBuffSize) :
    Trace.Along (Trace.run step) Fair c (List.replicate n turn) := by
  induction n generalizing c with
  | zero => exact trivial
  | succ n ih => exact ⟨turn_fair c, ih _⟩

/-- A firmware without a tag in its repository. -/
def untagged : FwInfo := ⟨0xDEADBEEF, "unknown".toList, "0000000".toList, by decide, by decide⟩

theorem boots_untagged :
    ((start untagged : Console 64 32).after ([] ++ (List.replicate 800 turn).flatten)).Finished :=
  (boots untagged [] (turns_fair 800 _) (by rw [List.length_replicate])).1

end Console
end Thermostat
