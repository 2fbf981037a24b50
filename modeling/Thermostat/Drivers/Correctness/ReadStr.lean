import Thermostat.Drivers.UsartDriver
import Thermostat.Lib.Cut
import Thermostat.Lib.Trace

/-!
# `Drivers.Correctness.ReadStr` — strings from the serial port

The two overloads of `read_str` bound and count in different ways. Each of them takes the piece that `Cut.cut`
takes off the receive buffer (`readEtlStrLoop_eq`, `readStrLoop_eq`).

**`readStr_lossless`**: so they agree, they deliver this piece and nothing else, and repeated calls deliver
everything that was received.
-/

namespace Thermostat

namespace UsartDriver

open Cut (cut IsCut cut_cons cut_nil cut_zero cut_isCut cut_append_drop cut_ne_nil)

variable {txBuffSize rxBuffSize : Nat}

/-- The driver without the `k` oldest bytes received. -/
def consume (u : UsartDriver txBuffSize rxBuffSize) (k : Nat) : UsartDriver txBuffSize rxBuffSize :=
  { u with rxBuf := u.rxBuf.drop k }

theorem consume_pop (u : UsartDriver txBuffSize rxBuffSize) (k : Nat) :
    consume { u with rxBuf := u.rxBuf.pop } k = u.consume (k + 1) := by
  unfold consume
  simp only [Fifo.drop_pop]

/-! ## The loops

One turn of each, and what it does as a whole. -/

section Loops

variable {n size : Nat} (u : UsartDriver txBuffSize rxBuffSize) (t : UInt8)

theorem readEtlStrLoop_nil (str : EtlString n) (count : Nat) (hitems : u.rxBuf.items = []) :
    u.readEtlStrLoop str t count = (u, str, count) := by
  rw [readEtlStrLoop]
  split
  · rfl
  · rename_i byte hfront
    rw [Fifo.front_none.mpr hitems] at hfront
    cases hfront

theorem readEtlStrLoop_cons (str : EtlString n) (count : Nat) {byte : UInt8} {rest : List UInt8}
    (hitems : u.rxBuf.items = byte :: rest) : u.readEtlStrLoop str t count =
      if str.items.length < n - 1 then
        if byte = t then ({ u with rxBuf := u.rxBuf.pop }, str.pushBack byte, count + 1)
        else readEtlStrLoop { u with rxBuf := u.rxBuf.pop } (str.pushBack byte) t (count + 1)
      else (u, str, count) := by
  rw [readEtlStrLoop]
  split
  · rename_i hfront
    rw [Fifo.front_none, hitems] at hfront
    cases hfront
  · rename_i front hfront
    have hcons := Fifo.front_pop hfront
    rw [hitems, List.cons.injEq] at hcons
    rw [hcons.1]

theorem readStrLoop_nil (buffer : Bytes size) (maxRead count : Nat) (hitems : u.rxBuf.items = []) :
    u.readStrLoop buffer maxRead t count = (u, buffer, count) := by
  rw [readStrLoop]
  split
  · rfl
  · rename_i byte hfront
    rw [Fifo.front_none.mpr hitems] at hfront
    cases hfront

theorem readStrLoop_cons (buffer : Bytes size) (maxRead count : Nat) {byte : UInt8} {rest : List UInt8}
    (hitems : u.rxBuf.items = byte :: rest) : u.readStrLoop buffer maxRead t count =
      if count < maxRead then
        if byte = t then ({ u with rxBuf := u.rxBuf.pop }, buffer.wr count byte, count + 1)
        else readStrLoop { u with rxBuf := u.rxBuf.pop } (buffer.wr count byte) maxRead t (count + 1)
      else (u, buffer, count) := by
  rw [readStrLoop]
  split
  · rename_i hfront
    rw [Fifo.front_none, hitems] at hfront
    cases hfront
  · rename_i front hfront
    have hcons := Fifo.front_pop hfront
    rw [hitems, List.cons.injEq] at hcons
    rw [hcons.1]

end Loops

theorem readEtlStrLoop_eq {n : Nat} (u : UsartDriver txBuffSize rxBuffSize) (str : EtlString n) (t : UInt8)
    (count : Nat) : u.readEtlStrLoop str t count =
      let piece := cut t (n - 1 - str.items.length) u.rxBuf.items
      (u.consume piece.length, piece.foldl EtlString.pushBack str,
        count + piece.length) := by
  induction hitems : u.rxBuf.items generalizing u str count with
  | nil =>
      rw [readEtlStrLoop_nil u t str count hitems, cut_nil]
      rfl
  | cons byte rest ih =>
      rw [readEtlStrLoop_cons u t str count hitems]
      by_cases hroom : str.items.length < n - 1
      · have hpush : (str.pushBack byte).items.length = str.items.length + 1 := by
          rw [EtlString.pushBack_items (by omega), List.length_append, List.length_singleton]
        have hlimit : n - 1 - str.items.length = n - 1 - (str.pushBack byte).items.length + 1 := by omega
        rw [if_pos hroom, hlimit, cut_cons]
        by_cases hterm : byte = t
        · rw [if_pos hterm, if_pos hterm]
          simp only [List.length_singleton, ← consume_pop]
          rfl
        · have hpop : u.rxBuf.pop.items = rest := by rw [Fifo.pop_items, hitems, List.tail_cons]
          rw [if_neg hterm, if_neg hterm, ih _ _ _ hpop]
          simp only [List.length_cons, List.foldl_cons, consume_pop, Nat.add_assoc, Nat.add_comm 1]
      · have hlimit : n - 1 - str.items.length = 0 := by omega
        rw [if_neg hroom, hlimit, cut_zero]
        rfl

theorem readStrLoop_eq {size : Nat} (u : UsartDriver txBuffSize rxBuffSize) (buffer : Bytes size)
    (maxRead : Nat) (t : UInt8) (count : Nat) : u.readStrLoop buffer maxRead t count =
      let piece := cut t (maxRead - count) u.rxBuf.items
      (u.consume piece.length, buffer.wrAll count piece, count + piece.length) := by
  induction hitems : u.rxBuf.items generalizing u buffer count with
  | nil =>
      rw [readStrLoop_nil u t buffer maxRead count hitems, cut_nil]
      rfl
  | cons byte rest ih =>
      rw [readStrLoop_cons u t buffer maxRead count hitems]
      by_cases hroom : count < maxRead
      · have hlimit : maxRead - count = maxRead - (count + 1) + 1 := by omega
        rw [if_pos hroom, hlimit, cut_cons]
        by_cases hterm : byte = t
        · rw [if_pos hterm, if_pos hterm]
          simp only [List.length_singleton, ← consume_pop]
          rfl
        · have hpop : u.rxBuf.pop.items = rest := by rw [Fifo.pop_items, hitems, List.tail_cons]
          rw [if_neg hterm, if_neg hterm, ih _ _ _ hpop]
          simp only [List.length_cons, Bytes.wrAll, consume_pop, Nat.add_assoc, Nat.add_comm 1]
      · have hlimit : maxRead - count = 0 := by omega
        rw [if_neg hroom, hlimit, cut_zero]
        rfl

/-! ## One call -/

/-- The piece that a call with room for `n` bytes reads. -/
def piece (u : UsartDriver txBuffSize rxBuffSize) (n : Nat) (t : UInt8) : List UInt8 :=
  cut t (n - 1) u.rxBuf.items

theorem piece_fits (u : UsartDriver txBuffSize rxBuffSize) (t : UInt8) {n : Nat} (hn : 1 ≤ n) :
    (u.piece n t).length < n := Nat.lt_of_le_pred hn (cut_isCut t (n - 1) u.rxBuf.items).length_le

theorem piece_consume (u : UsartDriver txBuffSize rxBuffSize) (n : Nat) (t : UInt8) :
    u.piece n t ++ (u.consume (u.piece n t).length).rxBuf.items = u.rxBuf.items :=
  cut_append_drop t (n - 1) u.rxBuf.items

/-- `read_str` for an `etl::string`: the piece is the string. -/
theorem readEtlStr_eq {n : Nat} (u : UsartDriver txBuffSize rxBuffSize) (str : EtlString n) (t : UInt8)
    (hn : 1 ≤ n) : ∃ str' : EtlString n, str'.items = u.piece n t ∧
      u.readEtlStr str t = (u.consume (u.piece n t).length, str', (u.piece n t).length) := by
  refine ⟨(u.piece n t).foldl EtlString.pushBack str.clear, ?_, ?_⟩
  · rw [EtlString.foldl_pushBack_items]
    exact List.take_of_length_le (Nat.le_of_lt (u.piece_fits t hn))
  · unfold readEtlStr
    rw [readEtlStrLoop_eq]
    simp only [Nat.zero_add]
    rfl

/-- `read_str` for a C string: the piece goes to the beginning of the buffer, and a `NUL` behind it. -/
theorem readStr_eq {n size : Nat} (u : UsartDriver txBuffSize rxBuffSize) (buffer : Bytes size) (t : UInt8)
    (hn : 1 ≤ n) : u.readStr (some buffer) n t = (u.consume (u.piece n t).length,
      some ((buffer.wrAll 0 (u.piece n t)).wr (u.piece n t).length 0), (u.piece n t).length) := by
  unfold readStr
  simp only [if_neg (Nat.one_le_iff_ne_zero.mp hn)]
  rw [readStrLoop_eq]
  simp only [Nat.zero_add]
  rfl

/-- A text with a `NUL` behind it lies at the beginning of the buffer, and nothing else was written. -/
structure HoldsText {size : Nat} (old new : Bytes size) (text : List UInt8) : Prop where
  text_read : (List.range text.length).map new.rd = text
  terminated : new.rd text.length = 0
  rest : ∀ i, text.length < i → new.rd i = old.rd i

theorem holdsText_wrAll {size : Nat} (buffer : Bytes size) {text : List UInt8} (h : text.length < size) :
    HoldsText buffer ((buffer.wrAll 0 text).wr text.length 0) text := by
  refine ⟨?_, Bytes.rd_wr_same _ h _, ?_⟩
  · have hread : (List.range text.length).map ((buffer.wrAll 0 text).wr text.length 0).rd
        = (List.range text.length).map (buffer.wrAll 0 text).rd := by
      apply List.map_congr_left
      intro i hi
      exact Bytes.rd_wr_ne _ (Nat.ne_of_gt (List.mem_range.mp hi)) _
    rw [hread]
    exact Bytes.map_rd_wrAll buffer (Nat.le_of_lt h)
  · intro i hi
    rw [Bytes.rd_wr_ne _ (Nat.ne_of_lt hi), Bytes.rd_wrAll buffer (by omega), if_pos (Nat.zero_le i),
      Nat.sub_zero, List.getElem?_eq_none (Nat.le_of_lt hi)]
    rfl

/-- Both overloads read the same piece: what each of them returns and leaves behind. -/
def ReadsAlike {n size : Nat} (u : UsartDriver txBuffSize rxBuffSize) (str : EtlString n)
    (buffer : Bytes size) (t : UInt8) : Prop :=
  ∃ text u' str' buffer',
    IsCut t (n - 1) u.rxBuf.items text ∧
    u.rxBuf.items = text ++ u'.rxBuf.items ∧
    u' = { u with rxBuf := u'.rxBuf } ∧
    u.readEtlStr str t = (u', str', text.length) ∧
    str'.items = text ∧
    u.readStr (some buffer) n t = (u', some buffer', text.length) ∧
    text.length < n ∧
    HoldsText buffer buffer' text

theorem readsAlike {n size : Nat} (u : UsartDriver txBuffSize rxBuffSize) (str : EtlString n)
    (buffer : Bytes size) (t : UInt8) (hn : 1 ≤ n) (hsize : n ≤ size) : u.ReadsAlike str buffer t := by
  have hfits := u.piece_fits t hn
  obtain ⟨str', htext, hetl⟩ := u.readEtlStr_eq str t hn
  exact ⟨u.piece n t, u.consume (u.piece n t).length, str', _, cut_isCut t (n - 1) u.rxBuf.items,
    (u.piece_consume n t).symm, rfl, hetl, htext, u.readStr_eq buffer t hn, hfits,
    holdsText_wrAll buffer (Nat.lt_of_lt_of_le hfits hsize)⟩

/-! ## Repeated calls -/

/-- A call of one of the overloads, with room for two bytes or more. -/
inductive ReadCall where
  | etlString {n : Nat} (hn : 2 ≤ n) (str : EtlString n) (terminator : UInt8)
  | cString {size : Nat} (n : Nat) (hn : 2 ≤ n) (hsize : n ≤ size) (buffer : Bytes size) (terminator : UInt8)

/-- A call, and the text that it delivers. -/
def deliver (u : UsartDriver txBuffSize rxBuffSize) :
    ReadCall → UsartDriver txBuffSize rxBuffSize × List UInt8
  | .etlString _ str t =>
      let (u, str, _) := u.readEtlStr str t
      (u, str.items)
  | .cString n _ _ buffer t =>
      let (u, buffer, count) := u.readStr (some buffer) n t
      (u, (List.range count).map (buffer.elim (fun _ => 0) Bytes.rd))

namespace ReadCall

def room : ReadCall → Nat
  | @etlString n _ _ _     => n
  | .cString n _ _ _ _     => n

def terminator : ReadCall → UInt8
  | .etlString _ _ t       => t
  | .cString _ _ _ _ t     => t

theorem two_le_room (c : ReadCall) : 2 ≤ c.room := by
  cases c with
  | etlString hn _ _ => exact hn
  | cString _ hn _ _ _ => exact hn

end ReadCall

/-- Either overload delivers its piece. -/
theorem deliver_eq (u : UsartDriver txBuffSize rxBuffSize) (c : ReadCall) :
    u.deliver c = (u.consume (u.piece c.room c.terminator).length, u.piece c.room c.terminator) := by
  cases c with
  | @etlString n hn str t =>
      obtain ⟨str', htext, hetl⟩ := u.readEtlStr_eq str t (Nat.le_of_succ_le hn)
      simp only [deliver, hetl, htext]
      rfl
  | cString n hn hsize buffer t =>
      have hfits := u.piece_fits t (Nat.le_of_succ_le hn)
      simp only [deliver, u.readStr_eq buffer t (Nat.le_of_succ_le hn)]
      exact congrArg (u.consume (u.piece n t).length, ·)
        (holdsText_wrAll buffer (Nat.lt_of_lt_of_le hfits hsize)).text_read

theorem deliver_moves (u : UsartDriver txBuffSize rxBuffSize) (c : ReadCall) :
    (u.deliver c).2 ++ (u.deliver c).1.rxBuf.items = u.rxBuf.items := by
  rw [deliver_eq]
  exact u.piece_consume c.room c.terminator

theorem deliver_progress (u : UsartDriver txBuffSize rxBuffSize) (c : ReadCall) (h : u.rxBuf.items ≠ []) :
    (u.deliver c).2 ≠ [] := by
  rw [deliver_eq]
  exact cut_ne_nil c.terminator (Nat.sub_pos_of_lt c.two_le_room) h

/-- **Strings are cut out of the stream without loss**, by each overload in the same way. -/
theorem readStr_lossless {n size : Nat} (u : UsartDriver txBuffSize rxBuffSize) (str : EtlString n)
    (buffer : Bytes size) (t : UInt8) (calls : List ReadCall) (hn : 1 ≤ n) (hsize : n ≤ size) :
    u.ReadsAlike str buffer t ∧
    (Trace.run deliver u calls).2 ++ (Trace.run deliver u calls).1.rxBuf.items = u.rxBuf.items ∧
    (u.rxBuf.items.length ≤ calls.length → (Trace.run deliver u calls).2 = u.rxBuf.items) := by
  let received : UsartDriver txBuffSize rxBuffSize → List UInt8 := fun u => u.rxBuf.items
  refine ⟨u.readsAlike str buffer t hn hsize, ?_, ?_⟩
  · exact Trace.run_moves received deliver_moves u calls
  · intro hlength
    exact Trace.run_drains received deliver_moves deliver_progress hlength

/-- Four bytes, with a terminator among them. -/
theorem readStr_lossless_four_bytes :
    (1 ≤ 3 ∧ 3 ≤ 3 ∧ 4 ≤ 4) ∧
    ({ (init : UsartDriver 8 8) with rxBuf := ⟨[65, 10, 66, 67], by decide⟩ } : UsartDriver 8 8).ReadsAlike
      (Fifo.empty : EtlString 3) (Bytes.zeros 3) 10 ∧
    (Trace.run deliver
      ({ (init : UsartDriver 8 8) with rxBuf := ⟨[65, 10, 66, 67], by decide⟩ } : UsartDriver 8 8)
      (List.replicate 4 (.etlString (Nat.le_refl 2) Fifo.empty 10))).2 = [65, 10, 66, 67] :=
  have hread := readStr_lossless
    ({ (init : UsartDriver 8 8) with rxBuf := ⟨[65, 10, 66, 67], by decide⟩ } : UsartDriver 8 8)
    (Fifo.empty : EtlString 3) (Bytes.zeros 3) 10
    (List.replicate 4 (.etlString (Nat.le_refl 2) Fifo.empty 10)) (by omega) (by omega)
  ⟨⟨by omega, by omega, by omega⟩, hread.1, hread.2.2 (Nat.le_refl 4)⟩

end UsartDriver
end Thermostat
