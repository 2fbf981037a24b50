import Thermostat.Drivers.Correctness.Glyphs
import Thermostat.Lib.Serial

/-!
# `Drivers.Correctness.FlushStream` — what `Flush` puts on the line

The display controller listens to three wires: it samples the data wire at the rising edges of the write
strobe while the chip is selected, and takes what it has got when the chip is deselected. A write frame has
the bits `101`, six address bits with the high one first, and four data bits with the low one first.

**`flush_decodes`**: whatever the controller has seen and holds, it gets 32 write frames, one for each
address, and then holds the image.
-/

namespace Thermostat

open Serial

/-- The wire of a pin. -/
def Pin.wire : Pin → Wire
  | .cs    => .select
  | .write => .clock
  | .data  => .data

namespace HT1621B

/-! ## The display controller -/

/-- The address and the data of a write frame. -/
def decodeWrite : List Bool → Option (Nat × Nat)
  | true :: false :: true :: bits =>
      if bits.length = 10 then some (ofHigh (bits.take 6), ofLow (bits.drop 6)) else none
  | _ => none

/-- Take a frame; one that is no write frame changes nothing. -/
def receive (ram : Bytes 32) (bits : List Bool) : Bytes 32 :=
  match decodeWrite bits with
  | some (address, data) => ram.wr address (UInt8.ofNat data)
  | none => ram

/-! ## Frames on the line -/

/-- The levels that have been written, by their wires. -/
def wires (d : HT1621B) : List (Wire × Bool) := d.line.map fun e => (e.1.wire, e.2)

/-- The bits of a write frame. -/
def writeFrame (address data : UInt8) : List Bool :=
  [true, false, true] ++ outHigh 6 (address <<< 2).toBitVec ++ outLow 4 data.toBitVec

/-- A level is written to one wire. -/
theorem drive_wires (d : HT1621B) (p : Pin) (level : Bool) :
    (d.drive p level).wires = d.wires ++ [(p.wire, level)] := by
  unfold wires drive
  rw [List.map_append]
  rfl

/-- A bit is a pulse on the clock with the bit on the data line. -/
theorem writeBit_wires (d : HT1621B) (bit : Bool) : (d.writeBit bit).wires = d.wires ++ pulse bit := by
  unfold writeBit
  simp only [drive_wires, List.append_assoc]
  rfl

/-- The two tests of a bit in the source, as bits. -/
theorem testHigh (x : UInt8) : (x &&& 0x80 == 0x80) = x.toBitVec.getLsbD 7 := by
  have hmask : (x &&& 0x80).toBitVec = if x.toBitVec.getLsbD 7 then 0x80#8 else 0#8 :=
    BitVec.and_twoPow x.toBitVec 7
  rw [Bool.eq_iff_iff, beq_iff_eq, ← UInt8.toBitVec_inj, hmask]
  cases x.toBitVec.getLsbD 7 <;> simp

theorem testLow (x : UInt8) : (x &&& 0x01 != 0) = x.toBitVec.getLsbD 0 := by
  have hmask : (x &&& 0x01).toBitVec = if x.toBitVec.getLsbD 0 then 0x01#8 else 0#8 :=
    BitVec.and_twoPow x.toBitVec 0
  rw [Bool.eq_iff_iff, bne_iff_ne, Ne, ← UInt8.toBitVec_inj, hmask]
  cases x.toBitVec.getLsbD 0 <;> simp

/-- The address goes out from its highest bit on; by induction on the bits. -/
theorem writeAddress_wires (d : HT1621B) (k : Nat) (address : UInt8) :
    (d.writeAddress k address).wires = d.wires ++ (outHigh k address.toBitVec).flatMap pulse := by
  induction k generalizing d address with
  | zero => simp [writeAddress, outHigh]
  | succ k ih =>
      rw [writeAddress, ih, writeBit_wires, testHigh, outHigh, List.flatMap_cons, List.append_assoc]
      rfl

/-- The data goes out from its lowest bit on. -/
theorem writeNibble_wires (d : HT1621B) (k : Nat) (data : UInt8) :
    (d.writeNibble k data).wires = d.wires ++ (outLow k data.toBitVec).flatMap pulse := by
  induction k generalizing d data with
  | zero => simp [writeNibble, outLow]
  | succ k ih =>
      rw [writeNibble, ih, writeBit_wires, testLow, outLow, List.flatMap_cons, List.append_assoc]
      rfl

/-- **One frame on the wires.** -/
theorem writeData_wires (d : HT1621B) {address : UInt8} (haddress : address < 32) (data : UInt8) :
    (d.writeData address data).wires = d.wires ++ packet (writeFrame address data) := by
  unfold writeData
  rw [if_neg (UInt8.not_le.mpr haddress)]
  simp only [drive_wires, writeNibble_wires, writeAddress_wires, writeBit_wires]
  unfold packet writeFrame
  simp only [List.flatMap_append, List.flatMap_cons, List.append_assoc, List.cons_append, List.nil_append]
  rfl

/-- The frame of a cell of the image. -/
def cellFrame (d : HT1621B) (i : Nat) : List Bool := writeFrame (UInt8.ofNat i) (d.vram.rd i)

theorem ofNat_lt {i : Nat} (hi : i < 32) : UInt8.ofNat i < 32 := by
  have hmax : (32 : UInt8).toNat = 32 := rfl
  rw [UInt8.lt_iff_toNat_lt, UInt8.toNat_ofNat', hmax]
  omega

/-- All cells, one frame after the other. -/
theorem flush_wires (d : HT1621B) :
    d.flush.wires = d.wires ++ ((List.range 32).map d.cellFrame).flatMap packet := by
  have hcells : ∀ (cells : List Nat) (e : HT1621B), (∀ i ∈ cells, i < 32) → e.vram = d.vram →
      (cells.foldl (fun e i => e.writeData (UInt8.ofNat i) (e.vram.rd i)) e).wires
        = e.wires ++ (cells.map d.cellFrame).flatMap packet := by
    intro cells
    induction cells with
    | nil => simp
    | cons i cells ih =>
        intro e hlt hvram
        have hnext : (e.writeData (UInt8.ofNat i) (e.vram.rd i)).vram = d.vram := by
          rw [writeData_vram, hvram]
        have hi := ofNat_lt (hlt i List.mem_cons_self)
        rw [List.foldl_cons, ih _ (fun j hj => hlt j (List.mem_cons_of_mem i hj)) hnext,
          writeData_wires e hi, hvram, List.map_cons, List.flatMap_cons, List.append_assoc]
        rfl
  exact hcells (List.range 32) d (fun i hi => List.mem_range.mp hi) rfl

/-! ## What the controller gets -/

theorem nibble_toNat (x : UInt8) : (x &&& 0x0F).toNat = x.toNat % 16 := by
  rw [UInt8.toNat_and]
  exact Nat.and_two_pow_sub_one_eq_mod x.toNat 4

/-- The frame of a cell is read back as its address and its low four bits. -/
theorem decode_cellFrame (d : HT1621B) {i : Nat} (hi : i < 32) :
    decodeWrite (d.cellFrame i) = some (i, (d.vram.rd i).toNat % 16) := by
  unfold cellFrame
  generalize d.vram.rd i = data
  have hlength : (outHigh 6 (UInt8.ofNat i <<< 2).toBitVec ++ outLow 4 data.toBitVec).length = 10 := by
    rw [List.length_append, outHigh_length, outLow_length]
  have haddress : ofHigh (outHigh 6 (UInt8.ofNat i <<< 2).toBitVec) = i := by
    have hshift : (UInt8.ofNat i <<< 2).toNat = i % 256 * 4 % 256 := by
      rw [UInt8.toNat_shiftLeft, UInt8.toNat_ofNat', Nat.shiftLeft_eq]
      rfl
    rw [ofHigh_outHigh (by omega), UInt8.toNat_toBitVec, hshift]
    omega
  have hdata : ofLow (outLow 4 data.toBitVec) = data.toNat % 16 := ofLow_outLow 4 data.toBitVec
  unfold writeFrame
  simp only [List.cons_append, List.nil_append, decodeWrite]
  rw [if_pos hlength, List.take_left' (outHigh_length 6 _), List.drop_left' (outHigh_length 6 _),
    haddress, hdata]

/-- A frame sets its cell, and only that. -/
theorem receive_cellFrame (d : HT1621B) {i : Nat} (hi : i < 32) (ram : Bytes 32) :
    receive ram (d.cellFrame i) = ram.wr i (d.vram.rd i &&& 0x0F) := by
  have hnibble : UInt8.ofNat ((d.vram.rd i).toNat % 16) = d.vram.rd i &&& 0x0F := by
    rw [← nibble_toNat, UInt8.ofNat_toNat]
  unfold receive
  rw [decode_cellFrame d hi]
  exact congrArg (ram.wr i) hnibble

/-- The frames of the image fill the memory. -/
theorem receive_cellFrames (d : HT1621B) (ram : Bytes 32) {a : Nat} (ha : a < 32) :
    (((List.range 32).map d.cellFrame).foldl receive ram).rd a = d.vram.rd a &&& 0x0F := by
  have hstep : ∀ i, i < 32 → ∀ m : Bytes 32, (∀ j, i ≤ j → m.rd j = ram.rd j) →
      receive m (d.cellFrame i) = m.wr i (d.vram.rd i &&& 0x0F) := fun i hi m _ => receive_cellFrame d hi m
  have hfill : ((List.range 32).foldl (fun m i => receive m (d.cellFrame i)) ram).rd a
      = if a < 32 then d.vram.rd a &&& 0x0F else ram.rd a :=
    Bytes.rd_foldl_range ram (Nat.le_refl 32) hstep (Nat.le_refl 32) a
  rw [List.foldl_map, hfill, if_pos ha]

/-! ## The law -/

/-- What `Flush` puts on the line. -/
def activity (d : HT1621B) : List (Wire × Bool) :=
  (d.flush.line.drop d.line.length).map fun e => (e.1.wire, e.2)

/-- These are the frames of the cells. -/
theorem activity_eq (d : HT1621B) : d.activity = ((List.range 32).map d.cellFrame).flatMap packet := by
  have hwires := flush_wires d
  have hlength : d.line.length = d.wires.length := (List.length_map _).symm
  unfold activity
  rw [List.map_drop, hlength]
  change d.flush.wires.drop d.wires.length = _
  rw [hwires, List.drop_left]

/-- **`Flush` sends the image**, for every image, every receiver and every content of its memory: after the
    end of a frame that may still be open, it gets 32 write frames, one for each address, and it then holds
    the image. -/
theorem flush_decodes (d : HT1621B) (r : Serial.Receiver) (ram : Bytes 32) :
    ∃ frames, (Trace.run Serial.Receiver.step r d.activity).2 = r.frame.toList ++ frames ∧
      frames.map decodeWrite = (List.range 32).map (fun a => some (a, (d.vram.rd a &&& 0x0F).toNat)) ∧
      ∀ a, a < 32 →
        ((Trace.run Serial.Receiver.step r d.activity).2.foldl receive ram).rd a = d.vram.rd a &&& 0x0F := by
  have hsome : (List.range 32).map d.cellFrame ≠ [] := by simp
  obtain ⟨clock, data, hrun⟩ := run_packets hsome r
  rw [activity_eq, hrun]
  refine ⟨(List.range 32).map d.cellFrame, rfl, ?_, ?_⟩
  · rw [List.map_map]
    apply List.map_congr_left
    intro a ha
    have hmask : (d.vram.rd a &&& 0x0F).toNat = (d.vram.rd a).toNat % 16 := nibble_toNat _
    rw [Function.comp_apply, decode_cellFrame d (List.mem_range.mp ha), hmask]
  · intro a ha
    rw [List.foldl_append]
    exact receive_cellFrames d _ ha

end HT1621B
end Thermostat
