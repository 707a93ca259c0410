import ChipEight.Proofs.Machine.Watched

/-!
# Nothing is out of bounds

Every access of an instruction is `Within` the machine: the cell is there and is found without
counting from the end, the bounds of a slice are places of its row, the number fits into its cell
and the cells given fill their room.  So nothing is cut off or wrapped round on the way.

`watch_within` says so for every instruction of a word on a machine within its bounds.  What makes
it true is different from case to case.  Register numbers are digits, a sprite ends within memory by
its check, and the other slices do because program memory ends one byte earlier than memory; the
stack pointer, the counter, the delay timer and the captured key are within the bounds of the
machine.
-/

namespace ChipEight

/-- The machine can grant an access as it is. -/
def Access.Within : Access → Prop
  | cell row index => 0 ≤ index ∧ index < row.size
  | span row start stop => 0 ≤ start ∧ start ≤ stop ∧ stop ≤ row.size
  | pixel row column => 0 ≤ row ∧ row < displayHeight ∧ 0 ≤ column ∧ column < displayWidth
  | byte value => 0 ≤ value ∧ value < 256
  | pair value => 0 ≤ value ∧ value < 65536
  | fill given room => given = room

/-- A register has its cell. -/
theorem Register.within (x : Register) : (Access.cell .registers x.val).Within := by
  have hx := x.isLt
  simp only [Access.Within, Row.size]
  omega

namespace Watched

open Outcome Machine

variable {m : Machine}

/-- All accesses are within the machine. -/
def Safe (w : Watched) : Prop :=
  w.All Access.Within

@[simp] theorem safe_ended (o : Outcome) : (ended o).Safe :=
  all_ended o

@[simp] theorem safe_complete (m : Machine) : (complete m).Safe :=
  all_complete m

theorem safe_noting {access : Access} {w : Watched} (h : access.Within) (hw : w.Safe) :
    (noting access w).Safe :=
  (all_noting access w).mpr ⟨h, hw⟩

/-- An attempt is safe if whatever it goes on with is. -/
theorem safe_attempt {α : Type} {r : Except CellFault α} {next : α → Watched}
    (h : ∀ a, (next a).Safe) : (attempt m r next).Safe := by
  cases r with
  | error f => exact safe_ended _
  | ok a => exact h a

theorem safe_readRegister (x : Register) {next : UInt8 → Watched}
    (h : (next (m.register x)).Safe) : (readRegister x.val m next).Safe := by
  rw [readRegister_of_ok (Register.ofInt?_val x)]
  exact safe_noting x.within h

theorem safe_putRegister (x : Register) {value : Int} {next : Machine → Watched}
    (hvalue : 0 ≤ value ∧ value < 256) (h : ∀ m, (next m).Safe) :
    (putRegister x.val value m next).Safe := by
  rw [putRegister_of_ok (Register.ofInt?_val x) hvalue]
  exact safe_noting x.within (safe_noting hvalue (h _))

/-- The last register, by its number. -/
theorem safe_putFlag {flag : Int} (hflag : 0 ≤ flag ∧ flag < 256) (m : Machine) :
    (putRegister 15 flag m complete).Safe :=
  safe_putRegister flagRegister hflag safe_complete

/-- A key that is looked for is one of the keypad. -/
theorem safe_readKey (x : Register) {next : Bool → Watched} (h : ∀ down, (next down).Safe) :
    (readKey x.val m next).Safe := by
  refine safe_readRegister x ?_
  split
  · exact safe_ended _
  · refine safe_noting ?_ (safe_attempt h)
    simp only [Access.Within, Row.size, keyCount]
    omega

/-- An operation on two registers. -/
theorem safe_alu (op : Alu) (x y : Register) : (alu op x.val y.val m).Safe := by
  have hall := (alu_of_ok (Register.ofInt?_val x) (Register.ofInt?_val y) op m).2
  intro access hmem
  have haccess := hall access hmem
  cases access with
  | cell row index =>
    obtain ⟨rfl, rfl | rfl | rfl⟩ := haccess
    · exact x.within
    · exact y.within
    · exact flagRegister.within
  | byte value => exact haccess
  | span | pixel | pair | fill => exact haccess.elim

/-! ### Drawing -/

/-- The bits of a byte fall on pixels. -/
theorem safe_drawBits (byte : UInt8) {row : Int} (hrow : 0 ≤ row ∧ row < 32) (column : Int)
    (bits : List Nat) {hit : Bool} {next : Bool → Machine → Watched}
    (h : ∀ hit m, (next hit m).Safe) : (drawBits byte row column bits hit m next).Safe := by
  induction bits generalizing hit m with
  | nil => exact h hit m
  | cons bit bits ih =>
    refine safe_noting ?_ (safe_attempt fun row => safe_attempt fun column => ih)
    simp only [Access.Within, displayHeight, displayWidth]
    omega

/-- So do all bytes of a sprite. -/
theorem safe_drawBytes (column : Int) (sprite : List UInt8) {row : Int} {hit : Bool}
    {next : Bool → Machine → Watched} (h : ∀ hit m, (next hit m).Safe) :
    (drawBytes column sprite row hit m next).Safe := by
  induction sprite generalizing row hit m with
  | nil => exact h hit m
  | cons byte rest ih => exact safe_drawBits byte (by omega) column _ fun hit m => ih

/-- A sprite is read from memory, drawn on pixels, and leaves a flag. -/
theorem safe_drawSprite (hm : m.Bounded) (x y : Register) {height : Int} (hheight : 0 ≤ height) :
    (drawSprite x.val y.val height m).Safe := by
  have hindex := hm.index
  refine safe_readRegister x (safe_readRegister y ?_)
  split
  · exact safe_ended _
  next hfits =>
    refine safe_noting ?_ (safe_drawBytes _ _ fun hit m => safe_putFlag (by split <;> omega) m)
    simp only [Access.Within, Row.size]
    omega

/-! ### The stack -/

theorem safe_ret (hm : m.Bounded) : (ret m).Safe := by
  have hsp := hm.stackPointer
  unfold ret
  split
  · exact safe_ended _
  · refine safe_noting ?_ (safe_attempt fun address => safe_complete _)
    simp only [Access.Within, Row.size]
    omega

theorem safe_call (hm : m.Bounded) (address : Int) : (call address m).Safe := by
  have hsp := hm.stackPointer
  have hcounter := hm.counter
  unfold call
  split
  · exact safe_ended _
  split
  · exact safe_ended _
  refine safe_noting ?_ (safe_attempt fun top => safe_noting ?_ (safe_attempt fun here => ?_))
  · simp only [Access.Within, Row.size]
    omega
  · simp only [Access.Within]
    omega
  · exact safe_complete _

theorem safe_jumpPlus (address : Int) : (jumpPlus address m).Safe := by
  refine safe_readRegister offsetRegister ?_
  dsimp only
  split
  · exact safe_ended _
  split
  · exact safe_ended _
  · exact safe_complete _

/-! ### Memory -/

/-- Slices of the same length, one to be read and one to be written, copy as many cells as there is
room for. -/
theorem safe_copy {α : Type} {n k : Nat} {row row' : Row} (cells : Vector α n)
    (target : Vector α k) (start start' count : Nat) {i stop i' stop' : Int}
    (hrow : row.size = n) (hi : i = start) (hstop : stop = (start + count : Nat))
    (hread : start + count ≤ n)
    (hrow' : row'.size = k) (hi' : i' = start') (hstop' : stop' = (start' + count : Nat))
    (hwrite : start' + count ≤ k) {next : Vector α k → Watched} (h : ∀ cells, (next cells).Safe) :
    (readSpan row cells i stop fun given => putSpan row' target i' stop' given m next).Safe := by
  have hlength : (Cells.slice cells i stop).length = count := by
    rw [hi, hstop, Cells.length_slice cells start count hread]
  rw [readSpan, putSpan_of_length row' target start' count hi' hstop' hwrite hlength]
  refine safe_noting ?_ (safe_noting ?_ (safe_noting rfl (h _)))
  · simp only [Access.Within, hrow]
    omega
  · simp only [Access.Within, hrow']
    omega

theorem safe_storeDecimal (x : Register) : (storeDecimal x.val m).Safe := by
  by_cases hroom : InProgramMemory m.index 3
  · obtain ⟨hlow, hhigh⟩ := inProgramMemory_iff.mp hroom
    obtain ⟨ha, hb, hc⟩ := decimalDigits_lt (m.value x)
    rw [storeDecimal_of_ok (Register.ofInt?_val x) hroom]
    refine safe_noting x.within (safe_noting ?_ (safe_noting ?_ (safe_noting ?_
      (safe_noting ?_ (safe_noting rfl (safe_complete _))))))
    all_goals simp only [Access.Within, Row.size, memorySize]; omega
  · rw [storeDecimal, if_pos hroom]
    exact safe_ended _

theorem safe_saveThrough (last : Register) : (saveThrough last.val m).Safe := by
  have hlast := last.isLt
  unfold saveThrough
  split
  · exact safe_ended _
  next hroom =>
    obtain ⟨hlow, hhigh⟩ := inProgramMemory_iff.mp (Decidable.not_not.mp hroom)
    exact safe_copy m.registers m.memory 0 m.index.toNat (last.val + 1) rfl rfl (by omega)
      (by omega) rfl (by omega) (by omega) (by omega) fun _ => safe_complete _

theorem safe_restoreThrough (last : Register) : (restoreThrough last.val m).Safe := by
  have hlast := last.isLt
  unfold restoreThrough
  split
  · exact safe_ended _
  next hroom =>
    obtain ⟨hlow, hhigh⟩ := inProgramMemory_iff.mp (Decidable.not_not.mp hroom)
    exact safe_copy m.memory m.registers m.index.toNat 0 (last.val + 1) rfl (by omega) (by omega)
      (by omega) rfl rfl (by omega) (by omega) fun _ => safe_complete _

end Watched

namespace Instruction

open Outcome Machine Watched

variable {m : Machine} {i : Instruction Register} {f : Fields}

/-- **Nothing is out of bounds.**  On a machine within its bounds all accesses of an instruction of
a word are within the machine. -/
theorem watch_safe (byte : UInt8) (hm : m.Bounded) (hi : i.Matches f) :
    ((i.map fun x => (x.val : Int)).watch byte m).Safe := by
  cases i with
  | clear | system a | jump a | loadIndex a => exact safe_complete _
  | ret => exact safe_ret hm
  | call a => exact safe_call hm a
  | jumpPlus a => exact safe_jumpPlus a
  | alu op x y => exact safe_alu op x y
  | skipIfByte x b | skipUnlessByte x b | setDelay x | setSound x | addIndex x =>
    exact safe_readRegister x (safe_complete _)
  | loadGlyph x => exact safe_readRegister x (safe_ended _)
  | skipIfEqual x y | skipUnlessEqual x y =>
    exact safe_readRegister x (safe_readRegister y (safe_complete _))
  | skipIfKey x | skipUnlessKey x => exact safe_readKey x fun down => safe_complete _
  | loadByte x b =>
    obtain ⟨-, -, rfl⟩ := hi
    have hb := f.byte_lt
    exact safe_putRegister x (by omega) safe_complete
  | addByte x b =>
    exact safe_readRegister x (safe_putRegister x (by omega) safe_complete)
  | random x mask => exact safe_putRegister x (byte_bounds _) safe_complete
  | readDelay x =>
    have hdelay := hm.delayTimer
    exact safe_putRegister x (by omega) safe_complete
  | draw x y height =>
    obtain ⟨-, -, -, rfl⟩ := hi
    exact safe_drawSprite hm x y (Int.natCast_nonneg _)
  | waitKey x =>
    simp only [map, watch, Watched.waitKey]
    split
    next key hkey =>
      have hbounds := hm.pendingKey key hkey
      exact safe_putRegister x (by omega) safe_complete
    · exact safe_complete _
  | storeDecimal x => exact safe_storeDecimal x
  | saveRegisters last => exact safe_saveThrough last
  | restoreRegisters last => exact safe_restoreThrough last

end Instruction

end ChipEight
