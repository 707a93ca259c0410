import ChipEight.Machine.Operation
import ChipEight.Proofs.Machine.Pixel
import ChipEight.Proofs.Machine.Refusal

/-!
# Watching an instruction

The effect of an instruction says what is left of it, and not which cells it has asked for on the
way.  `Instruction.watch` executes an instruction step by step and notes each step as an `Access`:
the cell at an index, the cells between two bounds, a pixel, a number for a cell, the cells that are
to fill a room.  Every access is noted with the plain integers that the instruction computes, before
anything is known about them, and is then left to the checks of `Cells`.

Where these checks let an access pass, the step is an equation: a register that is found is read and
written, a list as long as its room is stored.  These equations hold whoever asks, and what an
instruction asks for is read off them.
-/

namespace ChipEight

/-- The rows whose cells are found by an index. -/
inductive Row where
  | memory
  | registers
  | stack
  | keys
  deriving DecidableEq, Repr

/-- How many cells a row has. -/
def Row.size : Row → Nat
  | memory => memorySize
  | registers => 16
  | stack => 16
  | keys => keyCount

/-- A step that an instruction takes through the cells of the machine. -/
inductive Access where
  /-- The cell of a row at an index is read or written. -/
  | cell (row : Row) (index : Int)
  /-- The cells of a row between two bounds are read or written. -/
  | span (row : Row) (start stop : Int)
  /-- A pixel of the display is read and flipped. -/
  | pixel (row column : Int)
  /-- A number is put into a cell of eight bits. -/
  | byte (value : Int)
  /-- A number is put into a cell of sixteen bits. -/
  | pair (value : Int)
  /-- So many cells are put into the room between two bounds. -/
  | fill (given room : Nat)
  deriving DecidableEq, Repr

/-- How an instruction ends, with all its accesses in their order. -/
structure Watched where
  accesses : List Access
  outcome : Outcome
  deriving DecidableEq

namespace Watched

open Outcome Machine

/-- The end, without another access. -/
def ended (o : Outcome) : Watched :=
  ⟨[], o⟩

/-- The machine is left in a state, without another access. -/
def complete (m : Machine) : Watched :=
  ended (done m)

/-- An access, and what comes after it. -/
def noting (access : Access) (w : Watched) : Watched :=
  { w with accesses := access :: w.accesses }

/-- Goes on with the content of a cell, or stops with the fault of reaching it. -/
def attempt {α : Type} (m : Machine) (r : Except CellFault α) (next : α → Watched) : Watched :=
  match r with
  | .ok a => next a
  | .error f => ended (stopped m (.cell f))

/-- Reads a cell of a row. -/
def read {α : Type} {size : Nat} (row : Row) (cells : Vector α size) (index : Int) (m : Machine)
    (next : α → Watched) : Watched :=
  noting (.cell row index) (attempt m (Cells.read? cells index) next)

/-- Fits a number into a byte. -/
def fit (value : Int) (m : Machine) (next : UInt8 → Watched) : Watched :=
  noting (.byte value) (attempt m (Cells.byte? value) next)

/-- Reads a register. -/
def readRegister (x : Int) (m : Machine) (next : UInt8 → Watched) : Watched :=
  read .registers m.registers x m next

/-- Puts a number into a register. -/
def putRegister (x value : Int) (m : Machine) (next : Machine → Watched) : Watched :=
  noting (.cell .registers x) <| attempt m (Register.ofInt? x) fun x =>
    fit value m fun b => next (m.setRegister x b)

/-- Reads the cells between two bounds. -/
def readSpan {α : Type} {size : Nat} (row : Row) (cells : Vector α size) (start stop : Int)
    (next : List α → Watched) : Watched :=
  noting (.span row start stop) (next (Cells.slice cells start stop))

/-- Fills the cells between two bounds. -/
def putSpan {α : Type} {size : Nat} (row : Row) (cells : Vector α size) (start stop : Int)
    (given : List α) (m : Machine) (next : Vector α size → Watched) : Watched :=
  noting (.span row start stop) <|
  noting (.fill given.length (Cells.bound size stop - Cells.bound size start)) <|
    attempt m (Cells.assign cells start stop given) next

/-- Reads the key that a register names. -/
def readKey (x : Int) (m : Machine) (next : Bool → Watched) : Watched :=
  readRegister x m fun vx =>
    if 15 < vx.toNat then ended (stopped m (.input (.key vx.toNat)))
    else read .keys m.keys vx.toNat m next

/-! ### Drawing -/

/-- Flips a pixel under a condition, and goes on with whether that met a lit one. -/
def flipPixel (on : Bool) (row column : Int) (m : Machine) (next : Bool → Machine → Watched) :
    Watched :=
  noting (.pixel row column) <|
  attempt m (Cells.index? 32 row) fun row => attempt m (Cells.index? 64 column) fun column =>
    next (on && m.display.pixel row column)
      { m with display := m.display.flip row column on }

/-- Draws some bits of a byte, with the columns counted round the right edge. -/
def drawBits (byte : UInt8) (row column : Int) :
    List Nat → Bool → Machine → (Bool → Machine → Watched) → Watched
  | [], hit, m, next => next hit m
  | bit :: bits, hit, m, next =>
    flipPixel (Display.lit byte bit) row ((column + bit) % 64) m fun met m =>
      drawBits byte row column bits (hit || met) m next

/-- Draws the bytes of a sprite, with the rows counted round the lower edge. -/
def drawBytes (column : Int) :
    List UInt8 → Int → Bool → Machine → (Bool → Machine → Watched) → Watched
  | [], _, hit, m, next => next hit m
  | byte :: rest, row, hit, m, next =>
    drawBits byte (row % 32) column (List.range 8) hit m fun hit m =>
      drawBytes column rest (row + 1) hit m next

/-! ### Instructions -/

/-- Returns to the address on top of the stack. -/
def ret (m : Machine) : Watched :=
  if m.stackPointer = 0 then ended (stopped m (.flow .emptyStack))
  else
    let popped := { m with stackPointer := m.stackPointer - 1 }
    read .stack popped.stack popped.stackPointer popped fun address =>
      complete { popped with counter := address.toNat }

/-- Pushes the program counter and jumps. -/
def call (address : Int) (m : Machine) : Watched :=
  if 16 < m.stackPointer + 1 then ended (stopped m (.flow .stackOverflow))
  else if ¬InProgramMemory address 1 then ended (stopped m (.flow (.target address 1)))
  else
    noting (.cell .stack m.stackPointer) <| attempt m (Cells.index? 16 m.stackPointer) fun top =>
    noting (.pair m.counter) <| attempt m (Cells.pair? m.counter) fun here =>
      complete { m with
        stack := m.stack.setIfInBounds top here
        stackPointer := m.stackPointer + 1
        counter := address }

/-- Jumps to an address plus the first register. -/
def jumpPlus (address : Int) (m : Machine) : Watched :=
  readRegister 0 m fun v0 =>
    let target := address + v0.toNat
    if 0xFFFF < target then ended (stopped m (.flow .beyondWord))
    else if ¬InProgramMemory target 2 then ended (stopped m (.flow (.target target 2)))
    else complete { m with counter := target }

/-- Puts a number into a register, and then a flag into the last one. -/
def putFlagged (x value flag : Int) (m : Machine) : Watched :=
  putRegister x value m fun m => putRegister 15 flag m complete

/-- An operation on two registers. -/
def alu (op : Alu) (x y : Int) (m : Machine) : Watched :=
  let both (next : UInt8 → UInt8 → Watched) :=
    readRegister x m fun vx => readRegister y m fun vy => next vx vy
  match op with
  | .move => readRegister y m fun vy => putRegister x vy.toNat m complete
  | .or => both fun vx vy => putRegister x (vx ||| vy).toNat m complete
  | .and => both fun vx vy => putRegister x (vx &&& vy).toNat m complete
  | .xor => both fun vx vy => putRegister x (vx ^^^ vy).toNat m complete
  | .add => both fun vx vy =>
    let total : Int := vx.toNat + vy.toNat
    putFlagged x (total % 256) (if 255 < total then 0 else 1) m
  | .sub => both fun vx vy =>
    putFlagged x ((vx.toNat - vy.toNat : Int) % 256) (if (vx.toNat : Int) < vy.toNat then 0 else 1) m
  | .shiftRight => readRegister y m fun vy => putFlagged x (vy.toNat / 2) (vy.toNat % 2) m
  | .subFrom => both fun vx vy =>
    putFlagged x ((vy.toNat - vx.toNat : Int) % 256) (if (vy.toNat : Int) < vx.toNat then 1 else 0) m
  | .shiftLeft => readRegister y m fun vy =>
    putFlagged x ((vy.toNat * 2 : Int) % 256) (vy.toNat / 128) m

/-- Draws the bytes at the address register as a sprite. -/
def drawSprite (x y height : Int) (m : Machine) : Watched :=
  readRegister x m fun vx => readRegister y m fun vy =>
    if memorySize < m.index + height then ended (stopped m (.memory .sprite))
    else readSpan .memory m.memory m.index (m.index + height) fun sprite =>
      drawBytes vx.toNat sprite vy.toNat false m fun hit m =>
        putRegister 15 (if hit then 1 else 0) m complete

/-- Takes the key that was pressed, or waits for one. -/
def waitKey (x : Int) (m : Machine) : Watched :=
  match m.pendingKey with
  | some key => putRegister x key m.takeKey complete
  | none => complete m.awaitKey

/-- Stores the decimal digits of a register at the address register. -/
def storeDecimal (x : Int) (m : Machine) : Watched :=
  if ¬InProgramMemory m.index 3 then ended (stopped m (.memory (.range m.index 3)))
  else readRegister x m fun vx =>
    let digits := decimalDigits vx.toNat
    fit digits.1 m fun a => fit digits.2.1 m fun b => fit digits.2.2 m fun c =>
      putSpan .memory m.memory m.index (m.index + 3) [a, b, c] m fun memory =>
        complete { m with memory }

/-- Stores the registers up to a number, and moves the address register. -/
def saveThrough (last : Int) (m : Machine) : Watched :=
  if ¬InProgramMemory m.index (last + 1) then
    ended (stopped m (.memory (.range m.index (last + 1))))
  else
    readSpan .registers m.registers 0 (last + 1) fun bytes =>
    putSpan .memory m.memory m.index (m.index + last + 1) bytes m fun memory =>
      complete { m with memory, index := m.index + last + 1 }

/-- Loads the registers up to a number, and moves the address register. -/
def restoreThrough (last : Int) (m : Machine) : Watched :=
  if ¬InProgramMemory m.index last then ended (stopped m (.memory (.range m.index last)))
  else
    readSpan .memory m.memory m.index (m.index + last + 1) fun bytes =>
    putSpan .registers m.registers 0 (last + 1) bytes m fun registers =>
      complete { m with registers, index := m.index + last + 1 }

end Watched

namespace Instruction

open Outcome Machine Watched

/-- The effect of an instruction with all accesses that it makes.  The byte is the next of the
random source. -/
def watch (byte : UInt8) (m : Machine) : Instruction Int → Watched
  | clear => complete { m with display := Display.blank }
  | ret => Watched.ret m
  | system _ => complete m
  | jump a => complete { m with counter := a }
  | call a => Watched.call a m
  | skipIfByte x b => readRegister x m fun vx => complete (m.skipIf ((vx.toNat : Int) = b))
  | skipUnlessByte x b => readRegister x m fun vx => complete (m.skipIf ((vx.toNat : Int) ≠ b))
  | skipIfEqual x y =>
    readRegister x m fun vx => readRegister y m fun vy => complete (m.skipIf (vx = vy))
  | skipUnlessEqual x y =>
    readRegister x m fun vx => readRegister y m fun vy => complete (m.skipIf (vx ≠ vy))
  | loadByte x b => putRegister x b m complete
  | addByte x b => readRegister x m fun vx => putRegister x ((vx.toNat + b) % 256) m complete
  | alu op x y => Watched.alu op x y m
  | loadIndex a => complete { m with index := a % 4096 }
  | jumpPlus a => Watched.jumpPlus a m
  | random x mask => putRegister x (byte &&& UInt8.ofNat (mask % 256).toNat).toNat m complete
  | draw x y height => Watched.drawSprite x y height m
  | skipIfKey x => readKey x m fun down => complete (m.skipIf down)
  | skipUnlessKey x => readKey x m fun down => complete (m.skipIf !down)
  | readDelay x => putRegister x m.delayTimer m complete
  | waitKey x => Watched.waitKey x m
  | setDelay x => readRegister x m fun vx => complete { m with delayTimer := vx.toNat }
  | setSound x => readRegister x m fun vx => complete { m with soundTimer := vx.toNat }
  | addIndex x => readRegister x m fun vx => complete { m with index := wrap (m.index + vx.toNat) }
  | loadGlyph x => readRegister x m fun vx =>
    ended (Outcome.attempt m (glyphAddress vx.toNat) fun a => done { m with index := a })
  | storeDecimal x => Watched.storeDecimal x m
  | saveRegisters last => saveThrough last m
  | restoreRegisters last => restoreThrough last m

end Instruction

namespace Watched

open Outcome Machine

variable {m : Machine} {x value : Int} {k : Register} {f : CellFault}

/-- All accesses are of some kind. -/
def All (P : Access → Prop) (w : Watched) : Prop :=
  ∀ access ∈ w.accesses, P access

variable {P : Access → Prop}

@[simp] theorem all_ended (o : Outcome) : (ended o).All P :=
  List.forall_mem_nil P

@[simp] theorem all_complete (m : Machine) : (complete m).All P :=
  List.forall_mem_nil P

@[simp] theorem all_noting (access : Access) (w : Watched) :
    (noting access w).All P ↔ P access ∧ w.All P :=
  List.forall_mem_cons

@[simp] theorem outcome_ended (o : Outcome) : (ended o).outcome = o := rfl

@[simp] theorem outcome_complete (m : Machine) : (complete m).outcome = done m := rfl

@[simp] theorem outcome_noting (access : Access) (w : Watched) :
    (noting access w).outcome = w.outcome := rfl

/-- A byte has eight bits. -/
theorem byte_bounds (b : UInt8) : 0 ≤ (b.toNat : Int) ∧ (b.toNat : Int) < 256 := by
  have hb := b.toNat_lt
  omega

/-- A number of eight bits fits. -/
theorem fit_nat {n : Nat} (h : n < 256) (m : Machine) (next : UInt8 → Watched) :
    fit n m next = noting (.byte n) (next (UInt8.ofNat n)) := by
  rw [fit, Cells.byte?, if_pos (by omega)]
  rfl

/-- A byte is such a number. -/
theorem byte?_toNat (b : UInt8) : Cells.byte? b.toNat = .ok b := by
  have hb := b.toNat_lt
  rw [Cells.byte?, if_pos (by omega), Int.toNat_natCast, UInt8.ofNat_toNat]

theorem fit_byte (b : UInt8) (m : Machine) (next : UInt8 → Watched) :
    fit b.toNat m next = noting (.byte b.toNat) (next b) := by
  rw [fit, byte?_toNat]
  rfl

/-- A register that is found is read. -/
theorem readRegister_of_ok (hx : Register.ofInt? x = .ok k) (m : Machine)
    (next : UInt8 → Watched) :
    readRegister x m next = noting (.cell .registers x) (next (m.register k)) := by
  have hread : Cells.read? m.registers x = .ok (m.register k) := congrArg (Except.map _) hx
  rw [readRegister, read, hread]
  rfl

/-- A register that is not found stops its reader. -/
theorem readRegister_of_error (hx : Register.ofInt? x = .error f) (m : Machine)
    (next : UInt8 → Watched) :
    readRegister x m next = noting (.cell .registers x) (ended (stopped m (.cell f))) := by
  have hread : Cells.read? m.registers x = .error f := congrArg (Except.map _) hx
  rw [readRegister, read, hread]
  rfl

/-- A register that is found is given the lowest byte of a number that fits. -/
theorem putRegister_of_ok (hx : Register.ofInt? x = .ok k) (h : 0 ≤ value ∧ value < 256)
    (m : Machine) (next : Machine → Watched) :
    putRegister x value m next =
      noting (.cell .registers x) (noting (.byte value) (next (m.setLowByte k value))) := by
  obtain ⟨n, rfl⟩ : ∃ n : Nat, value = n := ⟨value.toNat, by omega⟩
  have hlow : ((n : Int) % 256).toNat = n := by omega
  rw [putRegister, hx]
  simp only [attempt, fit_nat (n := n) (by omega), setLowByte, hlow]

theorem putRegister_byte (hx : Register.ofInt? x = .ok k) (b : UInt8) (m : Machine)
    (next : Machine → Watched) :
    putRegister x b.toNat m next =
      noting (.cell .registers x) (noting (.byte b.toNat) (next (m.setRegister k b))) := by
  rw [putRegister, hx]
  simp only [attempt, fit_byte]

/-- A register that is not found is not written either, whatever the number. -/
theorem putRegister_of_error (hx : Register.ofInt? x = .error f) (m : Machine)
    (next : Machine → Watched) :
    putRegister x value m next = noting (.cell .registers x) (ended (stopped m (.cell f))) := by
  rw [putRegister, hx]
  rfl

/-- A list that has a cell for each place of the room is put there. -/
theorem putSpan_of_length {α : Type} {size : Nat} (row : Row) (cells : Vector α size)
    (start count : Nat) {i stop : Int} {given : List α} (hi : i = start)
    (hstop : stop = (start + count : Nat)) (h : start + count ≤ size)
    (hlen : given.length = count) (m : Machine) (next : Vector α size → Watched) :
    putSpan row cells i stop given m next =
      noting (.span row i stop) (noting (.fill count count)
        (next (Cells.write cells start given))) := by
  subst hi hstop
  have hroom : Cells.bound size (start + count : Nat) - Cells.bound size start = count := by
    rw [Cells.bound_of_le size _ h, Cells.bound_of_le size start (by omega)]
    omega
  rw [putSpan, Cells.assign_of_length cells start count given h hlen, hroom, hlen]
  rfl

/-! ### What some instructions ask for -/

/-- A number that fits and a flag leave their bytes. -/
theorem putFlagged_of_ok (hx : Register.ofInt? x = .ok k) {flag : Int}
    (h : 0 ≤ value ∧ value < 256) (hflag : 0 ≤ flag ∧ flag < 256) (m : Machine) :
    putFlagged x value flag m =
      noting (.cell .registers x) (noting (.byte value)
        (noting (.cell .registers 15) (noting (.byte flag)
          (complete ((m.setLowByte k value).setLowByte flagRegister flag))))) := by
  rw [putFlagged, putRegister_of_ok hx h, putRegister_of_ok (k := flagRegister) rfl hflag]

/-- The lowest byte of a number is that of its lowest eight bits. -/
theorem setLowByte_mod (v : Int) (m : Machine) : m.setLowByte k (v % 256) = m.setLowByte k v := by
  rw [setLowByte, setLowByte, Int.emod_emod]

/-- What an operation on two registers asks for: these two, the flag, and bytes to put into them. -/
def AluAccess (x y : Int) : Access → Prop
  | .cell row index => row = .registers ∧ (index = x ∨ index = y ∨ index = 15)
  | .byte value => 0 ≤ value ∧ value < 256
  | _ => False

/-- An operation on two registers that are found. -/
theorem alu_of_ok {y : Int} {j : Register} (hx : Register.ofInt? x = .ok k)
    (hy : Register.ofInt? y = .ok j) (op : Alu) (m : Machine) :
    (alu op x y m).outcome = done (m.alu op k j) ∧ (alu op x y m).All (AluAccess x y) := by
  have hk := (m.register k).toNat_lt
  have hj := (m.register j).toNat_lt
  cases op with
  | move =>
    simp only [alu, readRegister_of_ok hy, putRegister_byte hx]
    exact ⟨rfl, by simp [AluAccess]; omega⟩
  | or | and | xor =>
    simp only [alu, readRegister_of_ok hx, readRegister_of_ok hy, putRegister_byte hx]
    refine ⟨rfl, ?_⟩
    simp only [all_noting, all_complete, AluAccess, byte_bounds, true_or, or_true, true_and]
  | add | sub | subFrom =>
    simp only [alu, readRegister_of_ok hx, readRegister_of_ok hy]
    rw [putFlagged_of_ok hx (by omega) (by split <;> omega)]
    refine ⟨?_, by simp [AluAccess]; split <;> omega⟩
    simp only [outcome_noting, outcome_complete, setLowByte_mod, Machine.alu, value]
    congr 1
    split
    next hflag => exact congrArg (setRegister flagRegister · _) (if_pos hflag).symm
    next hflag => exact congrArg (setRegister flagRegister · _) (if_neg hflag).symm
  | shiftRight | shiftLeft =>
    simp only [alu, readRegister_of_ok hy]
    rw [putFlagged_of_ok hx (by omega) (by omega)]
    refine ⟨?_, by simp [AluAccess]; omega⟩
    simp only [outcome_noting, outcome_complete, setLowByte_mod, Machine.alu, value]

/-- Where there is room for them, the digits of a register are stored as three bytes. -/
theorem storeDecimal_of_ok (hx : Register.ofInt? x = .ok k) {m : Machine}
    (hroom : InProgramMemory m.index 3) :
    let digits := decimalDigits (m.value k)
    storeDecimal x m =
      noting (.cell .registers x) (noting (.byte digits.1) (noting (.byte digits.2.1)
        (noting (.byte digits.2.2) (noting (.span .memory m.index (m.index + 3))
          (noting (.fill 3 3) (complete { m with
            memory := Cells.write m.memory m.index.toNat
              [UInt8.ofNat digits.1, UInt8.ofNat digits.2.1, UInt8.ofNat digits.2.2] })))))) := by
  intro digits
  obtain ⟨ha, hb, hc⟩ : digits.1 < 10 ∧ digits.2.1 < 10 ∧ digits.2.2 < 10 := decimalDigits_lt _
  have hdigits : decimalDigits (m.register k).toNat = digits := rfl
  obtain ⟨hlow, hhigh⟩ := inProgramMemory_iff.mp hroom
  rw [storeDecimal, if_neg (not_not_intro hroom), readRegister_of_ok hx]
  simp only [hdigits, fit_nat (n := digits.1) (by omega), fit_nat (n := digits.2.1) (by omega),
    fit_nat (n := digits.2.2) (by omega)]
  rw [putSpan_of_length .memory m.memory m.index.toNat 3 (by omega) (by omega) (by omega) rfl]

end Watched

end ChipEight
