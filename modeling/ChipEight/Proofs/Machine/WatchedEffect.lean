import ChipEight.Proofs.Machine.Watched

/-!
# Watching changes nothing

Watching draws a sprite pixel by pixel, and looks for a register whenever it is read or written,
where the effect of an instruction looks for all its operands first and draws whole bytes.  Still
nothing else comes of it.  `outcome_watch` says that watching an instruction does not change its
effect, for any machine and any operands, found or not.
-/

namespace ChipEight

namespace Watched

open Outcome Machine

variable {x : Int}

/-- What stops an attempt stops the machine. -/
@[simp] theorem outcome_attempt {α : Type} (m : Machine) (r : Except CellFault α)
    (next : α → Watched) :
    (attempt m r next).outcome = attemptCell m r fun a => (next a).outcome := by
  cases r <;> rfl

/-- Reading a register goes on with the register that is found. -/
theorem outcome_readRegister (x : Int) (m : Machine) (next : UInt8 → Watched) :
    (readRegister x m next).outcome =
      attemptCell m (Register.ofInt? x) fun k => (next (m.register k)).outcome := by
  cases hx : Register.ofInt? x with
  | error f => rw [readRegister_of_error hx]; rfl
  | ok k => rw [readRegister_of_ok hx]; rfl

/-- Writing one goes on with the number in it, if that fits. -/
theorem outcome_putRegister (x value : Int) (m : Machine) (next : Machine → Watched) :
    (putRegister x value m next).outcome =
      attemptCell m (Register.ofInt? x) fun k =>
        attemptCell m (Cells.byte? value) fun b => (next (m.setRegister k b)).outcome := by
  simp only [putRegister, fit, outcome_noting, outcome_attempt]

/-- The key that a register names is looked for only where there is one. -/
theorem outcome_readKey (x : Int) (m : Machine) (next : Bool → Watched) :
    (readKey x m next).outcome =
      attemptCell m (Register.ofInt? x) fun k =>
        Outcome.attempt m (m.key? k) fun down => (next down).outcome := by
  have hkey (k : Register) : (if 15 < (m.register k).toNat then
        ended (stopped m (.input (.key (m.register k).toNat)))
      else read .keys m.keys (m.register k).toNat m next).outcome =
        Outcome.attempt m (m.key? k) fun down => (next down).outcome := by
    by_cases hkey : 15 < (m.register k).toNat
    · rw [if_pos hkey, key?_of_gt (by simp only [Machine.value]; omega)]
      rfl
    · have hlt : (m.register k).toNat < 16 := by omega
      have hread := Cells.read?_of_lt m.keys hlt
      rw [if_neg hkey, read, hread, key?, Vector.getElem?_eq_getElem hlt]
      rfl
  simp only [readKey, outcome_readRegister, hkey]

theorem outcome_ret (m : Machine) : (ret m).outcome = m.ret := by
  unfold ret Machine.ret
  split <;> simp [read]

theorem outcome_call (address : Int) (m : Machine) : (call address m).outcome = m.call address := by
  unfold call Machine.call
  split
  · rfl
  split <;> simp [Cells.set_eq_setIfInBounds]

theorem outcome_jumpPlus (address : Int) (m : Machine) :
    (jumpPlus address m).outcome = m.jumpPlus address := by
  rw [jumpPlus, readRegister_of_ok (k := offsetRegister) rfl, Machine.jumpPlus]
  simp only [outcome_noting, value, apply_ite Watched.outcome]
  rfl

/-- The registers of an operation are found both, or the first that is missed stops it. -/
theorem alu_cases {y : Int} (op : Alu) (m : Machine) :
    (∃ k j, Register.ofInt? x = .ok k ∧ Register.ofInt? y = .ok j ∧
      (Instruction.alu op x y).locate Register.ofInt? = .ok (.alu op k j)) ∨
    ∃ f, (Instruction.alu op x y).locate Register.ofInt? = .error f ∧
      (alu op x y m).outcome = stopped m (.cell f) := by
  cases hx : Register.ofInt? x <;> cases hy : Register.ofInt? y <;> cases op <;>
    simp [Instruction.locate, Instruction.locateBoth, Alu.readsTarget, Except.bind, Except.map, alu,
      putFlagged, readRegister_of_ok, readRegister_of_error, putRegister_of_error, hx, hy]

/-- An operation on two registers has its effect. -/
theorem outcome_alu (byte : UInt8) (op : Alu) (x y : Int) (m : Machine) :
    (alu op x y m).outcome = (Instruction.alu op x y).effect byte m := by
  have heffect : (Instruction.alu op x y).effect byte m =
      attemptCell m ((Instruction.alu op x y).locate Register.ofInt?) fun i => i.exec byte m := rfl
  obtain ⟨k, j, hx, hy, hfound⟩ | ⟨f, hmissed, houtcome⟩ := alu_cases (x := x) (y := y) op m
  · rw [heffect, hfound, (alu_of_ok hx hy op m).1]
    rfl
  · rw [heffect, hmissed, houtcome]
    rfl

/-! ### Drawing -/

/-- Bits are drawn one after the other. -/
theorem outcome_drawBits (byte : UInt8) (row column : Nat) (bits : List Nat) (hit : Bool)
    (m : Machine) (next : Bool → Machine → Watched) :
    let drawn := m.display.drawBits byte (Display.rowAt row) column bits
    (drawBits byte ((row : Int) % 32) column bits hit m next).outcome =
      (next (hit || drawn.2) { m with display := drawn.1 }).outcome := by
  induction bits generalizing hit m with
  | nil => simp [drawBits, Display.drawBits]
  | cons bit bits ih =>
    have hrow : Cells.index? 32 ((row : Int) % 32) = .ok (Display.rowAt row) :=
      Cells.index?_of_lt (k := row % 32) (by omega)
    have hcolumn : Cells.index? 64 (((column : Int) + bit) % 64) =
        .ok (Display.columnAt (column + bit)) :=
      Cells.index?_of_lt (k := (column + bit) % 64) (by omega)
    simp only [drawBits, flipPixel, outcome_noting, hrow, hcolumn, attempt, ih, Display.drawBits,
      Bool.or_assoc]

/-- A sprite is drawn byte by byte. -/
theorem outcome_drawBytes (column row : Nat) (sprite : List UInt8) (hit : Bool) (m : Machine)
    (next : Bool → Machine → Watched) :
    let drawn := m.display.draw column sprite row
    (drawBytes column sprite row hit m next).outcome =
      (next (hit || drawn.2) { m with display := drawn.1 }).outcome := by
  induction sprite generalizing row hit m with
  | nil => simp [drawBytes, Display.draw]
  | cons byte rest ih =>
    have hnext : (row : Int) + 1 = (row + 1 : Nat) := rfl
    simp only [drawBytes, outcome_drawBits, hnext, ih, Display.draw_cons, Bool.or_assoc]

/-- A sprite is drawn where it fits, and the flag is set at the end. -/
theorem outcome_drawSprite (x y height : Int) (m : Machine) :
    (drawSprite x y height m).outcome =
      attemptCell m (Register.ofInt? x) fun k =>
        attemptCell m (Register.ofInt? y) fun j => m.drawSprite k j height := by
  have hflag (hit : Bool) (m : Machine) : (putRegister 15 (if hit then 1 else 0) m complete).outcome =
      done (m.setRegister flagRegister (if hit then 1 else 0)) := by
    cases hit <;> rfl
  simp only [drawSprite, Machine.drawSprite, outcome_readRegister, apply_ite Watched.outcome,
    outcome_ended, readSpan, outcome_noting, outcome_drawBytes, hflag, Bool.false_or]

/-! ### Memory and keys -/

/-- Only a key that was taken needs its register. -/
theorem outcome_waitKey (x : Int) (m : Machine) : (waitKey x m).outcome = m.waitKeyAt x := by
  unfold waitKey waitKeyAt
  cases hkey : m.pendingKey with
  | none => rfl
  | some key =>
    simp only [putRegister, fit, outcome_noting, outcome_attempt, outcome_complete, Machine.waitKey,
      hkey]

theorem outcome_storeDecimal (x : Int) (m : Machine) :
    (storeDecimal x m).outcome = m.storeDecimalAt x := by
  by_cases hroom : InProgramMemory m.index 3
  · rw [storeDecimalAt, if_neg (not_not_intro hroom)]
    cases hx : Register.ofInt? x with
    | error f =>
      rw [storeDecimal, if_neg (not_not_intro hroom), readRegister_of_error hx]
      rfl
    | ok k =>
      rw [storeDecimal_of_ok hx hroom, attemptCell_ok, Machine.storeDecimal,
        if_neg (not_not_intro hroom)]
      rfl
  · rw [storeDecimal, if_pos hroom, storeDecimalAt, if_pos hroom]
    rfl

theorem outcome_saveThrough (last : Int) (m : Machine) :
    (saveThrough last m).outcome = m.saveThrough last := by
  unfold saveThrough Machine.saveThrough
  split
  · rfl
  · simp only [readSpan, putSpan, outcome_noting, outcome_attempt, outcome_complete]

theorem outcome_restoreThrough (last : Int) (m : Machine) :
    (restoreThrough last m).outcome = m.restoreThrough last := by
  unfold restoreThrough Machine.restoreThrough
  split
  · rfl
  · simp only [readSpan, putSpan, outcome_noting, outcome_attempt, outcome_complete]

end Watched

namespace Instruction

open Outcome Machine Watched

variable {x : Int} {m : Machine}

/-- The effect of an instruction with one register is that of the register that is found. -/
theorem attemptCell_map {α β : Type} (r : Except CellFault α) (make : α → β) (next : β → Outcome) :
    attemptCell m (r.map make) next = attemptCell m r fun a => next (make a) := by
  cases r <;> rfl

theorem attemptCell_bind {α β : Type} (r : Except CellFault α) (make : α → Except CellFault β)
    (next : β → Outcome) :
    attemptCell m (r.bind make) next = attemptCell m r fun a => attemptCell m (make a) next := by
  cases r <;> rfl

/-- **Watching an instruction does not change its effect.** -/
theorem outcome_watch (byte : UInt8) (m : Machine) (i : Instruction Int) :
    (i.watch byte m).outcome = i.effect byte m := by
  cases i with
  | clear | system a | jump a | loadIndex a => rfl
  | ret => exact outcome_ret m
  | call a => exact outcome_call a m
  | jumpPlus a => exact outcome_jumpPlus a m
  | alu op x y => exact outcome_alu byte op x y m
  | waitKey x => exact outcome_waitKey x m
  | storeDecimal x => exact outcome_storeDecimal x m
  | saveRegisters last => exact outcome_saveThrough last m
  | restoreRegisters last => exact outcome_restoreThrough last m
  | skipIfByte x b | skipUnlessByte x b | setDelay x | setSound x | addIndex x | loadGlyph x =>
    simp only [effect, locate, attemptCell_map]
    exact outcome_readRegister x m _
  | skipIfEqual x y | skipUnlessEqual x y =>
    simp only [watch, effect, locate, locateBoth, attemptCell_bind, attemptCell_map,
      outcome_readRegister]
    rfl
  | loadByte x b | readDelay x =>
    simp only [watch, effect, locate, attemptCell_map, outcome_putRegister]
    rfl
  | addByte x b =>
    cases hx : Register.ofInt? x with
    | error f =>
      simp only [watch, readRegister_of_error hx, effect, locate, hx]
      rfl
    | ok k =>
      simp only [watch, readRegister_of_ok hx, effect, locate, hx]
      rw [putRegister_of_ok hx (by omega), setLowByte_mod]
      rfl
  | random x mask =>
    simp only [watch, effect, locate, attemptCell_map, outcome_putRegister, byte?_toNat]
    rfl
  | skipIfKey x | skipUnlessKey x =>
    simp only [watch, effect, locate, attemptCell_map, outcome_readKey]
    rfl
  | draw x y height =>
    simp only [watch, effect, locate, locateBoth, attemptCell_bind, attemptCell_map,
      outcome_drawSprite]
    rfl

end Instruction

end ChipEight
