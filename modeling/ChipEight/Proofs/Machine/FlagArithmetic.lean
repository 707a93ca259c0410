import ChipEight.Proofs.Instruction.Assembler
import ChipEight.Proofs.Machine.WordFootprint

/-!
# Result and flag

Five operations on two registers can leave more than fits into a byte, and put what is left over into the
flag register.  `Alu.Balances` is the balance of each: what goes in is what comes out, if result and flag
are taken together.  Adding and subtracting flag that nothing was carried or borrowed; the subtraction the
other way round flags that something was.  Every two bytes are balanced by one byte and one bit, and by no
others (`Alu.exists_balances`, `Alu.Balances.unique`), so the balance leaves nothing open.

Both registers are read before one is written, and the flag is written last.  So it does not matter which
registers are named: the result goes into the target, then the flag into the flag register
(`Machine.alu_of_balances`), and if these two are one, the flag is what it holds in the end.
-/

namespace ChipEight

namespace Alu

/-- How an operation with a flag accounts for two values by its result and its flag. -/
def Balances : Alu → (vx vy result flag : Int) → Prop
  | add, vx, vy, result, flag => vx + vy = result + 256 * (1 - flag)
  | sub, vx, vy, result, flag => vx - vy = result - 256 * (1 - flag)
  | subFrom, vx, vy, result, flag => vy - vx = result - 256 * flag
  | shiftRight, _, vy, result, flag => vy = 2 * result + flag
  | shiftLeft, _, vy, result, flag => 2 * vy = 256 * flag + result
  | move, _, _, _, _ | or, _, _, _, _ | and, _, _, _, _ | xor, _, _, _, _ => False

variable {op : Alu} {vx vy result flag : Int}

/-- Every two bytes are balanced by a byte and a bit. -/
theorem exists_balances (hop : op.flags = true) (hx : 0 ≤ vx ∧ vx ≤ 255) (hy : 0 ≤ vy ∧ vy ≤ 255) :
    ∃ result flag : Int, (0 ≤ result ∧ result ≤ 255) ∧ (flag = 0 ∨ flag = 1) ∧
      op.Balances vx vy result flag := by
  cases op with
  | move | or | and | xor => cases hop
  | add => exact ⟨(vx + vy) % 256, 1 - (vx + vy) / 256, by omega, by omega, by dsimp [Balances]; omega⟩
  | sub => exact ⟨(vx - vy) % 256, 1 + (vx - vy) / 256, by omega, by omega, by dsimp [Balances]; omega⟩
  | subFrom => exact ⟨(vy - vx) % 256, -((vy - vx) / 256), by omega, by omega, by dsimp [Balances]; omega⟩
  | shiftRight => exact ⟨vy / 2, vy % 2, by omega, by omega, by dsimp [Balances]; omega⟩
  | shiftLeft => exact ⟨2 * vy % 256, vy / 128, by omega, by omega, by dsimp [Balances]; omega⟩

/-- No other byte and bit balance them. -/
theorem Balances.unique {result' flag' : Int} (h : op.Balances vx vy result flag)
    (hresult : 0 ≤ result ∧ result ≤ 255) (hflag : flag = 0 ∨ flag = 1)
    (h' : op.Balances vx vy result' flag') (hresult' : 0 ≤ result' ∧ result' ≤ 255)
    (hflag' : flag' = 0 ∨ flag' = 1) : result' = result ∧ flag' = flag := by
  cases op <;> dsimp only [Balances] at h h' <;> omega

end Alu

namespace Machine

open Alu Outcome Instruction

variable {op : Alu} {m : Machine} {x y : Register} {result flag : Int}

/-- Of a number only its remainder by 256 is put into a register. -/
theorem setLowByte_congr {v w : Int} (h : v % 256 = w % 256) (x : Register) (m : Machine) :
    m.setLowByte x v = m.setLowByte x w := by
  rw [setLowByte, setLowByte, h]

/-- A register that is given a number which is a byte holds this number. -/
theorem value_setLowByte (x : Register) {v : Int} (h : 0 ≤ v ∧ v ≤ 255) (m : Machine) :
    (m.setLowByte x v).value x = v := by
  have hbyte : (UInt8.ofNat (v % 256).toNat).toNat = (v % 256).toNat :=
    UInt8.toNat_ofNat_of_lt' (by simp only [UInt8.size]; omega)
  rw [value, setLowByte, register_setRegister_self, hbyte]
  omega

/-- **Result, then flag.**  What balances the values of two registers is what the operation leaves. -/
theorem alu_of_balances (h : op.Balances (m.value x) (m.value y) result flag)
    (hresult : 0 ≤ result ∧ result ≤ 255) (hflag : flag = 0 ∨ flag = 1) :
    m.alu op x y = (m.setLowByte x result).setLowByte flagRegister flag := by
  have hx := m.value_bounds x
  have hy := m.value_bounds y
  have hput {v f : Int} (hv : v % 256 = result % 256) (hf : f % 256 = flag % 256) :
      (m.setLowByte x v).setLowByte flagRegister f =
        (m.setLowByte x result).setLowByte flagRegister flag := by
    rw [setLowByte_congr hv, setLowByte_congr hf]
  cases op with
  | move | or | and | xor => exact h.elim
  | add =>
    dsimp only [Balances] at h
    dsimp only [alu]
    split
    next hcarry => exact hput (f := 0) (by omega) (by omega)
    next hcarry => exact hput (f := 1) (by omega) (by omega)
  | sub =>
    dsimp only [Balances] at h
    dsimp only [alu]
    split
    next hborrow => exact hput (f := 0) (by omega) (by omega)
    next hborrow => exact hput (f := 1) (by omega) (by omega)
  | subFrom =>
    dsimp only [Balances] at h
    dsimp only [alu]
    split
    next hborrow => exact hput (f := 1) (by omega) (by omega)
    next hborrow => exact hput (f := 0) (by omega) (by omega)
  | shiftRight | shiftLeft =>
    dsimp only [Balances] at h
    exact hput (by omega) (by omega)

/-- **Arithmetic with a flag.**  A word `8xy4`, `8xy5`, `8xy6`, `8xy7` or `8xyE` is executed to its end in
every machine and for any two registers, the same one twice or the flag register included.  There are one
byte and one bit that balance the values before.  Afterwards the flag register holds the bit, even if it
is the target, and any other target holds the byte.  No third register is different, nor any other part of
the machine, and no random byte is drawn. -/
theorem runWord_arithmetic (hop : op.flags = true) (m : Machine) (x y : Register)
    (source : RandomSource) :
    ∃ after result flag,
      m.runWord (0x8000 + 0x100 * x.val + 0x10 * y.val + op.digit) source =
        (done after, source) ∧
      (0 ≤ result ∧ result ≤ 255) ∧ (flag = 0 ∨ flag = 1) ∧
      op.Balances (m.value x) (m.value y) result flag ∧
      (∀ result' flag', (0 ≤ result' ∧ result' ≤ 255) → (flag' = 0 ∨ flag' = 1) →
        op.Balances (m.value x) (m.value y) result' flag' → result' = result ∧ flag' = flag) ∧
      after.value flagRegister = flag ∧
      (x ≠ flagRegister → after.value x = result) ∧
      (∀ z, z ≠ x → z ≠ flagRegister → after.register z = m.register z) ∧
      ∀ p : Part, p ≠ .registers → p.Same m after := by
  obtain ⟨result, flag, hresult, hflag, hbalances⟩ :=
    exists_balances hop (m.value_bounds x) (m.value_bounds y)
  have hdigit : op.digit < 16 := by cases op <;> decide
  have hword : ofWord? (Instruction.alu op x y).word = some (.alu op x y) :=
    ofWord?_word (f := ⟨⟨8, by decide⟩, x, y, ⟨op.digit, hdigit⟩⟩) ⟨rfl, rfl, rfl, rfl⟩
  have halu := alu_of_balances hbalances hresult hflag
  refine ⟨m.alu op x y, result, flag, ?_, hresult, hflag, hbalances, ?_, ?_, ?_, ?_, ?_⟩
  · exact runWord_of_some hword source
  · intro result' flag' hresult' hflag' hbalances'
    exact hbalances.unique hresult hflag hbalances' hresult' hflag'
  · rw [halu]
    exact value_setLowByte flagRegister (by omega) _
  · intro hx
    have hkept : (m.alu op x y).register x = (m.setLowByte x result).register x := by
      rw [halu]
      exact register_setRegister_of_ne hx _ _
    rw [value, hkept]
    exact value_setLowByte x hresult m
  · intro z hz hflagged
    exact register_alu hz (fun h => hflagged h.2) y m
  · intro p hp
    exact same_alu op x y (mt List.mem_singleton.mp hp)

/-- Where the flag register is the target, it holds the flag: 200 plus 100 is carried, and flagged by
zero. -/
theorem runWord_arithmetic_of_flag_target :
    Alu.add.flags = true ∧
    ∃ after, (runWord 0x8F14 (.cycle #[])
        { registers := (Vector.replicate 16 0).set 1 100 |>.set 15 200 }).1 = done after ∧
      after.value flagRegister = 0 := by
  obtain ⟨after, result, flag, hrun, hresult, hflag, hbalances, -, hvalue, -⟩ :=
    runWord_arithmetic (rfl : Alu.add.flags = true)
      { registers := (Vector.replicate 16 0).set 1 100 |>.set 15 200 }
      flagRegister ⟨1, by decide⟩ (.cycle #[])
  refine ⟨rfl, after, congrArg Prod.fst hrun, ?_⟩
  have hbalance : (200 + 100 : Int) = result + 256 * (1 - flag) := hbalances
  omega

end Machine

end ChipEight
