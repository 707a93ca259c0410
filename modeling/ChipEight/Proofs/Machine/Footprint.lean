import ChipEight.Machine.Execution

/-!
# What an instruction can change

The state of the machine falls into ten parts.  `Instruction.touched` lists the parts that an
instruction may change, and `exec_same` says that every other part is the same afterwards, whether
the instruction completes or not.  Nothing is assumed about the machine or about the operands.

The keypad is in no list: keys are pressed and released from outside only.
-/

namespace ChipEight

/-- The parts of the state of the machine. -/
inductive Part where
  | memory
  | registers
  | index
  | delayTimer
  | soundTimer
  | counter
  /-- The call stack with its pointer. -/
  | stack
  | display
  | keys
  /-- Whether a key is waited for, and the key that was pressed for it. -/
  | keyWait
  deriving DecidableEq, Repr

/-- A part is the same in two machines. -/
def Part.Same (m n : Machine) : Part → Prop
  | memory => n.memory = m.memory
  | registers => n.registers = m.registers
  | index => n.index = m.index
  | delayTimer => n.delayTimer = m.delayTimer
  | soundTimer => n.soundTimer = m.soundTimer
  | counter => n.counter = m.counter
  | stack => n.stack = m.stack ∧ n.stackPointer = m.stackPointer
  | display => n.display = m.display
  | keys => n.keys = m.keys
  | keyWait => n.waiting = m.waiting ∧ n.pendingKey = m.pendingKey

namespace Part

theorem Same.refl (m : Machine) (p : Part) : p.Same m m := by
  cases p <;> simp [Same]

theorem Same.trans {m n k : Machine} {p : Part} (h : p.Same m n) (h' : p.Same n k) :
    p.Same m k := by
  cases p <;> simp_all [Same]

end Part

namespace Instruction

/-- The parts of the machine that an instruction may change. -/
def touched {ρ : Type} : Instruction ρ → List Part
  | clear => [.display]
  | ret | call _ => [.stack, .counter]
  | system _ => []
  | jump _ | jumpPlus _ => [.counter]
  | skipIfByte .. | skipUnlessByte .. | skipIfEqual .. | skipUnlessEqual .. => [.counter]
  | skipIfKey _ | skipUnlessKey _ => [.counter]
  | loadByte .. | addByte .. | alu .. | random .. | readDelay _ => [.registers]
  | loadIndex _ | addIndex _ | loadGlyph _ => [.index]
  | draw .. => [.display, .registers]
  | waitKey _ => [.keyWait, .counter, .registers]
  | setDelay _ => [.delayTimer]
  | setSound _ => [.soundTimer]
  | storeDecimal _ => [.memory]
  | saveRegisters _ => [.memory, .index]
  | restoreRegisters _ => [.registers, .index]

end Instruction

namespace Machine

open Outcome

variable {m n : Machine} {p : Part}

/-- The values of registers depend on the registers only. -/
theorem value_of_same (h : Part.registers.Same m n) (x : Register) : n.value x = m.value x := by
  have hregisters : n.registers = m.registers := h
  simp only [value, register, hregisters]

/-- A skip moves the counter only. -/
theorem same_skipIf (condition : Bool) (h : p ∉ [.counter]) : p.Same m (m.skipIf condition) := by
  cases condition
  · exact .refl m p
  · cases p <;> simp_all [Part.Same, skipIf, skip]

/-- An operation on two registers changes registers only. -/
theorem same_alu (op : Alu) (x y : Register) (h : p ∉ [.registers]) :
    p.Same m (m.alu op x y) := by
  cases op <;> cases p <;> simp_all [Part.Same, alu, setRegister, setLowByte]

/-- Ticks change the timers only. -/
theorem same_ticks (k : Nat) (m : Machine) (h : p ∉ [.delayTimer, .soundTimer]) :
    p.Same m (m.ticks k) := by
  induction k generalizing m with
  | zero => exact .refl m p
  | succ k ih =>
    have htick : p.Same m m.tick := by
      cases p <;> simp_all [Part.Same, tick]
    exact htick.trans (ih m.tick)

/-- Loading a program fills memory and sets the counter. -/
theorem same_load {program : List UInt8} (hload : m.load program = .ok n)
    (h : p ∉ [.memory, .counter]) : p.Same m n := by
  unfold load at hload
  split at hload <;> cases hload
  cases p <;> simp_all [Part.Same]

/-- What goes on with a value changes as much as the rest does. -/
theorem same_attempt {α : Type} (r : Except Fault α) {next : α → Outcome} (hstop : p.Same m n)
    (h : ∀ a, p.Same m (next a).machine) : p.Same m (attempt n r next).machine := by
  cases r with
  | error f => exact hstop
  | ok a => exact h a

theorem same_attemptCell {α : Type} (r : Except CellFault α) {next : α → Outcome}
    (hstop : p.Same m n) (h : ∀ a, p.Same m (next a).machine) :
    p.Same m (attemptCell n r next).machine :=
  same_attempt _ hstop h

/-- A return may pop the stack, also where it then fails to find the entry. -/
theorem same_ret (h : p ∉ [.stack, .counter]) : p.Same m m.ret.machine := by
  have hpop : p.Same m { m with stackPointer := m.stackPointer - 1 } := by
    cases p <;> simp_all [Part.Same]
  unfold ret
  split
  · exact .refl m p
  · refine same_attemptCell _ hpop fun address => ?_
    cases p <;> simp_all [Part.Same, Outcome.machine]

theorem same_call (a : Int) (h : p ∉ [.stack, .counter]) : p.Same m (m.call a).machine := by
  unfold call
  split
  · exact .refl m p
  split
  · exact .refl m p
  refine same_attemptCell _ (.refl m p) fun top => same_attemptCell _ (.refl m p) fun here => ?_
  cases p <;> simp_all [Part.Same, Outcome.machine]

/-- The wait for a key may end or begin, also where the key then fits into no register. -/
theorem same_waitKey (x : Register) (h : p ∉ [.keyWait, .counter, .registers]) :
    p.Same m (m.waitKey x).machine := by
  unfold waitKey
  split
  · have htake : p.Same m m.takeKey := by
      cases p <;> simp_all [Part.Same, takeKey]
    refine same_attemptCell _ htake fun b => ?_
    cases p <;> simp_all [Part.Same, Outcome.machine, takeKey, setRegister]
  · cases p <;> simp_all [Part.Same, Outcome.machine, awaitKey]

end Machine

namespace Instruction

open Outcome Machine

variable {m : Machine} {p : Part}

/-- **The footprint of an instruction.**  What it does not list is the same afterwards. -/
theorem exec_same (byte : UInt8) {i : Instruction Register} (h : p ∉ i.touched) :
    p.Same m (i.exec byte m).machine := by
  cases i with
  | ret => exact same_ret h
  | call a => exact same_call a h
  | waitKey x => exact same_waitKey x h
  | alu op x y => exact same_alu op x y h
  | skipIfByte x b | skipUnlessByte x b | skipIfEqual x y | skipUnlessEqual x y =>
    exact same_skipIf _ h
  | skipIfKey x | skipUnlessKey x =>
    exact same_attempt _ (.refl m p) fun down => same_skipIf _ h
  | loadByte x b | readDelay x =>
    refine same_attemptCell _ (.refl m p) fun b => ?_
    cases p <;> simp_all [Part.Same, touched, Outcome.machine, setRegister]
  | loadGlyph x =>
    refine same_attempt _ (.refl m p) fun a => ?_
    cases p <;> simp_all [Part.Same, touched, Outcome.machine]
  | jumpPlus a =>
    simp only [exec, Machine.jumpPlus]
    split
    · exact .refl m p
    split
    · exact .refl m p
    cases p <;> simp_all [Part.Same, touched, Outcome.machine]
  | draw x y height | storeDecimal x | saveRegisters x | restoreRegisters x =>
    simp only [exec, drawSprite, Machine.storeDecimal, Machine.saveRegisters,
      Machine.restoreRegisters]
    split
    · exact .refl m p
    cases p <;> simp_all [Part.Same, touched, Outcome.machine, setRegister]
  | clear | system a | jump a | addByte x b | loadIndex a | random x mask | setDelay x | setSound x
    | addIndex x =>
    cases p <;> simp_all [Part.Same, touched, exec, Outcome.machine, setRegister, setLowByte]

end Instruction

end ChipEight
