import ChipEight.Proofs.Emulator.MachineStep
import ChipEight.Proofs.Machine.Nesting

/-!
# The call stack is a list

The cells of the stack below its pointer, read from the bottom, are a list of return addresses:
`Machine.frames`.  Entries above the pointer stay where they are, and the list does not show them.

A cycle that executes a call or a return to its end, and a reset, make a move of this list
(`Call.move?`); no other call makes one.  `simulates_next` says that each call does to the list what
its move says, and goes on where the move says, and `frames_after` puts the moves of a run together.
What `WellNested` says of moves is then true of the machine.
-/

namespace ChipEight

open Outcome Machine StackMove

namespace Machine

/-- The return addresses on the call stack, the latest last. -/
def frames (m : Machine) : List Int :=
  (m.stack.toList.take m.stackPointer.toNat).map fun a => (a.toNat : Int)

variable {m n : Machine}

/-- There are as many as the stack pointer says. -/
theorem length_frames (h : m.Bounded) : (m.frames.length : Int) = m.stackPointer := by
  have hsp := h.stackPointer
  simp only [frames, List.length_map, List.length_take, Vector.length_toList]
  omega

theorem length_frames_le (h : m.Bounded) : m.frames.length ≤ stackDepth := by
  have hlength := length_frames h
  have hsp := h.stackPointer
  rw [stackDepth]
  omega

theorem frames_of_same (h : Part.stack.Same m n) : n.frames = m.frames := by
  obtain ⟨hstack, hsp⟩ := h
  simp only [frames, hstack, hsp]

/-- One entry more is one address more. -/
theorem frames_succ {k : Nat} (hsp : m.stackPointer = (k + 1 : Nat)) (hk : k < 16) :
    m.frames =
      (m.stack.toList.take k).map (fun a => (a.toNat : Int)) ++ [(m.stack[k].toNat : Int)] := by
  have hlen : k < m.stack.toList.length := by simpa using hk
  simp only [frames, hsp, Int.toNat_natCast]
  rw [← List.take_append_getElem hlen, List.map_append]
  simp

/-- A call that completes appends the counter and goes to its target. -/
theorem frames_call (h : m.Bounded) {byte : UInt8} {a : Int}
    (hexec : (Instruction.call a).exec byte m = done n) :
    m.frames.length < stackDepth ∧ n.frames = m.frames ++ [m.counter] ∧ n.counter = a := by
  have haccepted := Instruction.refusal_of_done hexec
  simp only [Instruction.refusal] at haccepted
  split at haccepted
  · cases haccepted
  split at haccepted
  case isFalse => cases haccepted
  have hlength := length_frames h
  have hcounter := h.counter
  obtain ⟨k, hk, hlt⟩ := h.free_of_not_full ‹_›
  have hcall := call_of_lt hk hlt (by omega) ‹_›
  simp only [Instruction.exec, hcall] at hexec
  cases hexec
  refine ⟨by simp only [stackDepth]; omega, ?_, rfl⟩
  have hentry : (UInt16.ofNat m.counter.toNat).toNat = m.counter.toNat :=
    UInt16.toNat_ofNat_of_lt' (by simp only [UInt16.size]; omega)
  rw [frames_succ rfl hlt]
  simp only [Vector.toList_set, Vector.getElem_set_self, hentry]
  rw [List.take_set_of_le (Nat.le_refl k), frames, hk, Int.toNat_natCast]
  congr 2
  omega

/-- A return that completes takes the last address away and goes there. -/
theorem frames_ret (h : m.Bounded) {byte : UInt8} (hexec : Instruction.ret.exec byte m = done n) :
    m.frames = n.frames ++ [n.counter] := by
  have haccepted := Instruction.refusal_of_done hexec
  simp only [Instruction.refusal, ite_eq_right_iff, reduceCtorEq, imp_false] at haccepted
  obtain ⟨k, hk, hlt⟩ := h.top_of_ne_zero haccepted
  have hret := ret_of_pos hk hlt
  simp only [Instruction.exec, hret] at hexec
  cases hexec
  exact frames_succ hk hlt

/-- No other instruction touches the list. -/
theorem frames_of_untouched {byte : UInt8} {i : Instruction Register}
    (h : Part.stack ∉ i.touched) (hexec : i.exec byte m = done n) : n.frames = m.frames := by
  have hsame := Instruction.exec_same (m := m) byte h
  rw [hexec] at hsame
  exact frames_of_same hsame

end Machine

namespace Call

/-- The move that a call makes, if it makes one: a cycle that executes a call or a return to its
end, or a reset. -/
def move? (c : Call) (e : Emulator) : Option StackMove :=
  match c with
  | reset => some .clear
  | cycle delta =>
    match e.executed? delta with
    | some (.call a) => some (.enter e.machine.counter a)
    | some .ret => some .leave
    | _ => none
  | _ => none

/-- What a call leaves is what its move says, or the list is as it was. -/
def Simulates (move : Option StackMove) (m n : Machine) : Prop :=
  match move with
  | none => n.frames = m.frames
  | some move => move.perform? m.frames = some n.frames ∧
      ∀ a, move.landing? m.frames = some a → n.counter = a

variable {e : Emulator}

/-- **A cycle simulates its move.** -/
theorem simulates_cycle (h : e.Sound) (delta : Number) :
    Simulates ((cycle delta).move? e) e.machine (e.cycle delta).emulator.machine := by
  cases Emulator.machine_step h delta with
  | idle ticks hnone hafter =>
    rw [hafter]
    simp only [move?, hnone]
    exact frames_of_same (same_ticks ticks e.machine (by decide))
  | refused ticks hnone hwaiting hend hrefused hafter =>
    rw [hafter]
    simp only [move?, hnone]
    exact frames_of_same (same_ticked ticks e.machine (by decide))
  | executed ticks i hexecuted hwaiting hend hword hexec =>
    have hticked : (e.machine.ticked ticks).frames = e.machine.frames :=
      frames_of_same (same_ticked ticks e.machine (by decide))
    have hcounter : (e.machine.ticked ticks).counter = e.machine.counter + 2 := rfl
    have hbounded := (h.bounded.ticked ticks hend).toBounded
    cases i with
    | call a =>
      obtain ⟨hdepth, hframes, hlanding⟩ := frames_call hbounded hexec
      simp only [move?, hexecuted]
      rw [hticked] at hdepth hframes
      rw [hcounter] at hframes
      refine ⟨?_, fun a' ha' => ?_⟩
      · rw [perform?, if_pos hdepth, hframes]
      · cases ha'
        exact hlanding
    | ret =>
      have hframes := frames_ret hbounded hexec
      simp only [move?, hexecuted]
      rw [hticked] at hframes
      refine ⟨?_, fun a' ha' => ?_⟩
      · rw [hframes, perform?_leave_concat]
      · rw [hframes, landing?, List.getLast?_concat] at ha'
        exact Option.some.inj ha'
    | _ =>
      simp only [move?, hexecuted]
      exact (frames_of_untouched (by simp [Instruction.touched]) hexec).trans hticked

/-- **Every call simulates its move.** -/
theorem simulates_next (h : e.Sound) (c : Call) :
    Simulates (c.move? e) e.machine (c.next e).machine := by
  cases c with
  | reset =>
    rw [next_reset]
    exact ⟨rfl, fun a ha => by cases ha⟩
  | cycle delta => exact simulates_cycle h delta
  | load program | keyDown key | keyUp key | trace on | listen name =>
    exact frames_of_same (next_same (by simp [touched]))

end Call

namespace Emulator

variable {e : Emulator} {delta : Number} {due : Int}

/-- **A run simulates its moves.** -/
theorem frames_after (h : e.Sound) (calls : List Call) :
    performAll? (observed Call.move? calls e) e.machine.frames =
      some (e.after calls).machine.frames := by
  induction calls generalizing e with
  | nil => rfl
  | cons c calls ih =>
    have hstep := Call.simulates_next h c
    have hrest := ih (h.next c)
    rw [observed, after_cons]
    cases hmove : c.move? e with
    | none =>
      rw [hmove] at hstep
      rw [← hstep]
      exact hrest
    | some move =>
      rw [hmove] at hstep
      simp only [Option.toList_some, List.singleton_append, performAll?, hstep.1, Option.bind_some]
      exact hrest

/-- The moves are made by the words `2nnn` and `00EE` and by a reset. -/
theorem word_of_move? (c : Call) :
    (∀ site target, c.move? e = some (.enter site target) →
      site = e.machine.counter ∧ e.machine.word = 0x2000 + target) ∧
    (c.move? e = some .leave → e.machine.word = 0x00EE) ∧
    (c.move? e = some .clear → c = .reset) := by
  cases c with
  | cycle delta =>
    simp only [Call.move?]
    split
    next a hexecuted =>
      have hword := ofWord?_of_executed? hexecuted
      rw [Instruction.ofWord?_eq_call_iff e.machine.word_bounds] at hword
      simp_all
    next hexecuted =>
      have hword := ofWord?_of_executed? hexecuted
      rw [Instruction.ofWord?_eq_ret_iff e.machine.word_bounds] at hword
      simp_all
    next => simp
  | _ => simp [Call.move?]

/-- The stack pointer right after a fetch is that of before. -/
theorem stackPointer_ticked (h : e.Sound) (ticks : Nat) :
    (e.machine.ticked ticks).stackPointer = e.machine.frames.length := by
  have hstack : Part.stack.Same e.machine (e.machine.ticked ticks) :=
    same_ticked ticks e.machine (by decide)
  rw [hstack.2, length_frames h.bounded]

/-- A fetched call is accepted if there is room and its target is a place for an instruction. -/
theorem refusal_call_eq_none_iff (h : e.Sound) (ticks : Nat) (a : Int) :
    (Instruction.call a).refusal (e.machine.ticked ticks) = none ↔
      e.machine.frames.length < stackDepth ∧ InProgramMemory a 1 := by
  simp only [Instruction.refusal, stackPointer_ticked h, stackDepth]
  split
  next hfull =>
    refine iff_of_false (by simp) fun haccepted => ?_
    have hdepth := haccepted.1
    omega
  next hroom =>
    split
    next htarget => exact iff_of_true rfl ⟨by omega, htarget⟩
    next htarget => exact iff_of_false (by simp) fun haccepted => htarget haccepted.2

/-- A fetched return is accepted if there is an address to return to. -/
theorem refusal_ret_eq_none_iff (h : e.Sound) (ticks : Nat) :
    Instruction.ret.refusal (e.machine.ticked ticks) = none ↔ e.machine.frames ≠ [] := by
  simp [Instruction.refusal, stackPointer_ticked h]

/-- **When a call is made.**  A cycle that fetches `2nnn` makes the call or no move at all. -/
theorem move?_of_call (h : e.Sound) (htimed : Timed delta due e)
    (hwaiting : e.machine.waiting = false) (hend : e.machine.counter + 1 < 4096) {a : Int}
    (ha : 0 ≤ a ∧ a < 4096) (hword : e.machine.word = 0x2000 + a) :
    (Call.cycle delta).move? e =
      if e.machine.frames.length < stackDepth ∧ InProgramMemory a 1 then
        some (.enter e.machine.counter a)
      else none := by
  have hcall := (Instruction.ofWord?_eq_call_iff e.machine.word_bounds).mpr ⟨hword, ha⟩
  have hexecuted := executed?_eq h htimed hwaiting hend hcall
  simp only [refusal_call_eq_none_iff h] at hexecuted
  simp only [Call.move?, hexecuted]
  by_cases hroom : e.machine.frames.length < stackDepth ∧ InProgramMemory a 1
  · simp only [if_pos hroom]
  · simp only [if_neg hroom]

/-- **When a return is made.**  A cycle that fetches `00EE` returns or makes no move at all. -/
theorem move?_of_ret (h : e.Sound) (htimed : Timed delta due e)
    (hwaiting : e.machine.waiting = false) (hend : e.machine.counter + 1 < 4096)
    (hword : e.machine.word = 0x00EE) :
    (Call.cycle delta).move? e = if e.machine.frames = [] then none else some .leave := by
  have hret := (Instruction.ofWord?_eq_ret_iff e.machine.word_bounds).mpr hword
  have hexecuted := executed?_eq h htimed hwaiting hend hret
  simp only [refusal_ret_eq_none_iff h] at hexecuted
  simp only [Call.move?, hexecuted]
  by_cases hempty : e.machine.frames = []
  · simp [hempty]
  · simp [hempty]

/-- A well-nested run leaves the list as it was, and never reaches below it. -/
theorem frames_of_wellNested (h : e.Sound) {calls : List Call}
    (hnested : WellNested (observed Call.move? calls e)) :
    (e.after calls).machine.frames = e.machine.frames ∧
      ∀ before behind, calls = before ++ behind →
        e.machine.frames <+: (e.after before).machine.frames := by
  refine ⟨hnested.restores (frames_after h calls), ?_⟩
  rintro before behind rfl
  exact hnested.keeps (observed_append Call.move? before behind e) (frames_after h before)

/-- **A return goes behind its call.**  In a well-nested run each return has a call, with a
well-nested run between the two, and the program goes on with the instruction behind that call. -/
theorem return_of_wellNested (h : e.Sound) {before behind : List Call} {c : Call}
    (hnested : WellNested (observed Call.move? (before ++ c :: behind) e))
    (hleave : c.move? (e.after before) = some .leave) :
    ∃ earlier site inner target, before = earlier ++ site :: inner ∧
      site.move? (e.after earlier) = some (.enter (e.after earlier).machine.counter target) ∧
      WellNested (observed Call.move? inner (e.after (earlier ++ [site]))) ∧
      (e.after (before ++ [c])).machine.counter = (e.after earlier).machine.counter + 2 := by
  have hsplit : observed Call.move? (before ++ c :: behind) e =
      observed Call.move? before e ++
        .leave :: observed Call.move? behind (c.next (e.after before)) := by
    rw [observed_append, observed, hleave]
    rfl
  obtain ⟨earlierMoves, site, target, innerMoves, hbefore, hinner⟩ := hnested.matching hsplit
  obtain ⟨earlier, call, inner, rfl, -, henter, rfl⟩ := observed_split hbefore
  obtain ⟨rfl, -⟩ := (word_of_move? call).1 site target henter
  refine ⟨earlier, call, inner, target, rfl, henter, by simpa using hinner, ?_⟩
  have hmoves := frames_after h (earlier ++ call :: inner)
  rw [hbefore] at hmoves
  have hlast := getLast?_of_matching hinner hmoves
  have hreturn := Call.simulates_next (h.after (earlier ++ call :: inner)) c
  rw [hleave] at hreturn
  rw [after_append, after_cons, after_nil]
  exact hreturn.2 _ hlast

/-- **The call stack refines a list.**  After any calls to a new emulator:

* the addresses on the stack, as many as its pointer says, are what the moves of the run have made
  of an empty list, of at most sixteen levels;
* each further call does to the list what its move says and goes on where it says, or leaves the
  list alone if it makes no move;
* only `2nnn`, `00EE` and a reset make moves, and when they are fetched a call and a return make
  theirs exactly if there is room, and a place to go to;
* calls that are well nested, with whatever there is in between, leave the list as it was and never
  reach below it, and each return goes to the instruction behind the call that it belongs to. -/
theorem callStack_refines_list (random : RandomSource) (hasTone : Bool) (calls : List Call) :
    let e := (new random hasTone).after calls
    ((e.machine.frames.length : Int) = e.machine.stackPointer ∧
      e.machine.frames.length ≤ stackDepth) ∧
    performAll? (observed Call.move? calls (new random hasTone)) [] = some e.machine.frames ∧
    (∀ c : Call,
      (c.move? e = none → (c.next e).machine.frames = e.machine.frames) ∧
      ∀ move, c.move? e = some move →
        move.perform? e.machine.frames = some (c.next e).machine.frames ∧
        ∀ a, move.landing? e.machine.frames = some a → (c.next e).machine.counter = a) ∧
    (∀ c : Call,
      (∀ site target, c.move? e = some (.enter site target) →
        site = e.machine.counter ∧ e.machine.word = 0x2000 + target) ∧
      (c.move? e = some .leave → e.machine.word = 0x00EE) ∧
      (c.move? e = some .clear → c = .reset)) ∧
    (∀ delta due, Timed delta due e → e.machine.waiting = false →
      e.machine.counter + 1 < 4096 →
      (∀ a, 0 ≤ a ∧ a < 4096 → e.machine.word = 0x2000 + a →
        (Call.cycle delta).move? e =
          if e.machine.frames.length < stackDepth ∧ InProgramMemory a 1 then
            some (.enter e.machine.counter a)
          else none) ∧
      (e.machine.word = 0x00EE →
        (Call.cycle delta).move? e = if e.machine.frames = [] then none else some .leave)) ∧
    ∀ more, WellNested (observed Call.move? more e) →
      (e.after more).machine.frames = e.machine.frames ∧
      (∀ before behind, more = before ++ behind →
        e.machine.frames <+: (e.after before).machine.frames) ∧
      ∀ before c behind, more = before ++ c :: behind → c.move? (e.after before) = some .leave →
        ∃ earlier site inner target, before = earlier ++ site :: inner ∧
          site.move? (e.after earlier) = some (.enter (e.after earlier).machine.counter target) ∧
          WellNested (observed Call.move? inner (e.after (earlier ++ [site]))) ∧
          (e.after (before ++ [c])).machine.counter = (e.after earlier).machine.counter + 2 := by
  have h := sound_after random hasTone calls
  have hrun := frames_after (sound_new random hasTone) calls
  intro e
  refine ⟨⟨length_frames h.bounded, length_frames_le h.bounded⟩, hrun, ?_, word_of_move?, ?_, ?_⟩
  · intro c
    have hstep := Call.simulates_next h c
    refine ⟨fun hmove => ?_, fun move hmove => ?_⟩
    · rw [hmove] at hstep
      exact hstep
    · rw [hmove] at hstep
      exact hstep
  · intro delta due htimed hwaiting hend
    refine ⟨fun a ha hword => ?_, fun hword => ?_⟩
    · exact move?_of_call h htimed hwaiting hend ha hword
    · exact move?_of_ret h htimed hwaiting hend hword
  · intro more hnested
    obtain ⟨hrestored, hkept⟩ := frames_of_wellNested h hnested
    refine ⟨hrestored, hkept, ?_⟩
    rintro before c behind rfl hleave
    exact return_of_wellNested h hnested hleave

/-- A program calls a subroutine that returns at once, and goes on behind the call. -/
theorem callStack_refines_list_of_subroutine :
    ∃ e : Emulator,
      e = (new (.cycle #[]) true).after [.load [0x22, 0x04, 0x12, 0x02, 0x00, 0xEE]] ∧
      observed Call.move? [.cycle (.integer 0), .cycle (.integer 0)] e =
        [.enter 0x200 0x204, .leave] ∧
      (e.after [.cycle (.integer 0), .cycle (.integer 0)]).machine.frames = [] ∧
      (e.after [.cycle (.integer 0), .cycle (.integer 0)]).machine.counter = 0x202 := by
  have hrefines := callStack_refines_list (.cycle #[]) true
    [.load [0x22, 0x04, 0x12, 0x02, 0x00, 0xEE]]
  dsimp only at hrefines
  obtain ⟨e, he⟩ : ∃ e,
      e = (new (.cycle #[]) true).after [.load [0x22, 0x04, 0x12, 0x02, 0x00, 0xEE]] := ⟨_, rfl⟩
  rw [← he] at hrefines
  have hstart : e.machine.counter = 0x200 ∧ e.machine.frames = [] := by
    rw [he]
    decide +kernel
  have hmoves : observed Call.move? [.cycle (.integer 0), .cycle (.integer 0)] e =
      [.enter 0x200 0x204, .leave] := by
    rw [he]
    decide +kernel
  have hleave : (Call.cycle (.integer 0)).move? (e.after [.cycle (.integer 0)]) = some .leave := by
    rw [he]
    decide +kernel
  have hnested : WellNested (observed Call.move? [.cycle (.integer 0), .cycle (.integer 0)] e) := by
    rw [hmoves]
    exact .enclose 0x200 0x204 .nil .nil
  obtain ⟨hrestored, -, hreturns⟩ := hrefines.2.2.2.2.2 _ hnested
  obtain ⟨earlier, site, inner, target, hbefore, -, -, hcounter⟩ :=
    hreturns [.cycle (.integer 0)] _ [] rfl hleave
  have hfirst : earlier = [] := by
    cases earlier with
    | nil => rfl
    | cons c earlier => simp at hbefore
  rw [hfirst, after_nil, hstart.1] at hcounter
  exact ⟨e, he, hmoves, hrestored.trans hstart.2, hcounter⟩

end Emulator

end ChipEight
