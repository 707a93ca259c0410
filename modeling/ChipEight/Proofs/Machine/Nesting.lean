/-!
# Calls and returns as brackets

The call stack of the machine is a row of cells and a pointer.  What a program sees of it is a list
of at most sixteen addresses: a call appends the address behind it, a return takes the last one away
and goes there.  `StackMove` has the moves of such a list, and `StackMove.perform?` makes one where
that is possible.

Calls and returns are well nested if every return has a call and every call a return, as brackets
have.  Well-nested moves leave the list as it was (`WellNested.restores`), never reach below what
was on it (`WellNested.keeps`), and a return among them takes away the address of the call that it
belongs to (`WellNested.matching`, `getLast?_of_matching`).
-/

namespace ChipEight

/-- The levels of calls that there is room for. -/
def stackDepth : Nat := 16

/-- What can happen to the list of return addresses. -/
inductive StackMove where
  /-- A call, from one address to another. -/
  | enter (site target : Int)
  | leave
  /-- Everything is forgotten. -/
  | clear
  deriving DecidableEq, Repr

namespace StackMove

/-- The list after a move, unless it is full or empty. -/
def perform? : StackMove → List Int → Option (List Int)
  | enter site _, frames => if frames.length < stackDepth then some (frames ++ [site + 2]) else none
  | leave, frames => if frames = [] then none else some frames.dropLast
  | clear, _ => some []

/-- Where the program goes on after a call or a return. -/
def landing? : StackMove → List Int → Option Int
  | enter _ target, _ => some target
  | leave, frames => frames.getLast?
  | clear, _ => none

/-- The list after several moves. -/
def performAll? : List StackMove → List Int → Option (List Int)
  | [], frames => some frames
  | move :: rest, frames => (move.perform? frames).bind (performAll? rest)

theorem performAll?_append (moves more : List StackMove) (frames : List Int) :
    performAll? (moves ++ more) frames = (performAll? moves frames).bind (performAll? more) := by
  induction moves generalizing frames with
  | nil => rfl
  | cons move moves ih =>
    simp only [List.cons_append, performAll?]
    cases move.perform? frames with
    | none => rfl
    | some next => exact ih next

/-- A first part of possible moves is possible. -/
theorem performAll?_append_inv {moves more : List StackMove} {frames last : List Int}
    (h : performAll? (moves ++ more) frames = some last) :
    ∃ middle, performAll? moves frames = some middle ∧ performAll? more middle = some last := by
  rw [performAll?_append] at h
  exact Option.bind_eq_some_iff.mp h

/-- A possible call appends the address behind it. -/
theorem perform?_enter_inv {site target : Int} {frames next : List Int}
    (h : (enter site target).perform? frames = some next) : next = frames ++ [site + 2] := by
  simp only [perform?] at h
  split at h <;> cases h
  rfl

/-- A return takes the last address away. -/
theorem perform?_leave_concat (frames : List Int) (a : Int) :
    leave.perform? (frames ++ [a]) = some frames := by
  simp [perform?]

end StackMove

open StackMove

/-- Every return has a call before it, and every call a return after it. -/
inductive WellNested : List StackMove → Prop
  | nil : WellNested []
  /-- A call with what it encloses, its return, and what follows. -/
  | enclose (site target : Int) {inner rest : List StackMove} (hinner : WellNested inner)
      (hrest : WellNested rest) : WellNested (enter site target :: (inner ++ leave :: rest))

namespace WellNested

/-- When a call, what it encloses and its return are done, the list is as it was before them. -/
theorem performAll?_behind {site target : Int} {inner rest : List StackMove} {frames last : List Int}
    (hinner : ∀ {first last : List Int}, performAll? inner first = some last → last = first)
    (hmoves : performAll? (enter site target :: (inner ++ leave :: rest)) frames = some last) :
    performAll? rest frames = some last := by
  obtain ⟨entered, henter, hmoves⟩ := Option.bind_eq_some_iff.mp hmoves
  obtain ⟨inside, hinside, hmoves⟩ := performAll?_append_inv hmoves
  rw [hinner hinside, perform?_enter_inv henter, performAll?, perform?_leave_concat] at hmoves
  exact hmoves

/-- **Well-nested moves leave the list as it was.** -/
theorem restores {moves : List StackMove} (h : WellNested moves) {frames last : List Int}
    (hmoves : performAll? moves frames = some last) : last = frames := by
  induction h generalizing frames last with
  | nil => exact (Option.some.inj hmoves).symm
  | enclose site target hinner hrest ihinner ihrest =>
    exact ihrest (performAll?_behind ihinner hmoves)

/-- **Well-nested moves never reach below.**  At each point on the way, what was on the list at
first is still at its beginning. -/
theorem keeps {moves : List StackMove} (h : WellNested moves) {before behind : List StackMove}
    (hsplit : moves = before ++ behind) {frames now : List Int}
    (hmoves : performAll? before frames = some now) : frames <+: now := by
  induction h generalizing before behind frames now with
  | nil =>
    obtain ⟨rfl, -⟩ := List.append_eq_nil_iff.mp hsplit.symm
    exact Option.some.inj hmoves ▸ List.prefix_rfl
  | enclose site target hinner hrest ihinner ihrest =>
    obtain ⟨rfl, -⟩ | ⟨past, rfl, htail⟩ := List.cons_eq_append_iff.mp hsplit
    · exact Option.some.inj hmoves ▸ List.prefix_rfl
    -- The point is behind the call: within what it encloses, or behind its return.
    obtain ⟨past, rfl, hreturn⟩ | ⟨ahead, hinside, -⟩ := List.append_eq_append_iff.mp htail
    · obtain ⟨rfl, -⟩ | ⟨past, rfl, hrest⟩ := List.cons_eq_append_iff.mp hreturn
      · rw [List.append_nil] at hmoves
        obtain ⟨entered, henter, hmoves⟩ := Option.bind_eq_some_iff.mp hmoves
        rw [hinner.restores hmoves, perform?_enter_inv henter]
        exact List.prefix_append frames _
      · exact ihrest hrest (performAll?_behind hinner.restores hmoves)
    · obtain ⟨entered, henter, hmoves⟩ := Option.bind_eq_some_iff.mp hmoves
      have hbelow : frames <+: entered := by
        rw [perform?_enter_inv henter]
        exact List.prefix_append frames _
      exact hbelow.trans (ihinner hinside hmoves)

/-- **A return belongs to a call.**  What is between the two is well nested. -/
theorem matching {moves : List StackMove} (h : WellNested moves) {before behind : List StackMove}
    (hsplit : moves = before ++ leave :: behind) :
    ∃ earlier site target inner,
      before = earlier ++ enter site target :: inner ∧ WellNested inner := by
  induction h generalizing before behind with
  | nil => simp at hsplit
  | @enclose site target inner rest hinner hrest ihinner ihrest =>
    obtain ⟨-, hfirst⟩ | ⟨past, rfl, htail⟩ := List.cons_eq_append_iff.mp hsplit
    · cases hfirst
    obtain ⟨past, rfl, hreturn⟩ | ⟨ahead, hinside, hreturn⟩ :=
      List.append_eq_append_iff.mp htail
    · obtain ⟨rfl, -⟩ | ⟨past, rfl, hrest⟩ := List.cons_eq_append_iff.mp hreturn
      · exact ⟨[], site, target, inner, by simp, hinner⟩
      · obtain ⟨earlier, site', target', inner', rfl, hinner'⟩ := ihrest hrest
        exact ⟨enter site target :: (inner ++ leave :: earlier), site', target', inner',
          by simp, hinner'⟩
    · obtain ⟨rfl, -⟩ | ⟨ahead, rfl, hrest⟩ := List.cons_eq_append_iff.mp hreturn
      · rw [List.append_nil] at hinside
        exact ⟨[], site, target, past, rfl, hinside ▸ hinner⟩
      · obtain ⟨earlier, site', target', inner', rfl, hinner'⟩ := ihinner hinside
        exact ⟨enter site target :: earlier, site', target', inner', rfl, hinner'⟩

end WellNested

/-- The last address on the list is then that of the call. -/
theorem getLast?_of_matching {earlier inner : List StackMove} (hinner : WellNested inner)
    {site target : Int} {frames now : List Int}
    (hmoves : performAll? (earlier ++ enter site target :: inner) frames = some now) :
    now.getLast? = some (site + 2) := by
  obtain ⟨middle, -, hmoves⟩ := performAll?_append_inv hmoves
  obtain ⟨entered, henter, hmoves⟩ := Option.bind_eq_some_iff.mp hmoves
  rw [hinner.restores hmoves, perform?_enter_inv henter, List.getLast?_concat]

end ChipEight
