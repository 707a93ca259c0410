import Mathlib.Data.List.Perm.Subperm
import ChipEight.Log.LogFile
import ChipEight.Proofs.Log.Conservation

/-!
# What a refusal does to the backlog

If an attempt at a record that is held back is refused, the emission ends there.  Neither the records behind
it nor the new one are tried, the new one is forgotten, and the backlog is left as it was, since it is only
renewed when every record in it has been tried.  So it is as it was even for the records in front, and some
of these may have been written by then: they are in the file and are held back all the same, and the next
emission writes them once more.

Such an emission is called `Writer.Torn`.  It is the only thing that can go wrong.  As long as no emission
is torn, the file and the backlog together hold no more than has been emitted (`subperm_emitAll`), whatever
is postponed or refused.  So for records that are all different, `repeats_iff_torn` says exactly when one of
them is written twice or held back after it has been written.

Log files come to this with an entry that no bytes stand for, since it is found out only when the file can be
opened (`LogFile.append_of_surrogate`).
-/

namespace ChipEight.Log

open Ledger

variable {α : Type}

namespace Ledger

variable {attempts : List (α × Attempt)}

/-- The records that some attempts have put off. -/
def postponements (attempts : List (α × Attempt)) : List α :=
  (attempts.filter (·.2 = .postponed)).map (·.1)

theorem append_eq (r : α) (l : Ledger α) :
    l.append r = (l.further [(r, l.script l.tried.length)], l.script l.tried.length) :=
  rfl

/-- What is written or put off has been tried. -/
theorem subperm_tried (attempts : List (α × Attempt)) :
    (successes attempts ++ postponements attempts).Subperm (attempts.map (·.1)) := by
  have hunwritten : (postponements attempts).Sublist (failures attempts) := by
    refine List.Sublist.map _ (List.monotone_filter_right attempts fun a hpostponed => ?_)
    have houtcome : a.2 = .postponed := of_decide_eq_true hpostponed
    rw [houtcome]
    rfl
  exact (hunwritten.append_left _).subperm.trans (perm_tried attempts).subperm

theorem successes_subset (attempts : List (α × Attempt)) : successes attempts ⊆ attempts.map (·.1) :=
  List.map_subset _ (List.filter_subset_self _)

end Ledger

/-- **All that is held back is tried once**, in order, or an attempt is refused and ends it. -/
theorem Backlog.retry_cases (held : List α) (l : Ledger α) :
    (∃ attempts, attempts.map (·.1) = held ∧
      retry Ledger.append held l = (l.further attempts, some (postponements attempts))) ∨
    ∃ attempts rest, attempts.map (·.1) ++ rest = held ∧
      retry Ledger.append held l = (l.further attempts, none) := by
  induction held generalizing l with
  | nil => exact .inl ⟨[], rfl, by simp [retry, further, postponements]⟩
  | cons r held ih =>
    have happend := append_eq r l
    cases houtcome : l.script l.tried.length with
    | written =>
      rw [houtcome] at happend
      obtain ⟨attempts, hrecords, hrest⟩ | ⟨attempts, rest, hrecords, hrest⟩ :=
        ih (l.further [(r, .written)])
      · refine .inl ⟨(r, .written) :: attempts, by simp [hrecords], ?_⟩
        simp [retry, happend, hrest, further_further, postponements]
      · refine .inr ⟨(r, .written) :: attempts, rest, by simp [← hrecords], ?_⟩
        simp [retry, happend, hrest, further_further]
    | postponed =>
      rw [houtcome] at happend
      obtain ⟨attempts, hrecords, hrest⟩ | ⟨attempts, rest, hrecords, hrest⟩ :=
        ih (l.further [(r, .postponed)])
      · refine .inl ⟨(r, .postponed) :: attempts, by simp [hrecords], ?_⟩
        simp [retry, happend, hrest, further_further, postponements]
      · refine .inr ⟨(r, .postponed) :: attempts, rest, by simp [← hrecords], ?_⟩
        simp [retry, happend, hrest, further_further]
    | refused =>
      rw [houtcome] at happend
      exact .inr ⟨[(r, .refused)], held, rfl, by simp [retry, happend]⟩

/-- **What an emission does**, for any outcomes.  All that is held back is tried once, and then the new
record, and what is put off is held back.  Or an attempt at a record that is held back is refused: then the
backlog stays as it was, and whoever emits the record hears of it. -/
theorem Backlog.emit_cases (r : α) (b : Backlog α) (l : Ledger α) :
    ∃ attempts, (b.emit Ledger.append r l).store = l.further attempts ∧
      (attempts.map (·.1) = b.held ++ [r] ∧
          (b.emit Ledger.append r l).backlog.held = postponements attempts ∨
        (∃ rest, attempts.map (·.1) ++ rest = b.held) ∧ (b.emit Ledger.append r l).backlog = b ∧
          (b.emit Ledger.append r l).refused = true) := by
  obtain ⟨attempts, hrecords, hretry⟩ | ⟨attempts, rest, hrecords, hretry⟩ := retry_cases b.held l
  · have happend := append_eq r (l.further attempts)
    cases houtcome : (l.further attempts).script (l.further attempts).tried.length with
    | written =>
      rw [houtcome] at happend
      refine ⟨attempts ++ [(r, .written)], ?_, .inl ⟨by simp [hrecords], ?_⟩⟩
      all_goals simp [emit, hretry, happend, further_further, postponements]
    | postponed =>
      rw [houtcome] at happend
      refine ⟨attempts ++ [(r, .postponed)], ?_, .inl ⟨by simp [hrecords], ?_⟩⟩
      all_goals simp [emit, hretry, happend, further_further, postponements]
    | refused =>
      rw [houtcome] at happend
      refine ⟨attempts ++ [(r, .refused)], ?_, .inl ⟨by simp [hrecords], ?_⟩⟩
      all_goals simp [emit, hretry, happend, further_further, postponements]
  · refine ⟨attempts, ?_, .inr ⟨⟨rest, hrecords⟩, ?_, ?_⟩⟩
    all_goals simp [emit, hretry]

namespace Writer

variable {w : Writer α} {script : Nat → Attempt}

/-- An emission ends before it comes to the new record. -/
def Interrupted (r : α) (w : Writer α) : Prop :=
  (w.attempts r).length ≤ w.backlog.held.length

/-- An emission ends before it comes to the new record, and has written something by then. -/
def Torn (r : α) (w : Writer α) : Prop :=
  w.Interrupted r ∧ successes (w.attempts r) ≠ []

/-- An emission in terms of its own attempts. -/
theorem emit_cases (r : α) (w : Writer α) :
    (w.emit r).ledger = w.ledger.further (w.attempts r) ∧
      (¬w.Interrupted r ∧ (w.attempts r).map (·.1) = w.backlog.held ++ [r] ∧
          (w.emit r).backlog.held = postponements (w.attempts r) ∨
        w.Interrupted r ∧ (∃ rest, (w.attempts r).map (·.1) ++ rest = w.backlog.held) ∧
          (w.emit r).backlog = w.backlog ∧
          (w.backlog.emit Ledger.append r w.ledger).refused = true) := by
  obtain ⟨attempts, hstore, hcases⟩ := w.backlog.emit_cases r w.ledger
  have hledger : (w.emit r).ledger = w.ledger.further attempts := hstore
  have hattempts : w.attempts r = attempts := by
    rw [Writer.attempts, hledger]
    simp [further]
  rw [Interrupted, hattempts]
  refine ⟨hledger, ?_⟩
  rcases hcases with ⟨hrecords, hheld⟩ | ⟨⟨rest, hrecords⟩, hbacklog, hrefused⟩
  · have hlength := congrArg List.length hrecords
    simp only [List.length_map, List.length_append, List.length_singleton] at hlength
    exact .inl ⟨by omega, hrecords, hheld⟩
  · have hlength := congrArg List.length hrecords
    simp only [List.length_map, List.length_append] at hlength
    exact .inr ⟨by omega, ⟨rest, hrecords⟩, hbacklog, hrefused⟩

theorem content_emit (r : α) (w : Writer α) :
    (w.emit r).ledger.content = w.ledger.content ++ successes (w.attempts r) := by
  rw [(emit_cases r w).1, content_further]

/-- **An emission that is not torn** keeps no more than there was, and the new record. -/
theorem subperm_emit {r : α} (h : ¬w.Torn r) :
    ((w.emit r).ledger.content ++ (w.emit r).backlog.held).Subperm
      (w.ledger.content ++ w.backlog.held ++ [r]) := by
  rw [content_emit]
  rcases (emit_cases r w).2 with ⟨-, hrecords, hheld⟩ | ⟨hinterrupted, -, hbacklog, -⟩
  · rw [hheld, List.append_assoc, List.append_assoc, ← hrecords]
    exact (List.subperm_append_left _).mpr (subperm_tried _)
  · have hnothing : successes (w.attempts r) = [] :=
      Decidable.byContradiction fun hsome => h ⟨hinterrupted, hsome⟩
    rw [hbacklog, hnothing, List.append_nil]
    exact (List.sublist_append_left _ _).subperm

/-- **A torn emission** leaves a record in the backlog that is in the file. -/
theorem exists_of_torn {r : α} (h : w.Torn r) :
    ∃ x, x ∈ (w.emit r).ledger.content ∧ x ∈ (w.emit r).backlog.held := by
  obtain ⟨hinterrupted, hsome⟩ := h
  obtain ⟨x, hx⟩ := List.exists_mem_of_ne_nil _ hsome
  refine ⟨x, ?_, ?_⟩
  · rw [content_emit]
    exact List.mem_append_right _ hx
  · rcases (emit_cases r w).2 with ⟨hcomplete, -⟩ | ⟨-, ⟨rest, hrecords⟩, hbacklog, -⟩
    · exact absurd hinterrupted hcomplete
    · rw [hbacklog, ← hrecords]
      exact List.mem_append_left _ (successes_subset _ hx)

/-- **Without torn emissions**, the file and the backlog together hold no more than has been emitted. -/
theorem subperm_emitAll {records : List α}
    (h : ∀ before r after, records = before ++ r :: after → ¬(emitAll script before).Torn r) :
    ((emitAll script records).ledger.content ++ (emitAll script records).backlog.held).Subperm
      records := by
  induction records using List.reverseRecOn with
  | nil => exact List.nil_subperm
  | append_singleton records r ih =>
    have hbefore := ih fun before r' after hsplit =>
      h before r' (after ++ [r]) (by rw [hsplit]; simp)
    rw [emitAll_concat]
    exact (subperm_emit (h records r [] rfl)).trans ((List.subperm_append_right [r]).mpr hbefore)

/-- **Only a torn emission makes a record appear twice.**  Let different records be emitted, with any outcomes
of the attempts to write.  No record is ever in the file twice, nor held back after it has been written, if
and only if no emission is torn: none of them ends at a record that is held back after it has written
another.

An emission that ends at a record that is held back is one that whoever emits hears of; it leaves the backlog
as it was.  Any other tries every record held back once, in order, then the new one, and leaves in the
backlog what it has put off.  A torn one leaves a record in the backlog that is in the file. -/
theorem repeats_iff_torn (script : Nat → Attempt) (records : List α) (h : records.Nodup) :
    ((∀ before, before <+: records →
        let w := emitAll script before
        (w.ledger.content ++ w.backlog.held).Nodup) ↔
      ∀ before r after, records = before ++ r :: after → ¬(emitAll script before).Torn r) ∧
    ∀ (r : α) (w : Writer α),
      (w.emit r).ledger.content = w.ledger.content ++ successes (w.attempts r) ∧
      (w.Interrupted r → (w.backlog.emit Ledger.append r w.ledger).refused = true ∧
        (w.emit r).backlog = w.backlog) ∧
      (¬w.Interrupted r → (w.attempts r).map (·.1) = w.backlog.held ++ [r] ∧
        (w.emit r).backlog.held = postponements (w.attempts r)) ∧
      (w.Torn r → ∃ x, x ∈ (w.emit r).ledger.content ∧ x ∈ (w.emit r).backlog.held) := by
  refine ⟨⟨?_, ?_⟩, fun r w => ⟨content_emit r w, ?_, ?_, exists_of_torn⟩⟩
  · intro hdistinct before r after hsplit htorn
    have hprefix : before ++ [r] <+: records := ⟨after, by rw [hsplit]; simp⟩
    have hnodup := hdistinct _ hprefix
    obtain ⟨x, hcontent, hheld⟩ := exists_of_torn htorn
    rw [emitAll_concat] at hnodup
    exact (List.nodup_append.mp hnodup).2.2 x hcontent x hheld rfl
  · rintro hwhole before ⟨after, rfl⟩
    have hbefore (first : List α) (r : α) (rest : List α) (hsplit : before = first ++ r :: rest) :
        ¬(emitAll script first).Torn r :=
      hwhole first r (rest ++ after) (by rw [hsplit]; simp)
    obtain ⟨l, hperm, hsublist⟩ := subperm_emitAll hbefore
    exact hperm.nodup_iff.mp (hsublist.nodup (List.nodup_append.mp h).1)
  · intro hinterrupted
    rcases (emit_cases r w).2 with ⟨hcomplete, -⟩ | ⟨-, -, hbacklog, hrefused⟩
    · exact absurd hinterrupted hcomplete
    · exact ⟨hrefused, hbacklog⟩
  · intro hcomplete
    rcases (emit_cases r w).2 with ⟨-, hrecords, hheld⟩ | ⟨hinterrupted, -⟩
    · exact ⟨hrecords, hheld⟩
    · exact absurd hinterrupted hcomplete

/-- Of two records that are held back, the second is refused when the first has been written. -/
theorem repeats_iff_torn_of_refused :
    let script : Nat → Attempt := fun k =>
      if k < 3 then .postponed else if k % 2 = 1 then .written else .refused
    (["a", "b", "c", "e"].Nodup ∧ (emitAll script ["a", "b"]).Torn "c") ∧
    ¬∀ before, before <+: ["a", "b", "c", "e"] →
      let w := emitAll script before
      (w.ledger.content ++ w.backlog.held).Nodup := by
  intro script
  have hdistinct : ["a", "b", "c", "e"].Nodup := by decide
  have htorn : (emitAll script ["a", "b"]).Torn "c" := by
    constructor
    · unfold Interrupted
      decide
    · decide
  refine ⟨⟨hdistinct, htorn⟩, fun hall => ?_⟩
  exact (repeats_iff_torn script _ hdistinct).1.mp hall ["a", "b"] "c" ["e"] rfl htorn

end Writer

namespace LogFile

open Text (CodePoint)

theorem append_eq_write {name : String} (hname : name.contains (Char.ofNat 0) = false) :
    append name = write name := by
  funext entry w
  rw [append, if_neg (by simp [hname])]

/-- An entry with a surrogate is never written.  It is refused if the file can be opened, and else put off. -/
theorem append_of_surrogate {name : String} (hname : name.contains (Char.ofNat 0) = false)
    {entry : List CodePoint} {k : Fin 0x800} (h : .surrogate k ∈ entry) (w : Written) :
    (append name entry w).2 =
      match w.tree.append name [] with
      | .ok _ => .refused
      | .error _ => .postponed := by
  obtain ⟨cause, hcause⟩ := CodePoint.encode_of_surrogate (List.mem_append_left [.char '\n'] h)
  rw [append_eq_write hname, write, hcause]
  cases w.tree.append name [] with
  | ok tree => rfl
  | error f => rfl

/-- Two messages are held back as there is no directory for the file, and the second one is a surrogate.  When
there is a directory, the next message makes the first one be written, and the surrogate be refused.  So the
first one is still held back, and the message after that makes it be written again. -/
theorem written_twice_of_surrogate :
    let file (held : List (List CodePoint)) : LogFile :=
      { name := "d/run.log", format := .bare, backlog := ⟨held⟩ }
    let message (s : List CodePoint) : Message := ⟨.info, s⟩
    let made : FileTree := FileTree.makeDirectory {} (.ofString "d")
    let a := CodePoint.ofString "a"
    let fault : LogFault := .encoding ⟨0, 0, 1⟩
    let hasRoom : Nat → Bool := fun _ => true
    ∃ once twice : FileTree,
      emit hasRoom (message a) (file []) {} = (file [a], {}, none) ∧
      emit hasRoom (message [.surrogate 0]) (file [a]) {} = (file [a, [.surrogate 0]], {}, none) ∧
      emit hasRoom (message (CodePoint.ofString "c")) (file [a, [.surrogate 0]]) made =
        (file [a, [.surrogate 0]], once, some fault) ∧
      once.read "d/run.log" = .ok [97, 10] ∧
      emit hasRoom (message (CodePoint.ofString "e")) (file [a, [.surrogate 0]]) once =
        (file [a, [.surrogate 0]], twice, some fault) ∧
      twice.read "d/run.log" = .ok [97, 10, 97, 10] := by
  intro file message made a fault hasRoom
  have hname : "d/run.log".contains (Char.ofNat 0) = false := by
    rw [String.contains_char_eq]
    decide +kernel
  have hemit (s : List CodePoint) (held : List (List CodePoint)) (tree : FileTree) :
      emit hasRoom (message s) (file held) tree =
        (file (Backlog.emit (write "d/run.log") s ⟨held⟩ { tree }).backlog.held,
          (Backlog.emit (write "d/run.log") s ⟨held⟩ { tree }).store.tree,
          (Backlog.emit (write "d/run.log") s ⟨held⟩ { tree }).store.fault) := by
    rw [emit_of_entry (Format.entry_bare hasRoom (message s)), ← append_eq_write hname]
  refine ⟨made.put ["d", "run.log"] (.file [97, 10]),
    made.put ["d", "run.log"] (.file [97, 10, 97, 10]), ?_, ?_, ?_, ?_, ?_, ?_⟩
  · rw [hemit]
    decide +kernel
  · rw [hemit]
    decide +kernel
  · rw [hemit]
    decide +kernel
  · decide +kernel
  · rw [hemit]
    decide +kernel
  · decide +kernel

end LogFile

end ChipEight.Log
