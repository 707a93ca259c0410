import Mathlib.Data.List.Induction
import ChipEight.Log.Backlog

/-!
# Nothing is lost in the backlog

A record that cannot be written is held back and tried again with every record that comes after it.
Here the handler writes to a file of which nothing is known but what becomes of each attempt: the whole
record stands at its end, or nothing has happened.  A `Ledger` keeps the attempts in their order, each
with its record and its outcome; which outcome the next one has is up to a script, and any script will
do.

`Writer.emit_eq` says what a record does, if no attempt is refused.  Every record held back is tried once
and then the new one, in this order, and those that are not written are held back.  So an emission only
divides the records that it tries into written and held ones, and the rest follows.  Both together are
always the records that have been emitted (`perm_emitAll`).  The order of the held ones is never lost
(`sublist_emitAll`).  The order in the file is lost as soon as one attempt fails and a later one of the
same emission does not, but only then (`append_emitAll`).
-/

namespace ChipEight.Log

variable {α : Type}

/-- The attempts to write to a file, and what will become of those to come. -/
structure Ledger (α : Type) where
  /-- What becomes of the attempts, in the order in which they are made. -/
  script : Nat → Attempt
  /-- The attempts so far, each with what became of it. -/
  tried : List (α × Attempt) := []

namespace Ledger

/-- Makes an attempt. -/
def append (r : α) (l : Ledger α) : Ledger α × Attempt :=
  let outcome := l.script l.tried.length
  ({ l with tried := l.tried ++ [(r, outcome)] }, outcome)

/-- The ledger after some more attempts. -/
def further (attempts : List (α × Attempt)) (l : Ledger α) : Ledger α :=
  { l with tried := l.tried ++ attempts }

/-- The records that some attempts have written. -/
def successes (attempts : List (α × Attempt)) : List α :=
  (attempts.filter (·.2 = .written)).map (·.1)

/-- The records that some attempts have not written. -/
def failures (attempts : List (α × Attempt)) : List α :=
  (attempts.filter (·.2 ≠ .written)).map (·.1)

/-- The records in the file. -/
def content (l : Ledger α) : List α :=
  successes l.tried

/-- No attempt is refused. -/
def Mild (l : Ledger α) : Prop :=
  ∀ k, l.script k ≠ .refused

/-- All of some attempts have the same outcome. -/
def Alike (attempts : List (α × Attempt)) : Prop :=
  ∃ outcome, ∀ a ∈ attempts, a.2 = outcome

variable {l : Ledger α} {attempts : List (α × Attempt)}

theorem content_further : (l.further attempts).content = l.content ++ successes attempts := by
  simp [content, further, successes]

theorem further_further (more : List (α × Attempt)) :
    (l.further attempts).further more = l.further (attempts ++ more) := by
  simp [further]

/-- Attempts divide their records into those that are written and those that are not. -/
theorem perm_tried (attempts : List (α × Attempt)) :
    (successes attempts ++ failures attempts).Perm (attempts.map (·.1)) := by
  have hsplit := List.filter_append_perm (fun a : α × Attempt => decide (a.2 = .written)) attempts
  have hmap := hsplit.map (·.1)
  rw [List.map_append] at hmap
  simpa [successes, failures] using hmap

/-- Those that are not written stay in order. -/
theorem failures_sublist (attempts : List (α × Attempt)) :
    (failures attempts).Sublist (attempts.map (·.1)) :=
  List.filter_sublist.map _

/-- A test with the same answer everywhere keeps all or nothing. -/
theorem filter_of_same {β : Type} {p : β → Bool} {b : Bool} {l : List β} (h : ∀ a ∈ l, p a = b) :
    l.filter p = if b then l else [] := by
  cases b with
  | true => exact List.filter_eq_self.mpr h
  | false => exact List.filter_eq_nil_iff.mpr (by simpa using h)

/-- If all attempts have the same outcome, those that are written stand in front of the others: there
are only ones or only the others. -/
theorem append_of_alike (h : Alike attempts) :
    successes attempts ++ failures attempts = attempts.map (·.1) := by
  obtain ⟨outcome, hall⟩ := h
  have hyes : attempts.filter (·.2 = .written) =
      if decide (outcome = .written) then attempts else [] :=
    filter_of_same fun a ha => by rw [hall a ha]
  have hno : attempts.filter (·.2 ≠ .written) =
      if decide (outcome ≠ .written) then attempts else [] :=
    filter_of_same fun a ha => by rw [hall a ha]
  rw [successes, failures, hyes, hno]
  by_cases hwritten : outcome = .written
  · simp [hwritten]
  · simp [hwritten]

end Ledger

open Ledger

/-- An attempt that is not refused leads on. -/
theorem Ledger.append_cases {l : Ledger α} (h : l.Mild) (r : α) :
    l.append r = (l.further [(r, .written)], .written) ∨
      l.append r = (l.further [(r, .postponed)], .postponed) := by
  cases houtcome : l.script l.tried.length with
  | written => simp [append, further, houtcome]
  | postponed => simp [append, further, houtcome]
  | refused => exact absurd houtcome (h _)

/-- All that is held back is tried once, in order, and what is not written is held back again. -/
theorem Backlog.retry_eq {l : Ledger α} (h : l.Mild) (held : List α) :
    ∃ attempts, attempts.map (·.1) = held ∧
      retry Ledger.append held l = (l.further attempts, some (failures attempts)) := by
  induction held generalizing l with
  | nil => exact ⟨[], rfl, by simp [retry, further, failures]⟩
  | cons r rest ih =>
    rcases append_cases h r with hwritten | hpostponed
    · obtain ⟨attempts, hrecords, hrest⟩ := ih (l := l.further [(r, .written)]) h
      refine ⟨(r, .written) :: attempts, by simp [hrecords], ?_⟩
      simp [retry, hwritten, hrest, further_further, failures]
    · obtain ⟨attempts, hrecords, hrest⟩ := ih (l := l.further [(r, .postponed)]) h
      refine ⟨(r, .postponed) :: attempts, by simp [hrecords], ?_⟩
      simp [retry, hpostponed, hrest, further_further, failures]

/-- **What an emission does.**  All that is held back is tried once, and then the new record; what is not
written is held back, and whoever emits the record hears of nothing. -/
theorem Backlog.emit_eq {l : Ledger α} (h : l.Mild) (r : α) (b : Backlog α) :
    ∃ attempts, attempts.map (·.1) = b.held ++ [r] ∧
      b.emit Ledger.append r l = ⟨l.further attempts, ⟨failures attempts⟩, false⟩ := by
  obtain ⟨attempts, hrecords, hretry⟩ := retry_eq h b.held
  rcases append_cases (l := l.further attempts) h r with hwritten | hpostponed
  · refine ⟨attempts ++ [(r, .written)], by simp [hrecords], ?_⟩
    simp [emit, hretry, hwritten, further_further, failures]
  · refine ⟨attempts ++ [(r, .postponed)], by simp [hrecords], ?_⟩
    simp [emit, hretry, hpostponed, further_further, failures]

/-- A backlog with the file that it writes to. -/
structure Writer (α : Type) where
  backlog : Backlog α := {}
  ledger : Ledger α

namespace Writer

/-- Writes a record, after all that are held back. -/
def emit (r : α) (w : Writer α) : Writer α :=
  let left := w.backlog.emit Ledger.append r w.ledger
  ⟨left.backlog, left.store⟩

/-- The attempts of one emission. -/
def attempts (r : α) (w : Writer α) : List (α × Attempt) :=
  (w.emit r).ledger.tried.drop w.ledger.tried.length

/-- A new handler after some records, for a script of outcomes. -/
def emitAll (script : Nat → Attempt) (records : List α) : Writer α :=
  records.foldl (fun w r => w.emit r) { ledger := { script } }

variable {w : Writer α} {script : Nat → Attempt}

/-- An emission in terms of its own attempts. -/
theorem emit_eq (h : w.ledger.Mild) (r : α) :
    (w.attempts r).map (·.1) = w.backlog.held ++ [r] ∧
      w.emit r = ⟨⟨failures (w.attempts r)⟩, w.ledger.further (w.attempts r)⟩ := by
  obtain ⟨attempts, hrecords, hemit⟩ := w.backlog.emit_eq h r
  have hleft : w.emit r = ⟨⟨failures attempts⟩, w.ledger.further attempts⟩ := by
    rw [emit, hemit]
  have hattempts : w.attempts r = attempts := by
    rw [Writer.attempts, hleft]
    simp [further]
  rw [hattempts]
  exact ⟨hrecords, hleft⟩

theorem emitAll_concat (records : List α) (r : α) :
    emitAll script (records ++ [r]) = (emitAll script records).emit r := by
  simp [emitAll]

/-- The script stays what it is. -/
theorem mild_emitAll (h : ∀ k, script k ≠ .refused) (records : List α) :
    (emitAll script records).ledger.Mild := by
  induction records using List.reverseRecOn with
  | nil => exact h
  | append_singleton records r ih =>
    rw [emitAll_concat, (emit_eq ih r).2]
    exact ih

/-- **No record is lost, and none is there twice.** -/
theorem perm_emitAll (h : ∀ k, script k ≠ .refused) (records : List α) :
    ((emitAll script records).ledger.content ++ (emitAll script records).backlog.held).Perm records := by
  induction records using List.reverseRecOn with
  | nil => exact .refl _
  | append_singleton records r ih =>
    obtain ⟨htried, hemit⟩ := emit_eq (mild_emitAll h records) r
    have hsplit := perm_tried ((emitAll script records).attempts r)
    rw [htried] at hsplit
    have hall := hsplit.append_left (emitAll script records).ledger.content
    rw [emitAll_concat, hemit, content_further, List.append_assoc]
    rw [← List.append_assoc _ (emitAll script records).backlog.held] at hall
    exact hall.trans (ih.append_right [r])

/-- What is held back stays in order. -/
theorem sublist_emitAll (h : ∀ k, script k ≠ .refused) (records : List α) :
    (emitAll script records).backlog.held.Sublist records := by
  induction records using List.reverseRecOn with
  | nil => exact .refl _
  | append_singleton records r ih =>
    obtain ⟨htried, hemit⟩ := emit_eq (mild_emitAll h records) r
    have hkept := failures_sublist ((emitAll script records).attempts r)
    rw [htried] at hkept
    rw [emitAll_concat, hemit]
    exact hkept.trans (ih.append_right _)

/-- If no emission has different outcomes, the file and the backlog together are in order. -/
theorem append_emitAll (h : ∀ k, script k ≠ .refused) {records : List α}
    (halike : ∀ before r after, records = before ++ r :: after →
      Alike ((emitAll script before).attempts r)) :
    (emitAll script records).ledger.content ++ (emitAll script records).backlog.held = records := by
  induction records using List.reverseRecOn with
  | nil => rfl
  | append_singleton records r ih =>
    obtain ⟨htried, hemit⟩ := emit_eq (mild_emitAll h records) r
    have hbefore := ih fun before r' after hsplit =>
      halike before r' (after ++ [r]) (by rw [hsplit]; simp)
    have hlast := append_of_alike (halike records r [] rfl)
    rw [emitAll_concat, hemit, content_further, List.append_assoc, hlast, htried, ← List.append_assoc,
      hbefore]

/-- **The backlog loses nothing and writes nothing twice.**  Whatever becomes of the attempts to write, as
long as none is refused:

* after every emission the file and the backlog together hold the records that have been emitted, each
  of them once;
* the backlog is in the order of emission, and its length is the number of pending records;
* the next emission tries every record held back once, in order, then the new one, and nothing else, and
  fails in no case;
* if all attempts of an emission have the same outcome, and this is so in each of them, the file holds
  the first of the emitted records in their order. -/
theorem nothing_lost (script : Nat → Attempt) (h : ∀ k, script k ≠ .refused) (records : List α) :
    let w := emitAll script records
    (w.ledger.content ++ w.backlog.held).Perm records ∧
    w.backlog.held.Sublist records ∧ w.backlog.pending = w.backlog.held.length ∧
    (∀ r, (w.emit r).ledger.tried = w.ledger.tried ++ w.attempts r ∧
      (w.attempts r).map (·.1) = w.backlog.held ++ [r] ∧
      (w.backlog.emit Ledger.append r w.ledger).refused = false) ∧
    ((∀ before r after, records = before ++ r :: after →
        Alike ((emitAll script before).attempts r)) →
      w.ledger.content <+: records) := by
  intro w
  have hmild : w.ledger.Mild := mild_emitAll h records
  refine ⟨perm_emitAll h records, sublist_emitAll h records, rfl, ?_, ?_⟩
  · intro r
    obtain ⟨htried, hemit⟩ := emit_eq hmild r
    obtain ⟨attempts, -, hleft⟩ := w.backlog.emit_eq hmild r
    refine ⟨congrArg (·.ledger.tried) hemit, htried, ?_⟩
    rw [hleft]
  · intro halike
    exact ⟨w.backlog.held, append_emitAll h halike⟩

/-- A record that fails twice while the next one is written comes after it in the file.  One that fails
alone and is written together with the next one does not. -/
theorem nothing_lost_of_three_records :
    let mixed : Nat → Attempt := fun k => if k ∈ [0, 1, 4] then .postponed else .written
    let steady : Nat → Attempt := fun k => if k = 0 then .postponed else .written
    (∀ k, mixed k ≠ .refused) ∧ (∀ k, steady k ≠ .refused) ∧
    (emitAll mixed ["a", "b", "c"]).ledger.content = ["b", "a"] ∧
    ((emitAll mixed ["a", "b", "c"]).ledger.content ++ ["c"]).Perm ["a", "b", "c"] ∧
    (emitAll steady ["a", "b"]).ledger.content <+: ["a", "b"] := by
  intro mixed steady
  have hmixed : ∀ k, mixed k ≠ .refused := by
    intro k
    simp only [mixed]
    split <;> decide
  have hsteady : ∀ k, steady k ≠ .refused := by
    intro k
    simp only [steady]
    split <;> decide
  obtain ⟨hperm, -⟩ := nothing_lost mixed hmixed ["a", "b", "c"]
  obtain ⟨-, -, -, -, hprefix⟩ := nothing_lost steady hsteady ["a", "b"]
  have hheld : (emitAll mixed ["a", "b", "c"]).backlog.held = ["c"] := by decide
  rw [hheld] at hperm
  refine ⟨hmixed, hsteady, by decide, hperm, hprefix ?_⟩
  intro before r after hsplit
  rcases before with _ | ⟨first, _ | ⟨second, before⟩⟩
  · obtain ⟨rfl, -⟩ : "a" = r ∧ ["b"] = after := by simpa using hsplit
    exact ⟨.postponed, by decide⟩
  · obtain ⟨rfl, rfl, -⟩ : "a" = first ∧ "b" = r ∧ [] = after := by simpa using hsplit
    exact ⟨.written, by decide⟩
  · simp at hsplit

end Writer

end ChipEight.Log
