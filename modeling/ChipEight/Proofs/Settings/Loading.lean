import Mathlib.Data.String.Basic
import ChipEight.Proofs.Settings.Override
import ChipEight.Proofs.Toml.Tree
import ChipEight.Settings.Load

/-!
# Loading is all or nothing

What a file says about the settings is either taken as a whole, laid over the defaults, or not at all.
There is no third case between them: a file that cannot be read, or is no text, or no document, or holds a
table that is not accepted over the defaults, leaves the defaults as they are
(`Settings.loadNamed_cases`).

That nothing else can go wrong is not plain from the order of the steps.  The validation looks up keys
that the user's file may never have mentioned.  But a document has no key twice
(`Toml.Document.distinctTables_of_read`), so a group of the defaults either keeps all its keys under the file, or
is no table any more, which is what the validation asks first (`Settings.validate_ne_misuse`).  And since
what is loaded is valid, it stays so under the command line (`Settings.overlay_of_valid`).

There is one way to get no result at all.  The name is looked up before the file is opened, and nothing
that goes wrong there is caught, unless it says that there is no file (`Settings.LookupFails`).  So a name
that is too long for a file gives no result (`Settings.not_loaded_of_long_name`), nor does a file in a
directory that may not be searched, while one that may not be opened gives the defaults.
-/

namespace ChipEight

open Toml (Table Value)

namespace Settings

/-- What comes of loading the settings under a name, by the answer to looking it up and by what comes of
reading the file. -/
def loadNamed (name : String) (answer : Except FileFault Unit)
    (reading : Except FileFault (List UInt8)) :
    Except FileFault (Table × Option (Log.Record LoadSettingsFault)) :=
  (SettingsFile.ofReading name (.ofAnswer name answer) reading).map load

/-- The file under a name holds a table that is accepted over the defaults. -/
def Accepts (name : String) (answer : Except FileFault Unit)
    (reading : Except FileFault (List UInt8)) (written : Table) : Prop :=
  (name.contains (Char.ofNat 0) = false ∧ answer = .ok ()) ∧
    ∃ content, reading = .ok content ∧ SettingsFile.table content = .ok written ∧
      Valid (defaults.merge written)

/-- Looking a name up fails: with a fault other than that there is nothing (2), that there is no handle
(9), that something on the way is no directory (20) and that too many links are on the way (40).  A name
with a zero character in it is not even tried. -/
def LookupFails (name : String) (answer : Except FileFault Unit) : Prop :=
  name.contains (Char.ofNat 0) = false ∧
    ∃ cause, answer = .error cause ∧ cause.number ∉ [2, 9, 20, 40]

variable {name : String} {answer : Except FileFault Unit}
  {reading : Except FileFault (List UInt8)} {written t : Table}

/-- A table is accepted if the reader has a result. -/
theorem valid_iff_ofTable : Valid t ↔ ∃ settings, ofTable t = .ok settings := by
  rw [Valid, validate_eq]
  cases ofTable t with
  | ok settings => exact ⟨fun _ => ⟨settings, rfl⟩, fun _ => rfl⟩
  | error cause => simp [verdict]

/-- The defaults are accepted. -/
theorem valid_defaults : Valid defaults := by
  have hok : (ofTable defaults).isOk = true := by decide +kernel
  cases hsettings : ofTable defaults with
  | ok settings => exact valid_iff_ofTable.mpr ⟨settings, hsettings⟩
  | error cause =>
    rw [hsettings] at hok
    cases hok

/-! ### The table of a file -/

/-- The table of a file has no key twice. -/
theorem distinct_of_table {content : List UInt8} (h : SettingsFile.table content = .ok written) :
    written.Distinct := by
  unfold SettingsFile.table at h
  split at h
  · cases h
  · exact (Toml.Document.distinctTables_of_read (ok_of_mapError_ok h)).distinct

theorem overDefaults_of_valid (h : Valid (defaults.merge written)) :
    overDefaults written = .ok (defaults.merge written) := by
  obtain ⟨settings, hsettings⟩ := valid_iff_ofTable.mp h
  simp only [overDefaults, hsettings]

theorem overDefaults_of_not_valid (h : ¬Valid (defaults.merge written)) :
    ∃ cause, overDefaults written = .error cause := by
  cases hsettings : ofTable (defaults.merge written) with
  | ok settings => exact absurd (valid_iff_ofTable.mpr ⟨settings, hsettings⟩) h
  | error cause => exact ⟨.setting cause, by simp only [overDefaults, hsettings]⟩

/-! ### What is loaded -/

/-- What is loaded from a file that is there: its table over the defaults, if that is accepted, or the
defaults. -/
theorem load_bytes (content : List UInt8) :
    (∃ written, SettingsFile.table content = .ok written ∧ Valid (defaults.merge written) ∧
      load (.bytes content) = (defaults.merge written, none)) ∨
    ((∀ written, SettingsFile.table content = .ok written → ¬Valid (defaults.merge written)) ∧
      ∃ note, load (.bytes content) = (defaults, note)) := by
  cases htable : SettingsFile.table content with
  | error cause =>
    refine .inr ⟨fun written h => (by cases h), ?_⟩
    simp only [load, htable]
    exact ⟨_, rfl⟩
  | ok written =>
    by_cases hvalid : Valid (defaults.merge written)
    · refine .inl ⟨written, rfl, hvalid, ?_⟩
      simp only [load, htable, Except.bind, overDefaults_of_valid hvalid]
    · obtain ⟨cause, hcause⟩ := overDefaults_of_not_valid hvalid
      refine .inr ⟨?_, ?_⟩
      · rintro other ⟨⟩
        exact hvalid
      · simp only [load, htable, Except.bind, hcause]
        exact ⟨_, rfl⟩

/-- A name is found, or there is nothing under it, or its lookup fails. -/
theorem ofAnswer_cases (name : String) (answer : Except FileFault Unit) :
    ((∃ cause, Lookup.ofAnswer name answer = .fails cause) ∧ LookupFails name answer) ∨
    (Lookup.ofAnswer name answer = .found ∧ name.contains (Char.ofNat 0) = false ∧
      answer = .ok ()) ∨
    (Lookup.ofAnswer name answer = .absent ∧ ¬LookupFails name answer ∧
      ¬(name.contains (Char.ofNat 0) = false ∧ answer = .ok ())) := by
  unfold Lookup.ofAnswer
  by_cases hzero : name.contains (Char.ofNat 0) = true
  · have hno : name.contains (Char.ofNat 0) ≠ false := by simp [hzero]
    rw [if_pos hzero]
    exact .inr (.inr ⟨rfl, fun h => hno h.1, fun h => hno h.1⟩)
  · have hno : name.contains (Char.ofNat 0) = false := by simpa using hzero
    rw [if_neg hzero]
    cases answer with
    | ok => exact .inr (.inl ⟨rfl, hno, rfl⟩)
    | error cause =>
      by_cases habsent : cause.number ∈ Lookup.absences
      · refine .inr (.inr ⟨if_pos habsent, ?_, by rintro ⟨-, ⟨⟩⟩⟩)
        rintro ⟨-, other, ⟨⟩, hother⟩
        exact hother habsent
      · exact .inl ⟨⟨cause, if_neg habsent⟩, hno, cause, rfl, habsent⟩

/-- Under every name one of three things happens, whatever comes of looking it up and of reading the
file. -/
theorem loadNamed_cases (name : String) (answer : Except FileFault Unit)
    (reading : Except FileFault (List UInt8)) :
    (LookupFails name answer ∧ ∃ cause, loadNamed name answer reading = .error cause) ∨
    (∃ written, Accepts name answer reading written ∧
      loadNamed name answer reading = .ok (defaults.merge written, none)) ∨
    (¬LookupFails name answer ∧ (∀ written, ¬Accepts name answer reading written) ∧
      ∃ note, loadNamed name answer reading = .ok (defaults, note)) := by
  unfold loadNamed
  rcases ofAnswer_cases name answer with
    ⟨⟨cause, hlookup⟩, hfails⟩ | ⟨hlookup, hno, rfl⟩ | ⟨hlookup, hanswer, hnot⟩
  · rw [hlookup]
    exact .inl ⟨hfails, cause, rfl⟩
  · have hanswer : ¬LookupFails name (.ok ()) := by
      rintro ⟨-, cause, ⟨⟩, -⟩
    rw [hlookup]
    right
    cases reading with
    | ok content =>
      rcases load_bytes content with ⟨written, htable, hvalid, hload⟩ | ⟨hnone, note, hload⟩
      · exact .inl ⟨written, ⟨⟨hno, rfl⟩, content, rfl, htable, hvalid⟩, congrArg Except.ok hload⟩
      · refine .inr ⟨hanswer, ?_, note, congrArg Except.ok hload⟩
        rintro written ⟨-, content', ⟨⟩, htable, hvalid⟩
        exact hnone written htable hvalid
    | error cause =>
      refine .inr ⟨hanswer, ?_, _, rfl⟩
      rintro written ⟨-, content, ⟨⟩, -⟩
  · rw [hlookup]
    exact .inr (.inr ⟨hanswer, fun written h => hnot h.1, _, rfl⟩)

/-- Loading is all or nothing.  There is a result unless looking the name up fails.  It is the table of
the file over the defaults, if that is accepted, and the defaults, if not.  Any options can be laid over
it, and it is accepted after that.  On the way nothing can go wrong but what leads to the defaults: the
validation of a table over the defaults accepts it or finds fault with it, and no more, if the table has
no key twice, as is the case with that of a file. -/
theorem loads_file_or_defaults (name : String) (answer : Except FileFault Unit)
    (reading : Except FileFault (List UInt8)) :
    ((∃ loaded, loadNamed name answer reading = .ok loaded) ↔ ¬LookupFails name answer) ∧
    (∀ t note, loadNamed name answer reading = .ok (t, note) →
      ((∃ written, Accepts name answer reading written ∧ t = defaults.merge written) ∨
        ((∀ written, ¬Accepts name answer reading written) ∧ t = defaults)) ∧
      ∀ options : Options, overlay options t = .ok (options.applyTo t) ∧
        validate (options.applyTo t) = .ok ()) ∧
    (∀ content written, reading = .ok content → SettingsFile.table content = .ok written →
      written.Distinct) ∧
    ∀ written : Table, written.Distinct →
      ∀ trip, validate (defaults.merge written) ≠ .error (.misuse trip) := by
  refine ⟨?_, ?_, fun _ _ _ => distinct_of_table, ?_⟩
  · rcases loadNamed_cases name answer reading with
      ⟨hfails, cause, hload⟩ | ⟨written, ⟨⟨-, rfl⟩, -⟩, hload⟩ | ⟨hfound, -, note, hload⟩
    · rw [hload]
      exact ⟨fun h => (by obtain ⟨loaded, ⟨⟩⟩ := h), fun h => absurd hfails h⟩
    · exact ⟨fun _ => (by rintro ⟨-, cause, ⟨⟩, -⟩), fun _ => ⟨_, hload⟩⟩
    · exact ⟨fun _ => hfound, fun _ => ⟨_, hload⟩⟩
  · intro t note hresult
    rcases loadNamed_cases name answer reading with
      ⟨-, cause, hload⟩ | ⟨written, haccepts, hload⟩ | ⟨-, hnone, note, hload⟩
    · rw [hload] at hresult
      cases hresult
    · have hvalid : Valid (defaults.merge written) := by
        obtain ⟨-, content, -, -, hvalid⟩ := haccepts
        exact hvalid
      rw [hload] at hresult
      cases hresult
      exact ⟨.inl ⟨written, haccepts, rfl⟩, fun options => overlay_of_valid options hvalid⟩
    · rw [hload] at hresult
      cases hresult
      exact ⟨.inr ⟨hnone, rfl⟩, fun options => overlay_of_valid options valid_defaults⟩
  · intro written hdistinct trip
    exact validate_ne_misuse (complete_merge hdistinct) trip

/-- A file that is found but may not be opened gives the defaults, over which any options can be laid,
while one in a directory that may not be searched gives no result.  And a number in the place of a group
is found fault with. -/
theorem loads_defaults_of_denied :
    ¬LookupFails "config.toml" (.ok ()) ∧
    (∃ note, loadNamed "config.toml" (.ok ()) (.error .denied) = .ok (defaults, note)) ∧
    (∀ options : Options, validate (options.applyTo defaults) = .ok ()) ∧
    (¬∃ loaded, loadNamed "config.toml" (.error .denied) (.error .denied) = .ok loaded) ∧
    Table.Distinct [("general", .number (.integer 3))] ∧
    ∀ trip, validate (defaults.merge [("general", .number (.integer 3))]) ≠ .error (.misuse trip) := by
  obtain ⟨htotal, hresult, -, hvalidate⟩ :=
    loads_file_or_defaults "config.toml" (.ok ()) (.error .denied)
  have hfound : ¬LookupFails "config.toml" (.ok ()) := by
    rintro ⟨-, cause, ⟨⟩, -⟩
  have hzero : "config.toml".contains (Char.ofNat 0) = false := by
    rw [String.contains_char_eq]
    decide
  have hfails : LookupFails "config.toml" (.error .denied) := ⟨hzero, .denied, rfl, by decide⟩
  have hdistinct : Table.Distinct [("general", .number (.integer 3))] :=
    List.nodup_singleton "general"
  have hnone := (loads_file_or_defaults "config.toml" (.error .denied) (.error .denied)).1
  obtain ⟨⟨t, note⟩, hload⟩ := htotal.mpr hfound
  obtain ⟨⟨written, haccepts, -⟩ | ⟨-, rfl⟩, hoptions⟩ := hresult t note hload
  · obtain ⟨-, content, ⟨⟩, -⟩ := haccepts
  · exact ⟨hfound, ⟨note, hload⟩, fun options => (hoptions options).2,
      fun h => hnone.mp h hfails, hdistinct, hvalidate _ hdistinct⟩

/-! ### Names that are too long -/

/-- A name without a slash is one step. -/
theorem split_of_not_mem {s : List Char} (h : '/' ∉ s) : Path.split s = [s] := by
  induction s with
  | nil => rfl
  | cons c rest ih =>
    rw [List.mem_cons, not_or] at h
    obtain ⟨hc, hrest⟩ := h
    rw [Path.split, ih hrest]
    exact if_neg (Ne.symm hc)

/-- If one step is too long for the name of a file, there is nothing that could be looked up. -/
theorem lookUp_of_long_step (tree : FileTree) {name : String} (hslash : '/' ∉ name.toList)
    (hlong : FileTree.maxStepSize < name.utf8ByteSize) :
    tree.lookUp name = .error .nameTooLong := by
  have hstart : ∀ start : Place, tree.entry? start = some .directory →
      tree.follow start [name] = .error .nameTooLong := by
    intro start hdirectory
    rw [FileTree.follow, hdirectory]
    exact if_pos hlong
  have hfind : tree.find name = .error .nameTooLong := by
    have hsome : ¬name.isEmpty = true := by
      rw [String.isEmpty_iff_utf8ByteSize_eq_zero]
      omega
    unfold FileTree.find
    rw [if_neg hsome, split_of_not_mem hslash]
    split
    · rfl
    · simp only [List.map_cons, List.map_nil, String.ofList_toList]
      split
      · exact hstart _ rfl
      · exact hstart _ rfl
  rw [FileTree.lookUp, hfind]

/-- A name that no file can have. -/
def longName : String :=
  String.ofList (List.replicate (FileTree.maxStepSize + 1) 'n')

/-- There is not always a result: a name that is too long for a file is not the name of a missing
file. -/
theorem not_loaded_of_long_name :
    ¬∀ (name : String) (tree : FileTree),
      ∃ loaded, loadNamed name (tree.lookUp name) (tree.read name) = .ok loaded := by
  intro h
  have hslash : '/' ∉ longName.toList := by
    rw [longName, String.toList_ofList]
    intro hmem
    exact absurd (List.eq_of_mem_replicate hmem) (by decide)
  have hzero : ¬longName.contains (Char.ofNat 0) = true := by
    rw [String.contains_char_eq, longName, String.toList_ofList]
    simp
  have hlong : FileTree.maxStepSize < longName.utf8ByteSize := by
    rw [longName, String.utf8ByteSize_ofList]
    decide +kernel
  obtain ⟨loaded, hloaded⟩ := h longName {}
  rw [lookUp_of_long_step {} hslash hlong, loadNamed, Lookup.ofAnswer, if_neg hzero] at hloaded
  cases hloaded

end Settings

end ChipEight
