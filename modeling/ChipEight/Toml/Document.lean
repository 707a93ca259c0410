import ChipEight.Toml.Inline

/-!
# Documents

A document is a list of statements, one a line: a key with its value, or a header that says in which
table the keys after it belong. Tables may be opened in any order, but each only once, and what was
given as an inline value cannot be opened again; `Draft` keeps what this needs.

* `Document.read` reads a document.
-/

namespace ChipEight.Toml

/-- A document that has been read in part. -/
structure Draft where
  root : Table := []
  /-- Where the keys belong. -/
  header : Key := []
  /-- The tables that have been opened. -/
  opened : List Key := []
  /-- The tables that keys have made on their way, which count as opened from the next header on. -/
  passed : List Key := []
  /-- The inline values. -/
  closed : List Key := []

namespace Draft

/-- Opens a table behind a header. -/
def openTable (path : Key) (d : Draft) : Except Cause Draft :=
  if d.opened.contains path ∨ isBelow path d.closed then .error (.declaredTwice path)
  else
    (Table.atPath true .ok path d.root).map fun root =>
      { d with root, header := path, opened := path :: d.opened }

/-- Opens another table of an array behind a header. What was known about the tables below is
forgotten, since the path now leads to the new one. -/
def openArrayTable (path : Key) (d : Draft) : Except Cause Draft :=
  if isBelow path d.closed then .error (.closed path)
  else
    let kept (known : List Key) := known.filter fun k => !path.isPrefixOf k
    (Table.atPath true (Table.appendTable (path.getLast?.getD "")) path.dropLast d.root).map
      fun root =>
        { d with root, header := path, opened := path :: kept d.opened, closed := kept d.closed }

/-- Adds a value behind a path of keys, within the table of the last header. -/
def add (path : Key) (v : Value) (d : Draft) : Except Cause Draft :=
  let onTheWay := (List.range (path.length - 1)).map fun k => d.header ++ path.take (k + 1)
  let parent := d.header ++ path.dropLast
  match onTheWay.find? d.opened.contains with
  | some k => .error (.redefined k)
  | none =>
    if isBelow parent d.closed then .error (.closed parent)
    else
      (Table.atPath true (Table.addNew .occupied (path.getLast?.getD "") v) parent d.root).map
        fun root =>
          { d with
            root
            passed := onTheWay ++ d.passed
            closed := if v.isNest then (d.header ++ path) :: d.closed else d.closed }

/-- Ends the keys of the last header. -/
def endKeys (d : Draft) : Draft :=
  { d with opened := d.passed ++ d.opened, passed := [] }

end Draft

/-- Turns what is wrong into a fault at a place. -/
def placed {α : Type} (left : List Char) (r : Except Cause α) : Except Fault α :=
  r.mapError fun cause => .misread cause left.length

/-- Reads the header of a table, behind its bracket. -/
def header (d : Draft) (s : List Char) : Except Fault (Taken s Draft) :=
  match key (skipBlanks s).rest with
  | .error f => .error f
  | .ok path =>
    match placed path.rest (d.openTable path.value) with
    | .error f => .error f
    | .ok d =>
      match h : path.rest with
      | ']' :: _ => .ok (.firstOf (path.after (skipBlanks s)).kept h d)
      | left => misread .unclosedHeader left

/-- Reads the header of a table of an array, behind its brackets. -/
def arrayHeader (d : Draft) (s : List Char) : Except Fault (Taken s Draft) :=
  match key (skipBlanks s).rest with
  | .error f => .error f
  | .ok path =>
    match placed path.rest (d.openArrayTable path.value) with
    | .error f => .error f
    | .ok d =>
      match h : path.rest with
      | ']' :: ']' :: rest =>
        let left := Taken.firstOf (path.after (skipBlanks s)).kept h d
        .ok (left.leaving (Kept.all rest).behind)
      | left => misread .unclosedArrayHeader left

/-- Reads a key with its value. -/
def entry (d : Draft) (s : List Char) : Except Fault (Taken s Draft) :=
  match pair s with
  | .error f => .error f
  | .ok read =>
    let (path, v) := read.value
    (placed read.rest (d.add path v)).map fun d => read.map fun _ => d

/-- Reads a statement. -/
def statement (d : Draft) (s : List Char) : Except Fault (Taken s Draft) :=
  match s with
  | '[' :: '[' :: rest => (arrayHeader d.endKeys rest).map fun t => t.behind.behind
  | '[' :: rest => (header d.endKeys rest).map Taken.behind
  | c :: rest =>
    if isBare c ∨ c = '"' ∨ c = '\'' then entry d (c :: rest)
    else misread .invalidStatement (c :: rest)
  | [] => misread .invalidStatement []

namespace Document

/-- Passes over what may stand at the end of a line, and over the end itself. -/
def endLine (s : List Char) : Except Fault (Kept s) :=
  match comment (skipBlanks s).rest with
  | .error f => .error f
  | .ok k =>
    let left := (skipBlanks s).andThen k
    match h : left.rest with
    | [] => .ok left
    | '\n' :: _ => .ok (Taken.firstOf left h ()).kept
    | left => misread .expectedLineEnd left

/-- Reads the statements of a document. -/
def statements (d : Draft) (s : List Char) : Except Fault Table :=
  let start := skipBlanks s
  match h : start.rest with
  | [] => .ok d.root
  | '\n' :: rest =>
    have := start.lt_of_rest h
    statements d rest
  | '#' :: rest =>
    have := start.lt_of_rest h
    match skipLine rest with
    | .error f => .error f
    | .ok next =>
      have := next.notLonger
      statements d next.rest
  | _ =>
    match statement d start.rest with
    | .error f => .error f
    | .ok t =>
      match endLine t.rest with
      | .error f => .error f
      | .ok next =>
        have := ((t.after start).leaving next).shorter
        statements t.value next.rest
termination_by s.length

/-- A text with simple ends of lines. -/
def simpleLineEnds : List Char → List Char
  | '\r' :: '\n' :: rest => '\n' :: simpleLineEnds rest
  | c :: rest => c :: simpleLineEnds rest
  | [] => []

/-- Reads a document. -/
def read (source : List Char) : Except Fault Table :=
  statements {} source

end Document

end ChipEight.Toml
