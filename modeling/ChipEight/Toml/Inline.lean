import ChipEight.Toml.Lexeme
import ChipEight.Toml.Nest

/-!
# Inline values

The values that stand behind a key: texts, truth values, arrays, inline tables, moments and numbers.
Arrays may go over several lines and end in a comma; an inline table may do neither. A table or an
array that is a value in an inline table cannot be added to from outside.

* `value` reads a value;
* `pair` reads a key and its value.
-/

namespace ChipEight.Toml

/-- Whether a path is, or lies below, one of some paths. -/
def isBelow (path : Key) (tops : List Key) : Bool :=
  tops.any fun top => top.isPrefixOf path

/-- Whether a value is a table or an array. -/
def Value.isNest : Value → Bool
  | .table _ => true
  | .array _ => true
  | _ => false

/-- Reads a moment or a number. -/
def scalar (s : List Char) : Except Fault (Taken s Value) :=
  match hmoment : Moment.read s with
  | .moment m rest => .ok ⟨.moment m, rest, Moment.read_length hmoment⟩
  | .noSuchDay => misread .noSuchDay s
  | .other =>
    match hnumeral : Numeral.read? s with
    | some (.number n, rest) => .ok ⟨.number n, rest, Numeral.read?_length hnumeral⟩
    | some (.tooLong digits, _) => .error (.tooLong digits)
    | none => misread .invalidValue s

mutual

/-- Reads a value. -/
def value (s : List Char) : Except Fault (Taken s Value) :=
  match text? s with
  | some read => read.map (Taken.map Value.text)
  | none =>
    match s with
    | 't' :: 'r' :: 'u' :: 'e' :: _ =>
      .ok (Taken.first (.number (.truth true))).behind.behind.behind
    | 'f' :: 'a' :: 'l' :: 's' :: 'e' :: _ =>
      .ok (Taken.first (.number (.truth false))).behind.behind.behind.behind
    | '[' :: rest => (items [] rest).map fun t => (t.map Value.array).behind
    | '{' :: rest =>
      have := (skipBlanks rest).notLonger
      match h : (skipBlanks rest).rest with
      | '}' :: _ => .ok (Taken.firstOf (skipBlanks rest) h (.table [])).behind
      | _ =>
        (entries [] [] (skipBlanks rest).rest).map fun t =>
          ((t.map Value.table).after (skipBlanks rest)).behind
    | s => scalar s
termination_by 3 * s.length

/-- Reads the items of an array, behind its bracket or a comma. -/
def items (read : List Value) (s : List Char) : Except Fault (Taken s (List Value)) :=
  match filler s with
  | .error f => .error f
  | .ok start =>
    match h : start.rest with
    | ']' :: _ => .ok (.firstOf start h read.reverse)
    | _ =>
      have := start.notLonger
      match value start.rest with
      | .error f => .error f
      | .ok item =>
        match filler item.rest with
        | .error f => .error f
        | .ok next =>
          let left := (item.after start).kept.andThen next
          match h : next.rest with
          | ']' :: _ => .ok (.firstOf left h (item.value :: read).reverse)
          | ',' :: rest =>
            have := left.lt_of_rest h
            (items (item.value :: read) rest).map (Taken.after (Taken.firstOf left h ()).kept)
          | left => misread .unclosedArray left
termination_by 3 * s.length + 1

/-- Reads a key and its value. -/
def pair (s : List Char) : Except Fault (Taken s (Key × Value)) :=
  match key s with
  | .error f => .error f
  | .ok path =>
    match h : path.rest with
    | '=' :: rest =>
      have := path.kept.lt_of_rest h
      have := (skipBlanks rest).notLonger
      let start := (Taken.firstOf path.kept h ()).kept.andThen (skipBlanks rest)
      (value (skipBlanks rest).rest).map fun v => (v.map fun v => (path.value, v)).after start
    | left => misread .expectedEquals left
termination_by 3 * s.length + 1

/-- Reads the entries of an inline table, of which there must be one more. -/
def entries (closed : List Key) (t : Table) (s : List Char) : Except Fault (Taken s Table) :=
  match pair s with
  | .error f => .error f
  | .ok read =>
    let (path, v) := read.value
    if isBelow path closed then misread (.closed path) read.rest
    else
      let part := path.getLast?.getD ""
      match Table.atPath false (Table.addNew (.repeatedKey part) part v) path.dropLast t with
      | .error cause => misread cause read.rest
      | .ok t =>
        let next := read.kept.andThen (skipBlanks read.rest)
        match h : next.rest with
        | '}' :: _ => .ok (.firstOf next h t)
        | ',' :: rest =>
          let closed := if v.isNest then path :: closed else closed
          have := next.lt_of_rest h
          have := (skipBlanks rest).notLonger
          let start := (Taken.firstOf next h ()).kept.andThen (skipBlanks rest)
          (entries closed t (skipBlanks rest).rest).map (Taken.after start)
        | left => misread .unclosedInlineTable left
termination_by 3 * s.length + 2

end

end ChipEight.Toml
