import ChipEight.Toml.Fault

/-!
# Nested tables

A path of keys leads from table to table; tables that are missing on the way are made. Behind a key
may also stand an array of tables, and then the path goes on in the last of them.

* `Table.atPath` changes the table behind a path;
* `Table.addNew` sets the value of a new key, and `Table.appendTable` adds a table to an array of
  tables.
-/

namespace ChipEight.Toml.Table

/-- Changes the table behind a path, which may go through arrays of tables if `arrays` is set. -/
def atPath (arrays : Bool) (change : Table → Except Cause Table) : Key → Table → Except Cause Table
  | [], t => change t
  | part :: path, t =>
    match t.get? part with
    | none => (atPath arrays change path []).map fun inner => t.put part (.table inner)
    | some (.table inner) =>
      (atPath arrays change path inner).map fun inner => t.put part (.table inner)
    | some (.array items) =>
      match arrays, items.getLast? with
      | true, some (.table inner) =>
        (atPath arrays change path inner).map fun inner =>
          t.put part (.array (items.dropLast ++ [.table inner]))
      | _, _ => .error .occupied
    | some _ => .error .occupied

/-- Sets the value of a key that has none yet. -/
def addNew (fault : Cause) (part : String) (v : Value) (t : Table) : Except Cause Table :=
  match t.get? part with
  | none => .ok (t.put part v)
  | some _ => .error fault

/-- Adds an empty table to an array of tables, which is made if it is missing. -/
def appendTable (part : String) (t : Table) : Except Cause Table :=
  match t.get? part with
  | none => .ok (t.put part (.array [.table []]))
  | some (.array items) => .ok (t.put part (.array (items ++ [.table []])))
  | some _ => .error .occupied

end ChipEight.Toml.Table
