/-!
# Log records

What the program tells about itself: a text with a level. Records below a chosen level are not
kept. Some records carry the fault that they report, `attachment`, for whoever shows the log.
-/

namespace ChipEight.Log

/-- How much a record matters. -/
inductive Level where
  | unset
  | debug
  | info
  | warning
  | error
  | critical
  deriving DecidableEq, Repr

namespace Level

/-- The name of a level. -/
def name : Level → String
  | unset => "NOTSET"
  | debug => "DEBUG"
  | info => "INFO"
  | warning => "WARNING"
  | error => "ERROR"
  | critical => "CRITICAL"

/-- The rank of a level: the higher, the more it matters. -/
def rank : Level → Nat
  | unset => 0
  | debug => 10
  | info => 20
  | warning => 30
  | error => 40
  | critical => 50

/-- Every level. -/
def all : List Level :=
  [unset, debug, info, warning, error, critical]

/-- The level of a name; two levels have a second name. -/
def ofName? (name : String) : Option Level :=
  match name with
  | "WARN" => some warning
  | "FATAL" => some critical
  | _ => all.find? (·.name = name)

end Level

/-- A record, with the reported fault of type `α` if there is one. -/
structure Record (α : Type) where
  level : Level
  message : String
  attachment : Option α := none
  deriving DecidableEq, Repr

namespace Record

variable {α : Type}

/-- A record of the lowest level. -/
def debug (message : String) : Record α := ⟨.debug, message, none⟩

/-- A record of what goes as it should. -/
def info (message : String) : Record α := ⟨.info, message, none⟩

/-- A record of what the user may want to know. -/
def warning (message : String) : Record α := ⟨.warning, message, none⟩

/-- A record of what went wrong. -/
def error (message : String) : Record α := ⟨.error, message, none⟩

/-- Whether the record is kept when only records of some level and above are. -/
def IsEnabled (least : Level) (r : Record α) : Prop :=
  least.rank ≤ r.level.rank

instance (least : Level) (r : Record α) : Decidable (r.IsEnabled least) :=
  inferInstanceAs (Decidable (_ ≤ _))

end Record

end ChipEight.Log
