import ChipEight.CommandLine.Options
import ChipEight.Text.IntegerLiteral

/-!
# Arguments

The words of the command line. A word that begins with a dash is an option, by its name or by a
beginning of it that no other name has; its value is the next word, or stands behind an equals sign.
A negative number is no option, nor is a word with a blank in it, and behind a word of two dashes
alone nothing is.

* `Token.ofWord` says what a word is, and `Token.ofWords` does so for all;
* `Arguments.read` reads the command line;
* `ArgumentFault.message` is the text about one that cannot be read.
-/

namespace ChipEight

/-- Why a command line cannot be read. -/
inductive ArgumentFault where
  | ambiguous (word : String) (candidates : List Flag)
  | missingValue (flag : Flag)
  | unwantedValue (flag : Flag) (value : String)
  | notInteger (flag : Flag) (value : String)
  | missingProgram
  | leftOver (words : List String)
  deriving DecidableEq, Repr

/-- The text about an option. -/
def Flag.about (f : Flag) (text : String) : String :=
  "argument " ++ f.title ++ ": " ++ text

/-- The text of a fault. -/
def ArgumentFault.message : ArgumentFault → String
  | ambiguous word candidates =>
    "ambiguous option: " ++ word ++ " could match "
      ++ ", ".intercalate (candidates.map Flag.longName)
  | missingValue flag => flag.about "expected one argument"
  | unwantedValue flag value => flag.about ("ignored explicit argument " ++ Text.quote value)
  | notInteger flag value => flag.about ("invalid int value: " ++ Text.quote value)
  | missingProgram => "the following arguments are required: rom"
  | leftOver words => "unrecognized arguments: " ++ " ".intercalate words

/-- What a word of the command line is. -/
inductive Token where
  | plain (word : String)
  /-- An option, with the value that stands in the same word. -/
  | flag (f : Flag) (value : Option String)
  /-- The short option with more letters in the same word. -/
  | cluster (letters : List Char)
  | unknown (word : String)
  /-- The word after which there are no options. -/
  | divider
  deriving DecidableEq, Repr

namespace Token

/-- The parts of a word before and behind its first equals sign. -/
def splitValue (word : List Char) : List Char × Option (List Char) :=
  match word.dropWhile (· ≠ '=') with
  | _ :: value => (word.takeWhile (· ≠ '='), some value)
  | [] => (word, none)

/-- Whether a text is digits alone. -/
def isDigits (s : List Char) : Bool :=
  s.all fun c => (Text.decimalValue? c).isSome

/-- A text without the end of line that may stand behind it. -/
def dropLineEnd (s : List Char) : List Char :=
  if s.getLast? = some '\n' then s.dropLast else s

/-- Whether a word is a negative number: a dash, digits, and perhaps a point with digits behind
it. -/
def isNegativeNumber (word : List Char) : Bool :=
  match dropLineEnd word with
  | '-' :: s =>
    match s.dropWhile (· ≠ '.') with
    | _ :: places => isDigits (s.takeWhile (· ≠ '.')) && isDigits places && !places.isEmpty
    | [] => isDigits s && !s.isEmpty
  | _ => false

/-- The options that a word may mean by a beginning of their names, each as a token. -/
def candidates (word : String) : List (Flag × Token) :=
  match word.toList with
  | '-' :: '-' :: _ =>
    let (start, value) := splitValue word.toList
    (Flag.withPrefix (String.ofList start)).map fun f => (f, .flag f (value.map String.ofList))
  | '-' :: 'h' :: letters => [(.help, .cluster letters)]
  | _ => []

/-- What a word is that names no option in full. -/
def ofBeginning (word : String) : Except ArgumentFault Token :=
  match candidates word with
  | [(_, token)] => .ok token
  | [] =>
    if isNegativeNumber word.toList ∨ word.contains ' ' then .ok (.plain word)
    else .ok (.unknown word)
  | several => .error (.ambiguous word (several.map (·.1)))

/-- An option with something behind an equals sign in the same word: its value, or more letters
where the option is called by its short name. -/
def withValue (name : String) (f : Flag) (value : List Char) : Token :=
  if name = Flag.shortName ∧ value ≠ [] then .cluster value
  else .flag f (some (String.ofList value))

/-- What a word is. -/
def ofWord (word : String) : Except ArgumentFault Token :=
  if !word.startsWith "-" then .ok (.plain word)
  else match Flag.ofName? word with
    | some f => .ok (.flag f none)
    | none =>
      if word = "-" then .ok (.plain word)
      else
        let (name, value) := splitValue word.toList
        match Flag.ofName? (String.ofList name), value with
        | some f, some value => .ok (withValue (String.ofList name) f value)
        | _, _ => ofBeginning word

/-- What the words are. -/
def ofWords : List String → Except ArgumentFault (List Token)
  | [] => .ok []
  | word :: rest =>
    if word = "--" then .ok (.divider :: rest.map .plain)
    else do
      let token ← ofWord word
      return token :: (← ofWords rest)

/-- The word of a token that is none of the options. -/
def word : Token → String
  | plain w => w
  | unknown w => w
  | _ => "--"

end Token

/-- What comes of reading a command line. -/
inductive Arguments where
  | options (o : Options)
  /-- The user asks how the program is called. -/
  | help
  deriving DecidableEq, Repr

namespace Arguments

/-- What has been read so far. The program's place in `said` means nothing until it is given. -/
structure Draft where
  said : Options := { program := .ofString "" }
  program : Option Path := none
  leftOver : List String := []

/-- An integer as the value of an option. -/
def integer (f : Flag) (value : String) : Except ArgumentFault Int :=
  match Text.IntegerLiteral.parse? 10 value with
  | some n => .ok n
  | none => .error (.notInteger f value)

/-- Sets an option that takes a value. -/
def setValue (f : Flag) (value : String) (o : Options) : Except ArgumentFault Options :=
  match f with
  | .cyclesPerSecond => (integer f value).map fun n => { o with cyclesPerSecond := some n }
  | .scale => (integer f value).map fun n => { o with scale := some n }
  | .config => .ok { o with config := some (.ofString value) }
  | _ => .ok o

/-- Sets an option that takes no value. -/
def set (f : Flag) (o : Options) : Options :=
  match f with
  | .debug => { o with debug := true }
  | .trace => { o with trace := true }
  | .mute => { o with mute := true }
  | .noLogFile => { o with noLogFile := true }
  | .disassemble => { o with disassemble := true }
  | _ => o

/-- Reads the letters behind the short option: it may be repeated, and what follows otherwise would
have to be a value. -/
def cluster : List Char → Except ArgumentFault Unit
  | [] => .ok ()
  | 'h' :: rest => cluster rest
  | value => .error (.unwantedValue .help (String.ofList value))

/-- What has been read at the end. -/
def finish (d : Draft) : Except ArgumentFault Arguments :=
  match d.program with
  | none => .error .missingProgram
  | some program =>
    if d.leftOver.isEmpty then .ok (.options { d.said with program })
    else .error (.leftOver d.leftOver)

/-- Takes the tokens one after the other. The divider goes with the word that names the program, on
either side of it. -/
def take (d : Draft) : List Token → Except ArgumentFault Arguments
  | [] => finish d
  | .flag f none :: rest =>
    if f = .help then .ok .help
    else if f.takesValue then
      match rest with
      | .plain value :: rest =>
        match setValue f value d.said with
        | .ok said => take { d with said } rest
        | .error fault => .error fault
      | _ => .error (.missingValue f)
    else take { d with said := set f d.said } rest
  | .flag f (some value) :: rest =>
    if f.takesValue then
      match setValue f value d.said with
      | .ok said => take { d with said } rest
      | .error fault => .error fault
    else .error (.unwantedValue f value)
  | .cluster letters :: _ =>
    match cluster letters with
    | .ok () => .ok .help
    | .error fault => .error fault
  | token :: rest =>
    match d.program, token, rest with
    | none, .plain name, .divider :: rest => take { d with program := some (.ofString name) } rest
    | none, .plain name, rest => take { d with program := some (.ofString name) } rest
    | none, .divider, .plain name :: rest => take { d with program := some (.ofString name) } rest
    | _, token, rest => take { d with leftOver := d.leftOver ++ [token.word] } rest

/-- Reads the command line. -/
def read (words : List String) : Except ArgumentFault Arguments :=
  (Token.ofWords words).bind (take {})

end Arguments

end ChipEight
