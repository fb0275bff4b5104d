import CrateIndex.Text.Case
import CrateIndex.Text.Digits
import CrateIndex.Text.Quoted

/-!
# Arguments

The options of the program and how a list of arguments sets them. All arguments are told apart
first, into options and others; then they are worked off from the left.
-/

namespace CrateIndex.CommandLine

/-- What an option sets. -/
inductive Switch where
  | help
  | json
  | index
  | mergeStrategy
  | logLevel
  | logFile
deriving DecidableEq

/-- The options as they are written, in the order in which they are listed. -/
def spellings : List (Text × Switch) :=
  [("-h", .help), ("--help", .help), ("--json", .json), ("--index", .index),
    ("--merge-strategy", .mergeStrategy), ("--loglevel", .logLevel), ("--logfile", .logFile)]

namespace Switch

/-- All spellings of an option, for messages. -/
def label (s : Switch) : Text :=
  Text.join "/" ((spellings.filter fun e => e.2 = s).map Prod.fst)

/-- The option is given with a value. -/
def takesValue : Switch → Bool
  | .help | .json => false
  | _ => true

/-- The values that an option may have, if they are limited. -/
def choices : Switch → Option (List Text)
  | .mergeStrategy => some ["replace", "union"]
  | .logLevel => some ["DEBUG", "INFO", "WARNING", "ERROR", "CRITICAL"]
  | _ => none

/-- The value as it counts: the merge strategy in lower case, the level in upper case. -/
def convert (s : Switch) (value : Text) : Text :=
  match s with
  | .mergeStrategy => value.toLower
  | .logLevel => value.toUpper
  | _ => value

end Switch

/-- What an option was given. -/
inductive Operand where
  | text (t : Text)
  /-- Two hyphens in place of a value give none, and the option counts as set all the same. -/
  | nothing
deriving DecidableEq

/-- What the arguments say. -/
structure Arguments where
  json : Bool := false
  index : Option Operand := none
  mergeStrategy : Operand := .text "replace"
  logLevel : Option Operand := none
  logFile : Option Operand := none
deriving DecidableEq

/-- What is wrong with the arguments. -/
inductive UsageError where
  | ambiguous (argument : Text) (matching : List Text)
  | missingValue (option : Switch)
  | unexpectedValue (option : Switch) (value : Text)
  | badChoice (option : Switch) (value : Text) (choices : List Text)
  | unrecognized (arguments : List Text)
deriving DecidableEq

def UsageError.message : UsageError → Text
  | .ambiguous argument matching =>
    "ambiguous option: " ++ argument ++ " could match " ++ Text.join ", " matching
  | .missingValue option => "argument " ++ option.label ++ ": expected one argument"
  | .unexpectedValue option value =>
    "argument " ++ option.label ++ ": ignored explicit argument " ++ value.quoted
  | .badChoice option value choices =>
    "argument " ++ option.label ++ ": invalid choice: " ++ value.quoted ++ " (choose from " ++
      Text.join ", " (choices.map Text.quoted) ++ ")"
  | .unrecognized arguments => "unrecognized arguments: " ++ Text.join " " arguments

/-- One argument told apart from the others. -/
inductive Token where
  | operand (t : Text)
  /-- Two hyphens: what follows are operands. -/
  | separator
  /-- An option, perhaps in its short spelling, perhaps with a value in the same argument. -/
  | option (s : Switch) (short : Bool) (value : Option Text)
  /-- It looks like an option and is none. -/
  | unknown (t : Text)
deriving DecidableEq

def hyphen : CodePoint := .ofChar '-'

/-- The text is a run of digits, or one with a point before its last digits. -/
def isUnsignedNumber (s : Text) : Bool :=
  match s.dropWhile CodePoint.isDecimalDigit with
  | [] => !s.isEmpty
  | c :: rest => c = '.' && !rest.isEmpty && rest.all CodePoint.isDecimalDigit

/-- A negative number is no option. A line feed at its end does not count. -/
def isNegativeNumber (s : Text) : Bool :=
  match s with
  | c :: rest =>
    c = hyphen &&
      (isUnsignedNumber rest ||
        (rest.getLast? = some (.ofChar '\n') && isUnsignedNumber rest.dropLast))
  | [] => false

/-- The token of one spelling. -/
def Token.ofSpelling (spelling : Text) (s : Switch) (value : Option Text) : Token :=
  .option s (spelling.length = 2) value

/-- The options that an argument can mean: a long one by any beginning that no other one has, the
short one with more letters behind it. -/
def candidates (argument : Text) : List (Text × Token) :=
  if argument.take 2 = [hyphen, hyphen] then
    let (lead, value) := match Text.cutAt? '=' argument with
      | some (l, v) => (l, some v)
      | none => (argument, none)
    (spellings.filter fun e => lead.isPrefixOf e.1).map fun (n, s) => (n, .ofSpelling n s value)
  else
    (spellings.filter fun e => e.1 = argument.take 2).map fun (n, s) =>
      (n, .ofSpelling n s (some (argument.drop 2)))

/-- The option that an argument spells out, if need be before an equals sign. -/
def spelled? (argument : Text) : Option Token :=
  match spellings.lookup argument with
  | some s => some (.ofSpelling argument s none)
  | none => do
    let (lead, value) ← Text.cutAt? '=' argument
    let s ← spellings.lookup lead
    return .ofSpelling lead s (some value)

/-- The token of an argument that stands before the separator. -/
def classify (argument : Text) : Except UsageError Token :=
  if argument.head? ≠ some hyphen then .ok (.operand argument)
  else match spelled? argument with
    | some token => .ok token
    | none =>
      if argument.length = 1 then .ok (.operand argument)
      else match candidates argument with
        | [(_, token)] => .ok token
        | _ :: _ :: _ => .error (.ambiguous argument ((candidates argument).map Prod.fst))
        | [] =>
          if isNegativeNumber argument || argument.contains (.ofChar ' ') then
            .ok (.operand argument)
          else .ok (.unknown argument)

/-- The tokens of all arguments. -/
def tokens : List Text → Except UsageError (List Token)
  | [] => .ok []
  | a :: rest =>
    if a = [hyphen, hyphen] then .ok (.separator :: rest.map .operand)
    else do
      let token ← classify a
      return token :: (← tokens rest)

/-- What a list of arguments comes to. -/
inductive Parsed where
  | arguments (a : Arguments)
  | help
  | invalid (e : UsageError)
deriving DecidableEq

/-- The arguments with an option set. -/
def Arguments.set (a : Arguments) (s : Switch) (value : Operand) : Arguments :=
  match s with
  | .index => { a with index := some value }
  | .mergeStrategy => { a with mergeStrategy := value }
  | .logLevel => { a with logLevel := some value }
  | .logFile => { a with logFile := some value }
  | .help | .json => a

/-- The value of an option: converted, and one of its choices. -/
def Switch.operand (s : Switch) (value : Text) : Except UsageError Operand :=
  if value = [hyphen, hyphen] then .ok .nothing
  else
    let value := s.convert value
    match s.choices with
    | none => .ok (.text value)
    | some choices =>
      if value ∈ choices then .ok (.text value) else .error (.badChoice s value choices)

/-- The options that stand in one argument behind an option without a value. Only short ones can be
strung together. -/
def strung (s : Switch) (short : Bool) : (value : Text) → Except UsageError (List Switch)
  | [] => .error (.unexpectedValue s [])
  | c :: rest =>
    if short then
      match spellings.lookup [hyphen, c] with
      | some next =>
        if rest.isEmpty then .ok [s, next]
        else (strung next true rest).map (s :: ·)
      | none => .error (.unexpectedValue s (c :: rest))
    else .error (.unexpectedValue s (c :: rest))

/-- Works off the tokens. Operands have no use and are complained of at the end, but a call for
help on the way ends the work. -/
def workOff (a : Arguments) (extra : List Text) : List Token → Parsed
  | [] => if extra.isEmpty then .arguments a else .invalid (.unrecognized extra)
  | .operand t :: ts | .unknown t :: ts => workOff a (extra ++ [t]) ts
  | .separator :: ts => workOff a (extra ++ [[hyphen, hyphen]]) ts
  | .option s short value :: ts =>
    if s.takesValue then
      match value, ts with
      | some v, ts => match s.operand v with
        | .ok o => workOff (a.set s o) extra ts
        | .error e => .invalid e
      | none, .operand v :: ts => match s.operand v with
        | .ok o => workOff (a.set s o) extra ts
        | .error e => .invalid e
      | none, _ => .invalid (.missingValue s)
    else
      match value.elim (.ok [s]) (strung s short) with
      | .error e => .invalid e
      | .ok switches =>
        if switches.contains .help then .help else workOff { a with json := true } extra ts

/-- What the arguments of a call say. -/
def parse (arguments : List Text) : Parsed :=
  match tokens arguments with
  | .error e => .invalid e
  | .ok ts => workOff {} [] ts

end CrateIndex.CommandLine
