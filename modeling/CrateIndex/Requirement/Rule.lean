import CrateIndex.Requirement.Pattern
import CrateIndex.Requirement.Wildcard

/-!
# Rules

A requirement of the index becomes a range by the first rule whose pattern takes the whole of it.
Before that its first comma becomes a space, since a list of two clauses is written with a comma in
between. A requirement that no rule takes stays as it is.
-/

namespace CrateIndex

/-- The shapes of requirements that have a range, in the order in which they are tried. -/
inductive Rule where
  /-- `1.2.*` -/
  | wildcard
  /-- `= 1.2.3` -/
  | exact
  /-- `> 1.2` -/
  | greater
  /-- `^1.0, >= 1.2` -/
  | caretFloor
  /-- `^1.0, < 1.2` -/
  | caretBelow
  /-- `^1.0, <= 1.2` -/
  | caretAtMost
  /-- `>= 1.0, <= 1.2` -/
  | bounded
  /-- `^1.0, ^1.2` -/
  | doubleCaret
  /-- `> 1.0, < 1.2` -/
  | openInterval
  /-- `>= 1.0, 1.2.*` -/
  | floorWildcard
deriving DecidableEq

namespace Rule

def all : List Rule :=
  [.wildcard, .exact, .greater, .caretFloor, .caretBelow, .caretAtMost, .bounded, .doubleCaret,
    .openInterval, .floorWildcard]

/-- The name under which a rule is reported. -/
def name : Rule → Text
  | .wildcard => "wildcard"
  | .exact => "exact"
  | .greater => "greater"
  | .caretFloor => "caret_floor"
  | .caretBelow => "caret_below"
  | .caretAtMost => "caret_at_most"
  | .bounded => "bounded"
  | .doubleCaret => "double_caret"
  | .openInterval => "open_interval"
  | .floorWildcard => "floor_wildcard"

/-- One code point, as a piece. -/
def lit (c : Char) : Piece := .one (.just c)

/-- Any number of spaces. -/
def spaces : Piece := .many (.just ' ')

/-- A run of digits and dots, captured. -/
def version : Piece := .capture .version

/-- The space between two clauses: a comma, spaces, or nothing. -/
def gap : Pattern := [.maybe [.just ','], spaces]

def pattern : Rule → Pattern
  | .wildcard => [version, .one .wild, .maybe [.just '.', .wild]]
  | .exact => [lit '=', spaces, .capture .tag]
  | .greater => [lit '>', spaces, version]
  | .caretFloor => [lit '^', version] ++ gap ++ [lit '>', lit '=', spaces, version]
  | .caretBelow => [lit '^', version] ++ gap ++ [lit '<', spaces, version]
  | .caretAtMost => [lit '^', version] ++ gap ++ [lit '<', lit '=', spaces, version]
  | .bounded =>
    [lit '>', lit '=', spaces, version] ++ gap ++ [lit '<', lit '=', spaces, version]
  | .doubleCaret => [lit '^', spaces, version] ++ gap ++ [lit '^', spaces, version]
  | .openInterval => [lit '>', spaces, version] ++ gap ++ [lit '<', spaces, version]
  | .floorWildcard =>
    [lit '>', lit '=', spaces, version] ++ gap ++ [version, lit '.', .one .wild]

/-- The versions from `low` on and below `high`. -/
def interval (low high : Text) : Text := ">= " ++ low ++ " < " ++ high

/-- The range that a rule gives for the requirement `expr`, by the runs captured in it. -/
def range (rule : Rule) (expr : Text) (runs : List Text) : Except Wildcard.Failure Text :=
  let first := runs.headD []
  let second := runs.tail.headD []
  match rule with
  | .wildcard => Wildcard.range expr first
  | .exact | .caretAtMost => .ok first
  | .greater | .doubleCaret | .floorWildcard => .ok ("^" ++ first)
  | .caretFloor => .ok ("^" ++ second)
  | .caretBelow | .bounded | .openInterval => .ok (interval first second)

/-- The range for `expr`, or nothing if the rule does not take it. -/
def apply (rule : Rule) (expr : Text) : Except Wildcard.Failure (Option Text) :=
  match rule.pattern.captures? expr with
  | none => .ok none
  | some runs => some <$> rule.range expr runs

end Rule

/-- What became of a requirement: the rule that took it, if any did, and the range. -/
structure Conversion where
  rule : Option Rule
  range : Text
deriving DecidableEq

namespace Requirement

/-- The requirement with its first comma turned into a space. -/
def spaced (expr : Text) : Text := Text.replaceFirst ',' ' ' expr

/-- The first of the rules that takes a text. -/
def firstOf (rules : List Rule) (s : Text) : Option Rule := rules.find? fun r => r.pattern.accepts s

/-- The rule that takes the requirement. -/
def rule? (expr : Text) : Option Rule := firstOf Rule.all (spaced expr)

/-- What the first of the rules that takes a text makes of it. -/
def applyFirst (s : Text) : List Rule → Except Wildcard.Failure Conversion
  | [] => .ok ⟨none, s⟩
  | rule :: rules => do
    match ← rule.apply s with
    | some range => return ⟨some rule, range⟩
    | none => applyFirst s rules

/-- The requirement as a range. -/
def convert (expr : Text) : Except Wildcard.Failure Conversion := applyFirst (spaced expr) Rule.all

/-- A requirement converted up to `times` times, each time from the last range; a failure ends
it. -/
def convertRepeatedly (expr : Text) : (times : Nat) → List (Except Wildcard.Failure Conversion)
  | 0 => []
  | times + 1 =>
    let step := convert expr
    step :: match step with
      | .ok d => convertRepeatedly d.range times
      | .error _ => []

end Requirement

end CrateIndex
