import CrateIndex.Proofs.Decimal.Canonical
import CrateIndex.Proofs.Requirement.Wildcard

/-!
# What ranges are made of

The operators of a range are fixed by the rule that gave it, and no range that a rule gives holds a
comma. So the only range that a rule can take again is a version that was asked for exactly and is
a wildcard.
-/

namespace CrateIndex

/-- The code points that tell clauses apart: the operators and the comma. -/
def CodePoint.isMark (c : CodePoint) : Bool := c.isOperator || c = ','

theorem CharClass.isMark_of_holds {c : CharClass} {x : CodePoint} (hc : c.isPlain = true)
    (hcomma : c.holds ',' = false) (hx : c.holds x = true) : x.isMark = false := by
  have hne : x ≠ CodePoint.ofChar ',' := by
    rintro rfl
    rw [hx] at hcomma
    cases hcomma
  simp [CodePoint.isMark, isOperator_of_holds hc hx, hne]

theorem CharClass.version_holds_of_isDigit {x : CodePoint} (h : x.isDigit = true) :
    CharClass.version.holds x = true := by
  rw [holds, h, Bool.true_or]

namespace Text

/-- The operators and commas of a text. -/
def marks (s : Text) : Text := s.filter CodePoint.isMark

@[simp] theorem marks_append (s t : Text) : marks (s ++ t) = marks s ++ marks t :=
  List.filter_append ..

theorem marks_eq_nil {s : Text} (h : ∀ x ∈ s, x.isMark = false) : marks s = [] :=
  List.filter_eq_nil_iff.2 fun x hx => by simp [h x hx]

theorem mem_marks_iff {s : Text} : CodePoint.ofChar ',' ∈ marks s ↔ CodePoint.ofChar ',' ∈ s := by
  simp [marks, CodePoint.isMark]

theorem filter_isOperator_marks (s : Text) :
    (marks s).filter CodePoint.isOperator = s.filter CodePoint.isOperator := by
  rw [marks, List.filter_filter]
  congr 1
  funext c
  cases h : c.isOperator <;> simp [CodePoint.isMark, h]

theorem marks_digits {s : Text} (hs : ∀ c ∈ s, c.isDigit = true) : marks s = [] := by
  refine marks_eq_nil fun x hx => CharClass.isMark_of_holds (c := .version) rfl (by decide) ?_
  exact CharClass.version_holds_of_isDigit (hs x hx)

end Text

namespace Wildcard

variable {expr s : Text}

theorem number_eq_ok_iff {digits : Text} {n : Nat} :
    number digits = .ok n ↔ digits.length ≤ Decimal.digitLimit ∧ n = Decimal.value digits := by
  rw [number, Result.mapError_eq_ok_iff, Decimal.read_eq_ok_iff]

theorem written_eq_ok_iff {n : Nat} :
    written n = .ok s ↔ (Decimal.text n).length ≤ Decimal.digitLimit ∧ s = Decimal.text n := by
  rw [written, Result.mapError_eq_ok_iff, Decimal.write_eq_ok_iff]

theorem rangeOf_eq_ok {twice : Bool} {numbers : List Text}
    (h : rangeOf expr twice numbers = .ok s) :
    (∃ m, s = majorRange (Decimal.text m) (Decimal.text (m + 1))) ∨
      ∃ m n, s = minorRange (Decimal.text m) (Decimal.text n) (Decimal.text (n + 1)) := by
  unfold rangeOf at h
  split at h
  · obtain ⟨m, -, h⟩ := Result.bind_eq_ok_iff.1 h
    obtain ⟨low, hlow, h⟩ := Result.bind_eq_ok_iff.1 h
    obtain ⟨bound, hbound, h⟩ := Result.bind_eq_ok_iff.1 h
    cases h
    rw [(written_eq_ok_iff.1 hlow).2, (written_eq_ok_iff.1 hbound).2]
    exact .inl ⟨m, rfl⟩
  · obtain ⟨m, -, h⟩ := Result.bind_eq_ok_iff.1 h
    obtain ⟨n, -, h⟩ := Result.bind_eq_ok_iff.1 h
    obtain ⟨major, hmajor, h⟩ := Result.bind_eq_ok_iff.1 h
    obtain ⟨minor, hminor, h⟩ := Result.bind_eq_ok_iff.1 h
    obtain ⟨bound, hbound, h⟩ := Result.bind_eq_ok_iff.1 h
    cases h
    rw [(written_eq_ok_iff.1 hmajor).2, (written_eq_ok_iff.1 hminor).2,
      (written_eq_ok_iff.1 hbound).2]
    exact .inr ⟨m, n, rfl⟩
  · cases h

/-- A range is that of one number or of two, and its bound is the number after the last of them. -/
theorem range_eq_ok {front : Text} (h : range expr front = .ok s) :
    (∃ m, s = majorRange (Decimal.text m) (Decimal.text (m + 1))) ∨
      ∃ m n, s = minorRange (Decimal.text m) (Decimal.text n) (Decimal.text (n + 1)) := by
  obtain ⟨_, -, h⟩ := Result.bind_eq_ok_iff.1 h
  obtain ⟨numbers, -, h⟩ := Result.bind_eq_ok_iff.1 h
  exact rangeOf_eq_ok h

theorem marks_text (n : Nat) : (Decimal.text n).marks = [] :=
  Text.marks_digits (Decimal.isDigit_text n)

theorem marks_range {front : Text} (h : range expr front = .ok s) : s.marks = ">=<" := by
  rcases range_eq_ok h with ⟨m, rfl⟩ | ⟨m, n, rfl⟩
  · simp only [majorRange, Text.marks_append, marks_text, List.append_nil]
    rfl
  · simp only [minorRange, Text.marks_append, marks_text, List.append_nil]
    rfl

end Wildcard

namespace Rule

/-- The operators of the ranges of a rule, which hold no comma. -/
def rangeMarks : Rule → Text
  | .wildcard | .caretBelow | .bounded | .openInterval => ">=<"
  | .exact | .caretAtMost => ""
  | .greater | .caretFloor | .doubleCaret | .floorWildcard => "^"

theorem of_forall_headD {P : Text → Prop} {runs : List Text} (hnil : P [])
    (h : ∀ run ∈ runs, P run) : P (runs.headD []) := by
  cases runs with
  | nil => exact hnil
  | cons run runs => exact h run List.mem_cons_self

theorem marks_interval {low high : Text} (hl : low.marks = []) (hh : high.marks = []) :
    (interval low high).marks = ">=<" := by
  simp only [interval, Text.marks_append, hl, hh, List.append_nil]
  rfl

theorem marks_caret {run : Text} (h : run.marks = []) : Text.marks ("^" ++ run) = "^" := by
  rw [Text.marks_append, h]
  rfl

theorem marks_of_captures {r : Rule} {t : Text} {runs : List Text}
    (h : r.pattern.captures? t = some runs) : ∀ run ∈ runs, run.marks = [] := by
  have hP : ∀ piece ∈ r.pattern, ∀ c ∈ Pattern.capturedClasses piece,
      c.isPlain = true ∧ c.holds ',' = false := by
    cases r <;> decide
  intro run hrun
  refine Text.marks_eq_nil ((Pattern.takes_of_captures h).forall_mem_runs ?_ run hrun)
  intro piece hp c hc x hx
  exact CharClass.isMark_of_holds (hP piece hp c hc).1 (hP piece hp c hc).2 hx

theorem marks_range {r : Rule} {t s : Text} {runs : List Text}
    (hc : r.pattern.captures? t = some runs) (h : r.range t runs = .ok s) :
    s.marks = r.rangeMarks := by
  have hruns := marks_of_captures hc
  have hfirst : (runs.headD []).marks = [] :=
    of_forall_headD (P := fun run => run.marks = []) rfl hruns
  have hsecond : (runs.tail.headD []).marks = [] :=
    of_forall_headD (P := fun run => run.marks = []) rfl
      fun run hrun => hruns run (List.mem_of_mem_tail hrun)
  cases r with
  | wildcard => exact Wildcard.marks_range h
  | exact | caretAtMost =>
      cases h
      exact hfirst
  | greater | doubleCaret | floorWildcard =>
      cases h
      exact marks_caret hfirst
  | caretFloor =>
      cases h
      exact marks_caret hsecond
  | caretBelow | bounded | openInterval =>
      cases h
      exact marks_interval hfirst hsecond

theorem comma_notMem_range {r : Rule} {t s : Text} {runs : List Text}
    (hc : r.pattern.captures? t = some runs) (h : r.range t runs = .ok s) :
    CodePoint.ofChar ',' ∉ s := by
  have hr : CodePoint.ofChar ',' ∉ r.rangeMarks := by cases r <;> decide
  rwa [← Text.mem_marks_iff, marks_range hc h]

theorem eq_wildcard_of_accepts_range {r r' : Rule} {t s : Text} {runs : List Text}
    (hc : r.pattern.captures? t = some runs) (h : r.range t runs = .ok s)
    (ha : r'.pattern.accepts s = true) : r' = .wildcard ∧ (r = .exact ∨ r = .caretAtMost) := by
  have hops : r'.pattern.operators = r.rangeMarks.filter CodePoint.isOperator := by
    rw [← marks_range hc h, Text.filter_isOperator_marks,
      Pattern.filter_isOperator_of_accepts r'.isPlain_pattern ha]
  have hall : ∀ r ∈ all, ∀ r' ∈ all,
      r'.pattern.operators = r.rangeMarks.filter CodePoint.isOperator →
        r' = .wildcard ∧ (r = .exact ∨ r = .caretAtMost) := by
    decide
  exact hall r r.mem_all r' r'.mem_all hops

theorem not_wildcard_of_version {s : Text} (hs : ∀ x ∈ s, CharClass.version.holds x = true) :
    Rule.wildcard.pattern.accepts s = false := by
  rw [← Bool.not_eq_true]
  intro ha
  obtain ⟨runs, hc⟩ := Option.isSome_iff_exists.1 ha
  obtain ⟨x, hx, hw⟩ := (Pattern.takes_of_captures hc).exists_mem_of_one (c := .wild) (by decide)
  have hv := hs x hx
  simp only [CharClass.holds, Bool.or_eq_true, decide_eq_true_eq] at hw
  rcases hw with (rfl | rfl) | rfl <;> cases hv

/-- Only a version that was asked for exactly can be taken by a rule again. -/
theorem not_accepts_range {r : Rule} {t s : Text} {runs : List Text} (hr : r ≠ .exact)
    (hc : r.pattern.captures? t = some runs) (h : r.range t runs = .ok s) (r' : Rule) :
    r'.pattern.accepts s = false := by
  rw [← Bool.not_eq_true]
  intro ha
  obtain ⟨rfl, rfl | rfl⟩ := eq_wildcard_of_accepts_range hc h ha
  · exact hr rfl
  · cases h
    have hP : ∀ piece ∈ Rule.caretAtMost.pattern, ∀ c ∈ Pattern.capturedClasses piece,
        c = .version := by decide
    have hruns := (Pattern.takes_of_captures hc).forall_mem_runs
      fun piece hp c hcl x hx => hP piece hp c hcl ▸ hx
    have hv := of_forall_headD (P := fun s => ∀ x ∈ s, CharClass.version.holds x = true)
      (by simp) hruns
    rw [not_wildcard_of_version hv] at ha
    cases ha

end Rule

end CrateIndex
