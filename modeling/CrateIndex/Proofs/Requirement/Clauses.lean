import CrateIndex.Proofs.Requirement.Conversion
import CrateIndex.Proofs.Requirement.Wildcard

/-!
# The versions of two clauses

A rule for two clauses captures the version of each. Where an operator stands between them neither
version is cut. Between a version and a wildcard there need be nothing, so that one run of digits
and dots can be taken for the two of them; this happens just if the requirement has only one run.
-/

namespace CrateIndex

/-- The code points that stand between versions: operators, commas and spaces. -/
def CodePoint.isSeparator (c : CodePoint) : Bool := c.isMark || c = ' '

theorem CodePoint.version_holds_of_isSeparator {x : CodePoint} (h : x.isSeparator = true) :
    CharClass.version.holds x = false := by
  rw [← Bool.not_eq_true]
  intro hv
  have hm : x.isMark = false := CharClass.isMark_of_holds (c := .version) rfl (by decide) hv
  simp only [isSeparator, hm, Bool.false_or, decide_eq_true_eq] at h
  subst h
  cases hv

theorem CharClass.version_holds_of_wild {x : CodePoint} (h : CharClass.wild.holds x = true) :
    CharClass.version.holds x = false := by
  simp only [CharClass.holds, Bool.or_eq_true, decide_eq_true_eq] at h
  rcases h with (rfl | rfl) | rfl <;> rfl

/-! ## Runs of digits and dots -/

namespace Text

/-- The maximal runs of digits and dots of a text, from left to right. -/
def versionRuns : Text → List Text
  | [] => []
  | c :: s =>
    if CharClass.version.holds c then
      match s.head?.any CharClass.version.holds, versionRuns s with
      | true, run :: runs => (c :: run) :: runs
      | _, runs => [c] :: runs
    else versionRuns s

/-- The text is not empty and holds digits and dots only. -/
def IsRun (s : Text) : Prop := s ≠ [] ∧ ∀ x ∈ s, CharClass.version.holds x = true

instance (s : Text) : Decidable s.IsRun :=
  inferInstanceAs (Decidable (s ≠ [] ∧ ∀ x ∈ s, CharClass.version.holds x = true))

variable {u s : Text}

theorem versionRuns_append (hu : ∀ x ∈ u, CharClass.version.holds x = false) (s : Text) :
    versionRuns (u ++ s) = versionRuns s := by
  induction u with
  | nil => rfl
  | cons x u ih =>
      rw [List.forall_mem_cons] at hu
      simp [versionRuns, hu.1, ih hu.2]

theorem versionRuns_run (hu : IsRun u) (hs : s.head?.any CharClass.version.holds = false) :
    versionRuns (u ++ s) = u :: versionRuns s := by
  obtain ⟨hne, hu⟩ := hu
  induction u with
  | nil => exact absurd rfl hne
  | cons x u ih =>
      obtain ⟨hx, hu⟩ := List.forall_mem_cons.1 hu
      cases u with
      | nil => simp [versionRuns, hx, hs]
      | cons y u =>
          have hy := hu y List.mem_cons_self
          have hrest := ih (by simp) hu
          rw [List.cons_append] at hrest ⊢
          rw [List.cons_append, versionRuns, List.head?_cons, Option.any_some, hy, hrest]
          simp [hx]

theorem versionRuns_run_append {v : Text} (hu : IsRun u)
    (hv : ∀ x ∈ v, CharClass.version.holds x = false) : versionRuns (u ++ v) = [u] := by
  have hend : versionRuns v = [] := by
    have happ := versionRuns_append hv []
    rwa [List.append_nil] at happ
  have hhead : v.head?.any CharClass.version.holds = false := by
    cases v with
    | nil => rfl
    | cons x v => exact hv x List.mem_cons_self
  rw [versionRuns_run hu hhead, hend]

theorem versionRuns_singleton (hu : IsRun u) : versionRuns u = [u] := by
  have happ := versionRuns_run_append hu (v := []) (by simp)
  rwa [List.append_nil] at happ

end Text

/-! ## Patterns with two versions -/

namespace Pattern

/-- The piece takes separators only, and captures nothing. -/
def isSeparating : Piece → Bool
  | .capture _ => false
  | piece => piece.classes.all fun c => match c with
    | .just a => (CodePoint.ofChar a).isSeparator
    | _ => false

variable {p front mid tail : Pattern} {s : Text} {runs : List Text}

theorem isSeparator_of_isSeparating {piece : Piece} (h : isSeparating piece = true) :
    ∀ c ∈ piece.classes, ∀ x, c.holds x = true → x.isSeparator = true := by
  have hall : piece.classes.all (fun c => match c with
      | .just a => (CodePoint.ofChar a).isSeparator
      | _ => false) = true := by
    cases piece with
    | capture c => cases h
    | one c | many c | maybe cs => exact h
  intro c hc x hx
  have hsep := List.all_eq_true.1 hall c hc
  cases c with
  | just a =>
      simp only [CharClass.holds, decide_eq_true_eq] at hx
      rw [hx]
      exact hsep
  | version | wild | tag => cases hsep

theorem Takes.separators (h : Takes p s runs) (hp : ∀ piece ∈ p, isSeparating piece = true) :
    runs = [] ∧ ∀ x ∈ s, x.isSeparator = true := by
  refine ⟨?_, h.forall_mem fun piece hm => isSeparator_of_isSeparating (hp piece hm)⟩
  induction h with
  | nil => rfl
  | one _ _ ih | many _ _ ih | maybe _ _ ih | skip _ ih => exact ih (List.forall_mem_cons.1 hp).2
  | capture _ _ _ => cases (List.forall_mem_cons.1 hp).1

theorem Takes.version (h : Takes [Rule.version] s runs) : s.IsRun ∧ runs = [s] := by
  cases h with
  | capture hu h =>
      cases h
      rw [List.append_nil]
      exact ⟨⟨by simp, hu⟩, rfl⟩

theorem takes_version (h : s.IsRun) : Takes [Rule.version] s [s] := by
  obtain ⟨hne, hs⟩ := h
  cases s with
  | nil => exact absurd rfl hne
  | cons x s =>
      have h : Takes [Rule.version] (x :: s ++ []) [x :: s] := .capture hs .nil
      rwa [List.append_nil] at h

/-- A text with two versions, each with separators in front. -/
theorem Takes.two_versions (hf : ∀ piece ∈ front, isSeparating piece = true)
    (hm : ∀ piece ∈ mid, isSeparating piece = true)
    (h : Takes (front ++ ([Rule.version] ++ (mid ++ ([Rule.version] ++ tail)))) s runs) :
    ∃ u a m b v vs, s = u ++ (a ++ (m ++ (b ++ v))) ∧ runs = a :: b :: vs ∧
      (∀ x ∈ u, x.isSeparator = true) ∧ a.IsRun ∧ Takes mid m [] ∧
      (∀ x ∈ m, x.isSeparator = true) ∧ b.IsRun ∧ Takes tail v vs := by
  obtain ⟨u, s₁, us, vs₁, rfl, rfl, hu, h₁⟩ := h.append_cases
  obtain ⟨a, s₂, as, vs₂, rfl, rfl, ha, h₂⟩ := h₁.append_cases
  obtain ⟨m, s₃, ms, vs₃, rfl, rfl, hmid, h₃⟩ := h₂.append_cases
  obtain ⟨b, v, bs, vs, rfl, rfl, hb, ht⟩ := h₃.append_cases
  obtain ⟨rfl, hsu⟩ := hu.separators hf
  obtain ⟨hra, rfl⟩ := ha.version
  obtain ⟨rfl, hsm⟩ := hmid.separators hm
  obtain ⟨hrb, rfl⟩ := hb.version
  exact ⟨u, a, m, b, v, vs, rfl, rfl, hsu, hra, hmid, hsm, hrb, ht⟩

end Pattern

namespace Rule

/-- The rules for two clauses. -/
def twoClauses : List Rule :=
  [.caretFloor, .caretBelow, .caretAtMost, .bounded, .doubleCaret, .openInterval, .floorWildcard]

/-- The second version of two clauses as it is written: with the dot in front of a wildcard. -/
def secondVersion (r : Rule) (run : Text) : Text := if r = .floorWildcard then run ++ "." else run

/-- The rules that ask for an operator between the two versions. -/
theorem pattern_eq_of_twoClauses {r : Rule} (hr : r ∈ twoClauses) (hw : r ≠ .floorWildcard) :
    ∃ front mid : Pattern, ∃ op, r.pattern = front ++ ([version] ++ (mid ++ ([version] ++ []))) ∧
      (∀ piece ∈ front, Pattern.isSeparating piece = true) ∧
      (∀ piece ∈ mid, Pattern.isSeparating piece = true) ∧ lit op ∈ mid := by
  cases r with
  | caretFloor => exact ⟨[lit '^'], gap ++ [lit '>', lit '=', spaces], '>', rfl, by decide⟩
  | caretBelow => exact ⟨[lit '^'], gap ++ [lit '<', spaces], '<', rfl, by decide⟩
  | caretAtMost => exact ⟨[lit '^'], gap ++ [lit '<', lit '=', spaces], '<', rfl, by decide⟩
  | bounded =>
      exact ⟨[lit '>', lit '=', spaces], gap ++ [lit '<', lit '=', spaces], '<', rfl, by decide⟩
  | doubleCaret => exact ⟨[lit '^', spaces], gap ++ [lit '^', spaces], '^', rfl, by decide⟩
  | openInterval => exact ⟨[lit '>', spaces], gap ++ [lit '<', spaces], '<', rfl, by decide⟩
  | floorWildcard => exact absurd rfl hw
  | wildcard | exact | greater => exact absurd hr (by decide)

end Rule

namespace Requirement

open Pattern Text

variable {expr s a b : Text} {r : Rule} {runs : List Text}

/-- The versions `a` and `b` are the maximal runs of digits and dots of the text. In front of the
first there are separators only, and one stands right behind it. -/
structure KeepsVersions (s a b : Text) : Prop where
  runs : versionRuns s = [a, b]
  separated : ∃ u c t, s = u ++ (a ++ c :: t) ∧ (∀ x ∈ u, x.isSeparator = true) ∧
    c.isSeparator = true

theorem head?_any_separators {m : Text} (hm : ∀ x ∈ m, x.isSeparator = true) (hne : m ≠ [])
    (t : Text) : (m ++ t).head?.any CharClass.version.holds = false := by
  cases m with
  | nil => exact absurd rfl hne
  | cons c m => exact CodePoint.version_holds_of_isSeparator (hm c List.mem_cons_self)

theorem versionRuns_separators {u : Text} (hu : ∀ x ∈ u, x.isSeparator = true) (s : Text) :
    versionRuns (u ++ s) = versionRuns s :=
  versionRuns_append (fun x hx => CodePoint.version_holds_of_isSeparator (hu x hx)) s

theorem keepsVersions_of_separated {u m v : Text} (hu : ∀ x ∈ u, x.isSeparator = true)
    (ha : a.IsRun) (hm : ∀ x ∈ m, x.isSeparator = true) (hne : m ≠ []) (hb : b.IsRun)
    (hv : ∀ x ∈ v, CharClass.version.holds x = false) :
    KeepsVersions (u ++ (a ++ (m ++ (b ++ v)))) a b := by
  refine ⟨?_, ?_⟩
  · rw [versionRuns_separators hu, versionRuns_run ha (head?_any_separators hm hne _),
      versionRuns_separators hm, versionRuns_run_append hb hv]
  · cases m with
    | nil => exact absurd rfl hne
    | cons c m => exact ⟨u, c, m ++ (b ++ v), rfl, hu, hm c List.mem_cons_self⟩

/-- With an operator between them the two versions are kept. -/
theorem keepsVersions_of_captures (hr : r ∈ Rule.twoClauses) (hw : r ≠ .floorWildcard)
    (h : r.pattern.captures? s = some runs) :
    ∃ a b, runs = [a, b] ∧ a.IsRun ∧ b.IsRun ∧ KeepsVersions s a b := by
  obtain ⟨front, mid, op, hp, hf, hm, hop⟩ := Rule.pattern_eq_of_twoClauses hr hw
  have ht := takes_of_captures h
  rw [hp] at ht
  obtain ⟨u, a, m, b, v, vs, rfl, rfl, hu, ha, hmid, hsep, hb, hv⟩ := ht.two_versions hf hm
  cases hv
  obtain ⟨x, hx, -⟩ := hmid.exists_mem_of_one hop
  exact ⟨a, b, rfl, ha, hb,
    keepsVersions_of_separated hu ha hsep (List.ne_nil_of_mem hx) hb (by simp)⟩

/-- A version and a wildcard are kept if something stands between them. If nothing does they are one
run of digits and dots, which is cut in two. -/
theorem floorWildcard_cases (h : Rule.floorWildcard.pattern.captures? s = some runs) :
    ∃ a b, runs = [a, b] ∧ a.IsRun ∧
      (KeepsVersions s a (b ++ ".") ∨ versionRuns s = [a ++ (b ++ ".")]) := by
  have ht := takes_of_captures h
  have hp : Rule.floorWildcard.pattern =
      [Rule.lit '>', Rule.lit '=', Rule.spaces] ++ ([Rule.version] ++ (Rule.gap ++
        ([Rule.version] ++ [Rule.lit '.', .one .wild]))) := rfl
  rw [hp] at ht
  obtain ⟨u, a, m, b, v, vs, rfl, rfl, hu, ha, -, hsep, hb, hv⟩ :=
    ht.two_versions (by decide) (by decide)
  cases hv with
  | @one _ _ dot _ _ hdot hv =>
      cases hv with
      | @one _ _ w _ _ hw hv =>
          cases hv
          obtain rfl : dot = .ofChar '.' := by
            simpa only [CharClass.holds, decide_eq_true_eq] using hdot
          have hend : ∀ x ∈ [w], CharClass.version.holds x = false :=
            List.forall_mem_singleton.2 (CharClass.version_holds_of_wild hw)
          have hassoc : b ++ [CodePoint.ofChar '.', w] = (b ++ ".") ++ [w] := by
            simp [Text.ofString]
          have hdots : ∀ x ∈ (b ++ "." : Text), CharClass.version.holds x = true :=
            List.forall_mem_append.2 ⟨hb.2, by decide⟩
          refine ⟨a, b, rfl, ha, ?_⟩
          rw [hassoc]
          by_cases hm : m = []
          · right
            have hrun : (a ++ (b ++ ".") : Text).IsRun :=
              ⟨by simp [ha.1], List.forall_mem_append.2 ⟨ha.2, hdots⟩⟩
            rw [hm, List.nil_append, versionRuns_separators hu, ← List.append_assoc,
              versionRuns_run_append hrun hend]
          · left
            exact keepsVersions_of_separated hu ha hsep hm ⟨by simp [hb.1], hdots⟩ hend

theorem versionRuns_interval (ha : a.IsRun) (hb : b.IsRun) :
    versionRuns (Rule.interval a b) = [a, b] := by
  have hassoc : Rule.interval a b =
      (">= " : Text) ++ (a ++ ((" < " : Text) ++ (b ++ ([] : Text)))) := by
    simp [Rule.interval]
  rw [hassoc]
  exact (keepsVersions_of_separated (by decide) ha (by decide) (by decide) hb (by simp)).runs

theorem versionRuns_caret (ha : a.IsRun) : versionRuns ("^" ++ a) = [a] := by
  rw [versionRuns_separators (by decide), versionRuns_singleton ha]

/-- The range of two clauses has no runs of digits and dots but the versions captured. -/
theorem versionRuns_range (s : Text) (hr : r ∈ Rule.twoClauses) (ha : a.IsRun) (hb : b.IsRun) :
    ∃ range, r.range s [a, b] = .ok range ∧
      ∀ run ∈ versionRuns range, run = a ∨ r ≠ .floorWildcard ∧ run = b := by
  cases r with
  | caretFloor =>
      refine ⟨"^" ++ b, rfl, ?_⟩
      simp [versionRuns_caret hb]
  | caretBelow | bounded | openInterval =>
      refine ⟨Rule.interval a b, rfl, ?_⟩
      simp [versionRuns_interval ha hb]
  | caretAtMost =>
      refine ⟨a, rfl, ?_⟩
      simp [versionRuns_singleton ha]
  | doubleCaret | floorWildcard =>
      refine ⟨"^" ++ a, rfl, ?_⟩
      simp [versionRuns_caret ha]
  | wildcard | exact | greater => exact absurd hr (by decide)

/-- A rule for two clauses that takes a requirement keeps the versions whole if it is not the one
that ends in a wildcard, or if the requirement has two runs of digits and dots. Every run in the
range is one of the requirement then. Otherwise the one run of the requirement is cut in two, and
the range holds the first part of it. -/
theorem rule?_keepsVersions (hr : r ∈ Rule.twoClauses) (h : rule? expr = some r) :
    ∃ a b range, r.pattern.captures? (spaced expr) = some [a, b] ∧
      (toRange expr).result = .ok range ∧
      (r ≠ .floorWildcard ∨ (versionRuns (spaced expr)).length = 2 →
        KeepsVersions (spaced expr) a (r.secondVersion b) ∧
        ∀ run ∈ versionRuns range, run ∈ versionRuns (spaced expr)) ∧
      (r = .floorWildcard → (versionRuns (spaced expr)).length ≠ 2 →
        versionRuns (spaced expr) = [a ++ (b ++ ".")] ∧ versionRuns range = [a]) := by
  obtain ⟨-, haccepts⟩ := firstOf_eq_some_iff.1 h
  obtain ⟨runs, hc⟩ := Option.isSome_iff_exists.1 haccepts
  by_cases hw : r = .floorWildcard
  · subst hw
    obtain ⟨a, b, rfl, ha, hcases⟩ := floorWildcard_cases hc
    refine ⟨a, b, "^" ++ a, hc, toRange_of_captures hc, ?_, ?_⟩
    · intro hlen
      have hlen := hlen.resolve_left (by simp)
      have hkeeps := hcases.resolve_right (by rintro hone; simp [hone] at hlen)
      refine ⟨hkeeps, ?_⟩
      rw [versionRuns_caret ha, hkeeps.runs]
      simp
    · intro _ hlen
      have hone := hcases.resolve_left (by rintro hkeeps; simp [hkeeps.runs] at hlen)
      exact ⟨hone, versionRuns_caret ha⟩
  · obtain ⟨a, b, rfl, ha, hb, hkeeps⟩ := keepsVersions_of_captures hr hw hc
    obtain ⟨range, hrange, hruns⟩ := versionRuns_range (spaced expr) hr ha hb
    refine ⟨a, b, range, hc, (toRange_of_captures hc).trans hrange, ?_, fun hf => absurd hf hw⟩
    intro _
    rw [Rule.secondVersion, if_neg hw]
    refine ⟨hkeeps, ?_⟩
    intro run hrun
    rw [hkeeps.runs]
    rcases hruns run hrun with rfl | ⟨-, rfl⟩ <;> simp

/-- A version and a wildcard with a comma between them, and without. -/
theorem rule?_keepsVersions_floorWildcard :
    KeepsVersions (spaced ">= 1.0, 1.2.*") "1.0" "1.2." ∧
    versionRuns (spaced ">=1.2.*") = [("1.2." : Text)] := by
  have hc : Rule.floorWildcard.pattern.captures? (spaced ">= 1.0, 1.2.*") =
      some [("1.0" : Text), ("1.2" : Text)] := by decide
  have hc' : Rule.floorWildcard.pattern.captures? (spaced ">=1.2.*") =
      some [("1." : Text), ("2" : Text)] := by decide
  have hr : rule? ">= 1.0, 1.2.*" = some .floorWildcard := by decide
  have hr' : rule? ">=1.2.*" = some .floorWildcard := by decide
  obtain ⟨a, b, range, h, -, hkeeps, -⟩ := rule?_keepsVersions (by decide) hr
  obtain ⟨a', b', range', h', -, -, hcuts⟩ := rule?_keepsVersions (by decide) hr'
  simp only [hc, Option.some.injEq, List.cons.injEq, and_true] at h
  simp only [hc', Option.some.injEq, List.cons.injEq, and_true] at h'
  obtain ⟨rfl, rfl⟩ := h
  obtain ⟨rfl, rfl⟩ := h'
  exact ⟨(hkeeps (.inr (by decide))).1, (hcuts rfl (by decide)).1⟩

/-- A single clause is taken for a version and a wildcard, and its number is cut. -/
theorem rule?_cuts_number :
    rule? ">=12.*" = some .floorWildcard ∧
    Rule.floorWildcard.pattern.captures? (spaced ">=12.*") = some [("1" : Text), ("2" : Text)] ∧
    ¬ KeepsVersions (spaced ">=12.*") "1" (Rule.floorWildcard.secondVersion "2") ∧
    (toRange ">=12.*").result = .ok "^1" ∧
    ∃ run ∈ versionRuns ("^1" : Text), run ∉ versionRuns (spaced ">=12.*") := by
  refine ⟨by decide, by decide, ?_, rfl, by decide⟩
  intro h
  exact absurd h.runs (by decide)

end Requirement

end CrateIndex
