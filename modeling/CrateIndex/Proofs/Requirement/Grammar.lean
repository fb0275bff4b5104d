import CrateIndex.Proofs.Requirement.Clauses
import Mathlib.Logic.ExistsUnique

/-!
# The grammar of two clauses

Two clauses are an operator and a version, and once more an operator and a version, with spaces and
a comma between these wherever a gap may stand. The rules for two clauses take just the texts that
are written so, and capture the two versions.
-/

namespace CrateIndex

namespace Requirement

/-- A gap between the pieces of two clauses. -/
def IsGap (g : Text) : Prop := ∀ x ∈ g, x = CodePoint.ofChar ' ' ∨ x = CodePoint.ofChar ','

instance (g : Text) : Decidable (IsGap g) :=
  inferInstanceAs (Decidable (∀ x ∈ g, x = CodePoint.ofChar ' ' ∨ x = CodePoint.ofChar ','))

/-- How two clauses are written: the operators of the first and of the second version, and whether a
gap may stand behind the first operator. The range is made of the two versions. -/
structure ClauseForm where
  first : String
  second : String
  loose : Bool
  range : Text → Text → Text

/-- The text is two clauses of the form with the versions `a` and `b`. -/
inductive ClauseForm.Writes (f : ClauseForm) : Text → Text → Text → Prop
  | mk {h a g k b : Text} (hh : IsGap h) (ha : a.IsRun) (hg : IsGap g) (hk : IsGap k) (hb : b.IsRun)
      (hloose : f.loose = false → h = []) :
      Writes f (f.first ++ (h ++ (a ++ (g ++ (f.second ++ (k ++ b)))))) a b

end Requirement

namespace Rule

open Requirement

/-- The form of the rules that ask for an operator in front of each version. -/
def form? : Rule → Option ClauseForm
  | .caretFloor => some ⟨"^", ">=", false, fun _ b => "^" ++ b⟩
  | .caretBelow => some ⟨"^", "<", false, fun a b => ">= " ++ a ++ " < " ++ b⟩
  | .caretAtMost => some ⟨"^", "<=", false, fun a _ => a⟩
  | .bounded => some ⟨">=", "<=", true, fun a b => ">= " ++ a ++ " < " ++ b⟩
  | .doubleCaret => some ⟨"^", "^", true, fun a _ => "^" ++ a⟩
  | .openInterval => some ⟨">", "<", true, fun a b => ">= " ++ a ++ " < " ++ b⟩
  | .wildcard | .exact | .greater | .floorWildcard => none

variable {r : Rule} {f : ClauseForm}

theorem range_of_form (h : r.form? = some f) (s a b : Text) :
    r.range s [a, b] = .ok (f.range a b) := by
  cases r with
  | wildcard | exact | greater | floorWildcard => cases h
  | _ =>
      cases h
      rfl

def operator (op : String) : Pattern := op.toList.map lit

/-- The pieces between the first operator and its version. -/
def loosely (loose : Bool) : Pattern := if loose then [spaces] else []

theorem pattern_of_form (h : r.form? = some f) : r.pattern =
    operator f.first ++ (loosely f.loose ++ ([version] ++ (gap ++ (operator f.second ++
      ([spaces] ++ [version]))))) := by
  cases r with
  | wildcard | exact | greater | floorWildcard => cases h
  | _ =>
      cases h
      rfl

theorem isSeparator_of_form (h : r.form? = some f) :
    (∀ x ∈ Text.ofString f.first, x.isSeparator = true ∧ x ≠ ' ' ∧ x ≠ ',') ∧
      Text.ofString f.second ≠ [] ∧
      ∀ x ∈ Text.ofString f.second, x.isSeparator = true ∧ x ≠ ' ' ∧ x ≠ ',' := by
  cases r with
  | wildcard | exact | greater | floorWildcard => cases h
  | _ =>
      cases h
      decide

end Rule

theorem Text.IsRun.ne {s : Text} (h : s.IsRun) :
    ∀ x ∈ s, x ≠ CodePoint.ofChar ' ' ∧ x ≠ CodePoint.ofChar ',' := by
  intro x hx
  have hv := h.2 x hx
  constructor
  · rintro rfl
    cases hv
  · rintro rfl
    cases hv

/-! ## What the pieces take -/

namespace Pattern

variable {s : Text} {runs : List Text}

theorem takes_operator_iff {op : String} :
    Takes (Rule.operator op) s runs ↔ s = Text.ofString op ∧ runs = [] := by
  rw [Rule.operator, Text.ofString]
  generalize op.toList = cs
  induction cs generalizing s with
  | nil =>
      constructor
      · intro h
        cases h
        exact ⟨rfl, rfl⟩
      · rintro ⟨rfl, rfl⟩
        exact .nil
  | cons c cs ih =>
      constructor
      · intro h
        cases h with
        | one hx h =>
            obtain ⟨rfl, rfl⟩ := ih.1 h
            simp only [CharClass.holds, decide_eq_true_eq] at hx
            rw [hx]
            exact ⟨rfl, rfl⟩
      · rintro ⟨rfl, rfl⟩
        exact .one (by simp [CharClass.holds]) (ih.2 ⟨rfl, rfl⟩)

theorem takes_spaces_iff :
    Takes [Rule.spaces] s runs ↔ (∀ x ∈ s, x = CodePoint.ofChar ' ') ∧ runs = [] := by
  constructor
  · intro h
    cases h with
    | many hu h =>
        cases h
        rw [List.append_nil]
        exact ⟨fun x hx => by simpa [CharClass.holds] using hu x hx, rfl⟩
  · rintro ⟨hs, rfl⟩
    have h : Takes [Rule.spaces] (s ++ []) [] := .many (by simpa [CharClass.holds] using hs) .nil
    rwa [List.append_nil] at h

theorem takes_loosely_iff {loose : Bool} : Takes (Rule.loosely loose) s runs ↔
    (∀ x ∈ s, x = CodePoint.ofChar ' ') ∧ (loose = false → s = []) ∧ runs = [] := by
  cases loose with
  | true =>
      rw [Rule.loosely, if_pos rfl, takes_spaces_iff]
      simp
  | false =>
      constructor
      · intro h
        cases h
        simp
      · rintro ⟨-, hs, rfl⟩
        rw [hs rfl]
        exact .nil

theorem takes_gap (h : Takes Rule.gap s runs) : Requirement.IsGap s ∧ runs = [] := by
  cases h with
  | maybe hu h =>
      obtain ⟨hs, rfl⟩ := takes_spaces_iff.1 h
      refine ⟨List.forall_mem_append.2 ⟨?_, fun x hx => .inl (hs x hx)⟩, rfl⟩
      cases hu with
      | cons hx hu =>
          cases hu
          exact List.forall_mem_singleton.2 (.inr (by simpa [CharClass.holds] using hx))
  | skip h =>
      obtain ⟨hs, rfl⟩ := takes_spaces_iff.1 h
      exact ⟨fun x hx => .inl (hs x hx), rfl⟩

theorem takes_gap_of_spaces (h : ∀ x ∈ s, x = CodePoint.ofChar ' ') : Takes Rule.gap s [] :=
  .skip (takes_spaces_iff.2 ⟨h, rfl⟩)

end Pattern

namespace Requirement

open Pattern Text

variable {expr s t g a b : Text} {r : Rule} {f : ClauseForm} {runs : List Text}

/-! ## Commas and spaces -/

def blank (x : CodePoint) : CodePoint :=
  if x = CodePoint.ofChar ',' then CodePoint.ofChar ' ' else x

theorem blank_of_ne {x : CodePoint} (h : x ≠ CodePoint.ofChar ',') : blank x = x := if_neg h

theorem map_blank_eq_self (h : ∀ x ∈ s, x ≠ CodePoint.ofChar ',') : s.map blank = s := by
  have hs : s.map blank = s.map id := List.map_congr_left fun x hx => blank_of_ne (h x hx)
  rwa [List.map_id] at hs

theorem map_blank_spaced (expr : Text) : (spaced expr).map blank = expr.map blank := by
  induction expr with
  | nil => rfl
  | cons x s ih =>
      by_cases hx : x = CodePoint.ofChar ','
      · subst hx
        rfl
      · rw [spaced, replaceFirst, if_neg hx, List.map_cons, List.map_cons]
        exact congrArg _ ih

/-- A text without spaces is written with spaces for commas just by itself. -/
theorem map_blank_eq_iff (h : ∀ x ∈ t, x ≠ CodePoint.ofChar ' ' ∧ x ≠ CodePoint.ofChar ',') :
    s.map blank = t ↔ s = t := by
  constructor
  · rintro rfl
    refine (map_blank_eq_self fun x hx hc => ?_).symm
    subst hc
    exact (h _ (List.mem_map_of_mem hx)).1 rfl
  · rintro rfl
    exact map_blank_eq_self fun x hx => (h x hx).2

theorem isGap_map_blank_iff : IsGap (s.map blank) ↔ IsGap s := by
  rw [IsGap, List.forall_mem_map]
  refine forall₂_congr fun x _ => ?_
  by_cases hx : x = CodePoint.ofChar ','
  · simp [hx, blank]
  · rw [blank_of_ne hx]

theorem IsGap.isSeparator (h : IsGap g) : ∀ x ∈ g, x.isSeparator = true := by
  intro x hx
  rcases h x hx with rfl | rfl
  · rfl
  · rfl

theorem IsGap.spaces (h : IsGap g) (hc : CodePoint.ofChar ',' ∉ g) :
    ∀ x ∈ g, x = CodePoint.ofChar ' ' := by
  intro x hx
  rcases h x hx with hs | rfl
  · exact hs
  · exact absurd hx hc

/-! ## Rules and forms -/

/-- It makes no difference to the form where commas stand for spaces. -/
theorem writes_map_blank_iff (hr : r.form? = some f) :
    f.Writes (s.map blank) a b ↔ f.Writes s a b := by
  obtain ⟨hfirst, -, hsecond⟩ := Rule.isSeparator_of_form hr
  replace hfirst := fun x hx => (hfirst x hx).2
  replace hsecond := fun x hx => (hsecond x hx).2
  constructor
  · intro hw
    generalize hs : s.map blank = s' at hw
    cases hw with
    | mk hh ha hg hk hb hloose =>
        obtain ⟨first, s₁, rfl, hf, hs₁⟩ := List.map_eq_append_iff.1 hs
        obtain ⟨h, s₂, rfl, rfl, hs₂⟩ := List.map_eq_append_iff.1 hs₁
        obtain ⟨a', s₃, rfl, ha', hs₃⟩ := List.map_eq_append_iff.1 hs₂
        obtain ⟨g, s₄, rfl, rfl, hs₄⟩ := List.map_eq_append_iff.1 hs₃
        obtain ⟨second, s₅, rfl, hsnd, hs₅⟩ := List.map_eq_append_iff.1 hs₄
        obtain ⟨k, b', rfl, rfl, hb'⟩ := List.map_eq_append_iff.1 hs₅
        obtain rfl := (map_blank_eq_iff hfirst).1 hf
        obtain rfl := (map_blank_eq_iff ha.ne).1 ha'
        obtain rfl := (map_blank_eq_iff hsecond).1 hsnd
        obtain rfl := (map_blank_eq_iff hb.ne).1 hb'
        exact .mk (isGap_map_blank_iff.1 hh) ha (isGap_map_blank_iff.1 hg)
          (isGap_map_blank_iff.1 hk) hb fun hl => List.map_eq_nil_iff.1 (hloose hl)
  · intro hw
    cases hw with
    | mk hh ha hg hk hb hloose =>
        simp only [List.map_append, (map_blank_eq_iff hfirst).2, (map_blank_eq_iff hsecond).2,
          (map_blank_eq_iff ha.ne).2, (map_blank_eq_iff hb.ne).2]
        exact .mk (isGap_map_blank_iff.2 hh) ha (isGap_map_blank_iff.2 hg)
          (isGap_map_blank_iff.2 hk) hb fun hl => List.map_eq_nil_iff.2 (hloose hl)

theorem writes_spaced_iff (hr : r.form? = some f) :
    f.Writes (spaced expr) a b ↔ f.Writes expr a b := by
  rw [← writes_map_blank_iff hr, map_blank_spaced, writes_map_blank_iff hr]

theorem versionRuns_of_writes (hr : r.form? = some f) (hw : f.Writes s a b) :
    versionRuns s = [a, b] := by
  obtain ⟨hfirst, hne, hsecond⟩ := Rule.isSeparator_of_form hr
  cases hw with
  | @mk h a g k b hh ha hg hk hb _ =>
      have hu : ∀ x ∈ Text.ofString f.first ++ h, x.isSeparator = true :=
        List.forall_mem_append.2 ⟨fun x hx => (hfirst x hx).1, hh.isSeparator⟩
      have hm : ∀ x ∈ g ++ (Text.ofString f.second ++ k), x.isSeparator = true := by
        rw [List.forall_mem_append, List.forall_mem_append]
        exact ⟨hg.isSeparator, fun x hx => (hsecond x hx).1, hk.isSeparator⟩
      have hkeeps := keepsVersions_of_separated (v := []) hu ha hm (by simp [hne]) hb (by simp)
      simpa only [List.append_assoc, List.append_nil] using hkeeps.runs

theorem takes_of_writes (hr : r.form? = some f) (hw : f.Writes s a b)
    (hc : CodePoint.ofChar ',' ∉ s) : Takes r.pattern s [a, b] := by
  rw [Rule.pattern_of_form hr]
  cases hw with
  | mk hh ha hg hk hb hloose =>
      simp only [List.mem_append, not_or] at hc
      obtain ⟨-, hch, -, hcg, -, hck, -⟩ := hc
      have hfirst : Takes (Rule.operator f.first) f.first [] := takes_operator_iff.2 ⟨rfl, rfl⟩
      have hsecond : Takes (Rule.operator f.second) f.second [] := takes_operator_iff.2 ⟨rfl, rfl⟩
      have hloosely := takes_loosely_iff.2 ⟨hh.spaces hch, hloose, rfl⟩
      have hgap := takes_gap_of_spaces (hg.spaces hcg)
      have hspaces := takes_spaces_iff.2 ⟨hk.spaces hck, rfl⟩
      exact hfirst.append (hloosely.append ((takes_version ha).append
        (hgap.append (hsecond.append (hspaces.append (takes_version hb))))))

theorem writes_of_takes (hr : r.form? = some f) (ht : Takes r.pattern s runs) :
    ∃ a b, runs = [a, b] ∧ f.Writes s a b := by
  rw [Rule.pattern_of_form hr] at ht
  obtain ⟨_, _, _, _, rfl, rfl, hfirst, ht⟩ := ht.append_cases
  obtain ⟨h, _, _, _, rfl, rfl, hloosely, ht⟩ := ht.append_cases
  obtain ⟨a, _, _, _, rfl, rfl, ha, ht⟩ := ht.append_cases
  obtain ⟨g, _, _, _, rfl, rfl, hg, ht⟩ := ht.append_cases
  obtain ⟨_, _, _, _, rfl, rfl, hsecond, ht⟩ := ht.append_cases
  obtain ⟨k, b, _, _, rfl, rfl, hk, hb⟩ := ht.append_cases
  obtain ⟨rfl, rfl⟩ := takes_operator_iff.1 hfirst
  obtain ⟨hh, hloose, rfl⟩ := takes_loosely_iff.1 hloosely
  obtain ⟨hra, rfl⟩ := ha.version
  obtain ⟨hgap, rfl⟩ := takes_gap hg
  obtain ⟨rfl, rfl⟩ := takes_operator_iff.1 hsecond
  obtain ⟨hspaces, rfl⟩ := takes_spaces_iff.1 hk
  obtain ⟨hrb, rfl⟩ := hb.version
  exact ⟨a, b, rfl,
    .mk (fun x hx => .inl (hh x hx)) hra hgap (fun x hx => .inl (hspaces x hx)) hrb hloose⟩

theorem captures_of_writes (hr : r.form? = some f) (hw : f.Writes s a b)
    (hc : CodePoint.ofChar ',' ∉ s) : r.pattern.captures? s = some [a, b] := by
  refine captures_eq_of_takes (takes_of_writes hr hw hc) fun runs ht => ?_
  obtain ⟨a', b', rfl, hw'⟩ := writes_of_takes hr ht
  rw [← versionRuns_of_writes hr hw, ← versionRuns_of_writes hr hw']

theorem comma_notMem_spaced (h : commas expr ≤ 1) : CodePoint.ofChar ',' ∉ spaced expr := by
  have hs := commas_spaced expr
  exact List.count_eq_zero.1 (by change commas (spaced expr) = 0; omega)

/-! ## A version and a wildcard -/

/-- The text is a lower bound `a` and a wildcard, with a gap between them. -/
inductive WritesFloor : Text → Text → Prop
  | mk {h a g n : Text} {w : CodePoint} (hh : IsGap h) (ha : a.IsRun) (hg : IsGap g) (hne : g ≠ [])
      (hn : n.IsRun) (hw : CharClass.wild.holds w = true) :
      WritesFloor (">=" ++ (h ++ (a ++ (g ++ (n ++ ("." ++ [w])))))) a

theorem blank_wild {w : CodePoint} (h : CharClass.wild.holds w = true) : blank w = w := by
  refine blank_of_ne ?_
  rintro rfl
  cases h

theorem WritesFloor.spaced (h : WritesFloor expr a) (hc : commas expr ≤ 1) :
    WritesFloor (spaced expr) a := by
  have hs : Requirement.spaced expr = expr.map blank := by
    rw [← map_blank_spaced]
    exact (map_blank_eq_self fun x hx he => comma_notMem_spaced hc (he ▸ hx)).symm
  rw [hs]
  cases h with
  | mk hh ha hg hne hn hw =>
      simp only [List.map_append, (map_blank_eq_iff ha.ne).2, (map_blank_eq_iff hn.ne).2,
        List.map_cons, List.map_nil, blank_wild hw]
      exact .mk (isGap_map_blank_iff.2 hh) ha (isGap_map_blank_iff.2 hg) (by simpa using hne) hn hw

theorem versionRuns_of_writesFloor (h : WritesFloor s a) : ∃ b, versionRuns s = [a, b] := by
  cases h with
  | @mk h a g n w hh ha hg hne hn hw =>
      have hu : ∀ x ∈ (">=" : Text) ++ h, x.isSeparator = true :=
        List.forall_mem_append.2 ⟨by decide, hh.isSeparator⟩
      have hb : (n ++ "." : Text).IsRun :=
        ⟨by simp [hn.1], List.forall_mem_append.2 ⟨hn.2, by decide⟩⟩
      have hv : ∀ x ∈ [w], CharClass.version.holds x = false :=
        List.forall_mem_singleton.2 (CharClass.version_holds_of_wild hw)
      have hkeeps := keepsVersions_of_separated hu ha hg.isSeparator hne hb hv
      refine ⟨n ++ ".", ?_⟩
      simpa only [List.append_assoc] using hkeeps.runs

theorem takes_of_writesFloor (h : WritesFloor s a) (hc : CodePoint.ofChar ',' ∉ s) :
    ∃ n, Takes Rule.floorWildcard.pattern s [a, n] := by
  cases h with
  | @mk h a g n w hh ha hg _ hn hw =>
      simp only [List.mem_append, not_or] at hc
      obtain ⟨-, hch, -, hcg, -⟩ := hc
      have hfloor : Takes (Rule.operator ">=") ">=" [] := takes_operator_iff.2 ⟨rfl, rfl⟩
      have hspaces := takes_spaces_iff.2 ⟨hh.spaces hch, rfl⟩
      have hgap := takes_gap_of_spaces (hg.spaces hcg)
      have hend : Takes [Rule.lit '.', .one .wild] ("." ++ [w]) [] := .one rfl (.one hw .nil)
      exact ⟨n, hfloor.append (hspaces.append ((takes_version ha).append
        (hgap.append ((takes_version hn).append hend))))⟩

theorem captures_of_writesFloor (h : WritesFloor s a) (hc : CodePoint.ofChar ',' ∉ s) :
    ∃ n, Rule.floorWildcard.pattern.captures? s = some [a, n] := by
  obtain ⟨n, ht⟩ := takes_of_writesFloor h hc
  obtain ⟨runs, hr⟩ := exists_captures_of_takes ht
  obtain ⟨b, hruns⟩ := versionRuns_of_writesFloor h
  obtain ⟨a', b', rfl, -, hkeeps | hcut⟩ := floorWildcard_cases hr
  · have ha := hkeeps.runs
    rw [hruns, List.cons.injEq] at ha
    exact ⟨b', by rw [hr, ha.1]⟩
  · rw [hruns] at hcut
    cases hcut

/-! ## What is written is taken, and what is taken is written -/

/-- With one comma at most, wherever it stands, two clauses are taken by the rule of their form and
become its range, and a lower bound with a wildcard becomes a caret. The rules with an operator in
front of each version take nothing that is not written in their form, with one pair of versions. -/
theorem toRange_written :
    (∀ r f, Rule.form? r = some f → ∀ expr a b, f.Writes expr a b → commas expr ≤ 1 →
      rule? expr = some r ∧ (toRange expr).result = .ok (f.range a b)) ∧
    (∀ expr a, WritesFloor expr a → commas expr ≤ 1 →
      rule? expr = some .floorWildcard ∧ (toRange expr).result = .ok ("^" ++ a)) ∧
    ∀ r f, Rule.form? r = some f → ∀ expr, rule? expr = some r →
      ∃! versions : Text × Text, f.Writes expr versions.1 versions.2 := by
  refine ⟨?_, ?_, ?_⟩
  · intro r f hr expr a b hw hc
    have hcaptures := captures_of_writes hr ((writes_spaced_iff hr).2 hw) (comma_notMem_spaced hc)
    refine ⟨rule?_of_captures hcaptures, ?_⟩
    rw [toRange_of_captures hcaptures, Rule.range_of_form hr]
  · intro expr a hw hc
    obtain ⟨n, hcaptures⟩ := captures_of_writesFloor (hw.spaced hc) (comma_notMem_spaced hc)
    exact ⟨rule?_of_captures hcaptures, toRange_of_captures hcaptures⟩
  · intro r f hr expr hrule
    obtain ⟨-, haccepts⟩ := firstOf_eq_some_iff.1 hrule
    obtain ⟨runs, ht⟩ := accepts_iff.1 haccepts
    obtain ⟨a, b, -, hw⟩ := writes_of_takes hr ht
    rw [writes_spaced_iff hr] at hw
    refine ⟨(a, b), hw, ?_⟩
    rintro ⟨a', b'⟩ hw'
    have hruns := versionRuns_of_writes hr hw'
    rw [versionRuns_of_writes hr hw] at hruns
    cases hruns
    rfl

/-- The comma may stand behind an operator, and a version and a wildcard may be kept apart by it. -/
theorem toRange_written_commas :
    (toRange ">=,1.0 <= 2.0").result = .ok ">= 1.0 < 2.0" ∧
    (toRange ">= 1.0,1.2.*").result = .ok "^1.0" ∧
    ∃! versions : Text × Text, ClauseForm.Writes ⟨"^", "^", true, fun a _ => "^" ++ a⟩
      "^ 1.0 ,^2.0" versions.1 versions.2 := by
  obtain ⟨hforms, hfloor, hunique⟩ := toRange_written
  have hrun : ("1.0" : Text).IsRun := by decide
  refine ⟨?_, ?_, ?_⟩
  · have hw : ClauseForm.Writes ⟨">=", "<=", true, fun a b => ">= " ++ a ++ " < " ++ b⟩
        ">=,1.0 <= 2.0" "1.0" "2.0" :=
      .mk (h := ",") (a := "1.0") (g := " ") (k := " ") (b := "2.0") (by decide) hrun (by decide)
        (by decide) (by decide) nofun
    exact (hforms .bounded _ rfl _ _ _ hw (by decide)).2
  · have hw : WritesFloor ">= 1.0,1.2.*" "1.0" :=
      .mk (h := " ") (a := "1.0") (g := ",") (n := "1.2") (w := CodePoint.ofChar '*') (by decide)
        hrun (by decide) (by decide) (by decide) rfl
    exact (hfloor _ _ hw (by decide)).2
  · exact hunique .doubleCaret _ rfl "^ 1.0 ,^2.0" (by decide)

end Requirement

end CrateIndex
