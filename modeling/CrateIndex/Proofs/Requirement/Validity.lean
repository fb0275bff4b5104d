import CrateIndex.Proofs.Requirement.Clauses
import CrateIndex.Proofs.Text.Splitting

/-!
# Wildcards that have a range

A wildcard requirement has a range if it names one or two numbers in canonical decimal and these,
and the number after the last of them, are short enough. The checks that follow the check of its
parts never fail.
-/

namespace CrateIndex

namespace Wildcard

open Decimal

variable {expr front ending a b s : Text} {w v : CodePoint} {twice : Bool} {numbers : List Text}

/-- A wildcard, or two with a dot between them. -/
inductive IsEnding : Text → Bool → Prop
  | once {w : CodePoint} (hw : CharClass.wild.holds w = true) : IsEnding [w] false
  | twice {w v : CodePoint} (hw : CharClass.wild.holds w = true)
      (hv : CharClass.wild.holds v = true) : IsEnding [w, CodePoint.ofChar '.', v] true

/-- Digits and dots with a wildcard behind them, or with two. -/
def IsWildcard (expr : Text) : Prop :=
  ∃ front ending twice, expr = front ++ ending ∧ front.IsRun ∧ IsEnding ending twice

/-- The wildcard requirement names the numbers, in canonical decimal. -/
inductive Names : Text → List Text → Prop
  | major {a ending : Text} {twice : Bool} (ha : IsCanonical a) (he : IsEnding ending twice) :
      Names (a ++ ("." ++ ending)) [a]
  | minor {a b : Text} {w : CodePoint} (ha : IsCanonical a) (hb : IsCanonical b)
      (hw : CharClass.wild.holds w = true) : Names (a ++ ("." ++ (b ++ ("." ++ [w])))) [a, b]

/-! ## Parts -/

theorem ofText?_wild (h : CharClass.wild.holds w = true) : Part.ofText? [w] = some .wild := by
  simp only [CharClass.holds, Bool.or_eq_true, decide_eq_true_eq] at h
  rcases h with (rfl | rfl) | rfl <;> rfl

theorem ofText?_number (h : IsCanonical s) : Part.ofText? s = some (.number s) := by
  have hwild : ¬ (s = "*" ∨ s = "x" ∨ s = "X") := by
    rintro (rfl | rfl | rfl)
    all_goals exact absurd (h.isDigit _ List.mem_cons_self) (by decide)
  rw [Part.ofText?.eq_def, if_neg hwild]
  rcases h with rfl | ⟨hne, hd, hhead⟩
  · rfl
  · split
    · rfl
    · cases s with
      | nil => exact absurd rfl hne
      | cons c s =>
          have hc : c ≠ CodePoint.ofChar '0' := fun he => hhead (congrArg some he)
          simp [List.all_eq_true.2 hd, hc]

theorem ofText?_cases {p : Part} (h : Part.ofText? s = some p) :
    (∃ w, s = [w] ∧ CharClass.wild.holds w = true) ∨ IsCanonical s := by
  unfold Part.ofText? at h
  split at h
  · rename_i hwild
    rcases hwild with rfl | rfl | rfl
    · exact .inl ⟨_, rfl, rfl⟩
    · exact .inl ⟨_, rfl, rfl⟩
    · exact .inl ⟨_, rfl, rfl⟩
  · split at h
    · exact .inr (.inl ‹_›)
    · cases s with
      | nil => cases h
      | cons c s =>
          simp only at h
          split at h
          · rename_i hd
            simp only [Bool.and_eq_true, bne_iff_ne, ne_eq, List.all_eq_true] at hd
            exact .inr (.inr ⟨List.cons_ne_nil _ _, hd.1, fun he => hd.2 (Option.some.inj he)⟩)
          · cases h

theorem splitOn_dot (s t : Text) : Text.splitOn (CodePoint.ofChar '.') (s ++ ("." ++ t)) =
    Text.splitOn (CodePoint.ofChar '.') s ++ Text.splitOn (CodePoint.ofChar '.') t :=
  Text.splitOn_append_cons

theorem splitOn_number (h : IsCanonical s) : Text.splitOn (CodePoint.ofChar '.') s = [s] :=
  Text.splitOn_of_notMem fun hs => absurd (h.isDigit _ hs) (by decide)

theorem splitOn_wild (h : CharClass.wild.holds w = true) :
    Text.splitOn (CodePoint.ofChar '.') [w] = [[w]] := by
  refine Text.splitOn_of_notMem ?_
  rw [List.mem_singleton]
  rintro rfl
  cases h

theorem splitOn_ending (h : IsEnding ending twice) :
    (Text.splitOn (CodePoint.ofChar '.') ending).length = twice.toNat + 1 ∧
      ∀ p ∈ Text.splitOn (CodePoint.ofChar '.') ending, Part.ofText? p = some .wild := by
  cases h with
  | once hw =>
      rw [splitOn_wild hw]
      exact ⟨rfl, List.forall_mem_singleton.2 (ofText?_wild hw)⟩
  | @twice w v hw hv =>
      have hs : Text.splitOn (CodePoint.ofChar '.') [w, CodePoint.ofChar '.', v] = [[w], [v]] := by
        have hdot := splitOn_dot [w] [v]
        rwa [splitOn_wild hw, splitOn_wild hv] at hdot
      rw [hs, List.forall_mem_cons, List.forall_mem_singleton]
      exact ⟨rfl, ofText?_wild hw, ofText?_wild hv⟩

/-- The numbers of a requirement are the pieces in front of the last dot that is in front of a
wildcard. There are two at most, and one if two wildcards follow. -/
theorem names_iff : Names expr numbers ↔ ∃ front ending twice, expr = front ++ ("." ++ ending) ∧
    IsEnding ending twice ∧ Text.splitOn (CodePoint.ofChar '.') front = numbers ∧
    (∀ s ∈ numbers, IsCanonical s) ∧ numbers.length + twice.toNat ≤ 2 := by
  constructor
  · intro h
    cases h with
    | @major a ending twice ha he =>
        exact ⟨a, ending, twice, rfl, he, splitOn_number ha, List.forall_mem_singleton.2 ha,
          Nat.add_le_add_left (Bool.toNat_le twice) 1⟩
    | @minor a b w ha hb hw =>
        refine ⟨a ++ ("." ++ b), [w], false, by simp only [List.append_assoc], .once hw, ?_, ?_, ?_⟩
        · rw [splitOn_dot, splitOn_number ha, splitOn_number hb]
          rfl
        · exact List.forall_mem_cons.2 ⟨ha, List.forall_mem_singleton.2 hb⟩
        · exact Nat.le_refl 2
  · rintro ⟨front, ending, twice, rfl, he, rfl, hn, hlen⟩
    have hjoin := Text.join_splitOn (CodePoint.ofChar '.') front
    -- The numbers joined are the text in front.
    match hs : Text.splitOn (CodePoint.ofChar '.') front with
    | [] => exact absurd hs (Text.splitOn_ne_nil _ _)
    | [a] =>
        rw [hs] at hjoin hn
        rw [Text.join, List.intercalate_singleton] at hjoin
        subst hjoin
        exact .major (hn a List.mem_cons_self) he
    | [a, b] =>
        rw [hs] at hjoin hn hlen
        rw [Text.join, List.intercalate_cons_cons, List.intercalate_singleton] at hjoin
        subst hjoin
        cases he with
        | once hw =>
            simp only [List.append_assoc]
            exact .minor (hn a List.mem_cons_self) (hn b (by simp)) hw
        | twice _ _ =>
            simp only [List.length_cons, Bool.toNat_true] at hlen
            omega
    | _ :: _ :: _ :: _ =>
        rw [hs] at hlen
        simp only [List.length_cons] at hlen
        omega

theorem mapM_parts {wilds : List Text} (hn : ∀ s ∈ numbers, IsCanonical s)
    (hw : ∀ p ∈ wilds, Part.ofText? p = some .wild) :
    (numbers ++ wilds).mapM Part.ofText? =
      some (numbers.map .number ++ wilds.map fun _ => .wild) := by
  rw [Result.mapM_eq_some_iff]
  refine List.rel_append ?_ ?_
  · exact List.forall₂_map_right_iff.2 (List.forall₂_same.2 fun s hs => ofText?_number (hn s hs))
  · exact List.forall₂_map_right_iff.2 (List.forall₂_same.2 hw)

theorem parts?_of_canonical (he : IsEnding ending twice)
    (hn : ∀ s ∈ Text.splitOn (CodePoint.ofChar '.') front, IsCanonical s)
    (hlen : (Text.splitOn (CodePoint.ofChar '.') front).length + twice.toNat ≤ 2) :
    parts? (front ++ ("." ++ ending)) =
      some ((Text.splitOn (CodePoint.ofChar '.') front).map .number ++
        (Text.splitOn (CodePoint.ofChar '.') ending).map fun _ => .wild) := by
  obtain ⟨hwilds, hw⟩ := splitOn_ending he
  have hpieces : (Text.splitOn (CodePoint.ofChar '.') front ++
      Text.splitOn (CodePoint.ofChar '.') ending).length ≤ 3 := by
    rw [List.length_append, hwilds]
    omega
  simp only [parts?, splitOn_dot, if_pos hpieces, mapM_parts hn hw]

theorem ofText?_of_parts? {parts : List Part} (h : parts? expr = some parts)
    (hs : s ∈ Text.splitOn (CodePoint.ofChar '.') expr) : ∃ p, Part.ofText? s = some p := by
  simp only [parts?] at h
  split at h
  · exact Result.exists_of_mem_of_mapM h hs
  · cases h

theorem length_of_parts? {parts : List Part} (h : parts? expr = some parts) :
    (Text.splitOn (CodePoint.ofChar '.') expr).length ≤ 3 := by
  simp only [parts?] at h
  split at h
  · assumption
  · cases h

/-- Digits and dots are no wildcard, so that they are a part only as a number. -/
theorem isCanonical_of_ofText? {p : Part} (hs : ∀ x ∈ s, CharClass.version.holds x = true)
    (h : Part.ofText? s = some p) : IsCanonical s := by
  rcases ofText?_cases h with ⟨w, rfl, hw⟩ | hc
  · have hv := hs w List.mem_cons_self
    rw [CharClass.version_holds_of_wild hw] at hv
    cases hv
  · exact hc

theorem names_of_parts? {parts : List Part}
    (hf : ∀ x ∈ front, CharClass.version.holds x = true) (he : IsEnding ending twice)
    (h : parts? (front ++ ("." ++ ending)) = some parts) :
    Names (front ++ ("." ++ ending)) (Text.splitOn (CodePoint.ofChar '.') front) := by
  refine names_iff.2 ⟨front, ending, twice, rfl, he, rfl, ?_, ?_⟩
  · intro s hs
    obtain ⟨p, hp⟩ := ofText?_of_parts? h (by rw [splitOn_dot]; exact List.mem_append_left _ hs)
    exact isCanonical_of_ofText? (fun x hx => hf x (Text.mem_of_mem_splitOn hs hx)) hp
  · have hlen := length_of_parts? h
    rw [splitOn_dot, List.length_append, (splitOn_ending he).1] at hlen
    omega

/-- A wildcard behind a digit belongs to a piece that is no part. -/
theorem parts?_undotted {c : CodePoint} (hc : c ≠ CodePoint.ofChar '.')
    (he : IsEnding ending twice) : parts? (front ++ c :: ending) = none := by
  have hpiece : ∃ l w, CharClass.wild.holds w = true ∧
      l ++ [c, w] ∈ Text.splitOn (CodePoint.ofChar '.') (front ++ c :: ending) := by
    have hdot {w : CodePoint} (hw : CharClass.wild.holds w = true) :
        CodePoint.ofChar '.' ∉ [c, w] := by
      have hne : w ≠ CodePoint.ofChar '.' := by
        rintro rfl
        cases hw
      simp [hc.symm, hne.symm]
    cases he with
    | @once w hw =>
        obtain ⟨pieces, l, hs⟩ := Text.exists_splitOn_append (hdot hw) front
        exact ⟨l, w, hw, by rw [hs]; simp⟩
    | @twice w v hw hv =>
        obtain ⟨pieces, l, hs⟩ := Text.exists_splitOn_append (hdot hw) front
        have happ : front ++ [c, w, CodePoint.ofChar '.', v] = (front ++ [c, w]) ++ ("." ++ [v]) :=
          (List.append_assoc front [c, w] ("." ++ [v])).symm
        exact ⟨l, w, hw, by rw [happ, splitOn_dot, hs]; simp⟩
  obtain ⟨l, w, hw, hmem⟩ := hpiece
  rw [Option.eq_none_iff_forall_ne_some]
  intro parts hparts
  obtain ⟨p, hp⟩ := ofText?_of_parts? hparts hmem
  rcases ofText?_cases hp with ⟨w', hl, -⟩ | hcanonical
  · have hlen := congrArg List.length hl
    simp at hlen
  · have hv : CharClass.version.holds w = true :=
      CharClass.version_holds_of_isDigit (hcanonical.isDigit w (by simp))
    rw [CharClass.version_holds_of_wild hw] at hv
    cases hv

theorem parts?_eq_none (h : IsWildcard expr) (hn : ¬ ∃ numbers, Names expr numbers) :
    parts? expr = none := by
  obtain ⟨front, ending, twice, rfl, ⟨hne, hf⟩, he⟩ := h
  obtain ⟨front, c, rfl⟩ := (List.eq_nil_or_concat front).resolve_left hne
  rw [List.concat_eq_append, List.append_assoc] at *
  by_cases hc : c = CodePoint.ofChar '.'
  · subst hc
    rw [Option.eq_none_iff_forall_ne_some]
    intro parts hparts
    refine hn ⟨_, names_of_parts? (fun x hx => hf x ?_) he hparts⟩
    exact List.mem_append_left _ hx
  · exact parts?_undotted hc he

/-! ## The checks -/

theorem check_number (h : s.length ≤ digitLimit) : Part.check (.number s) = .ok () := by
  rw [Part.check, read_eq_ok_iff.2 ⟨h, rfl⟩]
  rfl

theorem check_number_tooLong (h : digitLimit < s.length) :
    Part.check (.number s) = .error (.tooLong (.reading s.length)) := by
  rw [Part.check, Decimal.read, if_neg (Nat.not_le_of_lt h)]
  rfl

/-- The check of a requirement that names numbers: all of them can be read, or one is too long. -/
theorem check_of_names (h : Names expr numbers) :
    ((∀ s ∈ numbers, s.length ≤ digitLimit) → check expr = .ok ()) ∧
    ((∃ s ∈ numbers, digitLimit < s.length) →
      ∃ n, check expr = .error (.tooLong (.reading n))) := by
  obtain ⟨front, ending, twice, rfl, he, rfl, hn, hlen⟩ := names_iff.1 h
  rw [check, parts?_of_canonical he hn hlen]
  constructor
  · intro hread
    refine Result.forM_eq_ok ?_
    rw [List.forall_mem_append, List.forall_mem_map, List.forall_mem_map]
    exact ⟨fun s hs => check_number (hread s hs), fun _ _ => rfl⟩
  · rintro ⟨s, hs, hlong⟩
    have hfails (t : Text) (ht : digitLimit < t.length) : Result.Fails
        (fun d => ∃ n, d = Defect.tooLong (.reading n)) (Part.check (.number t)) :=
      ⟨_, check_number_tooLong ht, _, rfl⟩
    have hall : ∀ p ∈ (Text.splitOn (CodePoint.ofChar '.') front).map Part.number ++
        (Text.splitOn (CodePoint.ofChar '.') ending).map fun _ => Part.wild,
        p.check = .ok () ∨
          Result.Fails (fun d => ∃ n, d = Defect.tooLong (.reading n)) p.check := by
      rw [List.forall_mem_append, List.forall_mem_map, List.forall_mem_map]
      refine ⟨fun t _ => ?_, fun _ _ => .inl rfl⟩
      rcases Nat.lt_or_ge digitLimit t.length with ht | ht
      · exact .inr (hfails t ht)
      · exact .inl (check_number ht)
    obtain ⟨d, hd, n, rfl⟩ := Result.forM_fails hall
      (List.mem_append_left _ (List.mem_map_of_mem hs)) (hfails s hlong)
    exact ⟨n, hd⟩

theorem components_of_canonical
    (hn : ∀ s ∈ Text.splitOn (CodePoint.ofChar '.') front, IsCanonical s) :
    components (front ++ [CodePoint.ofChar '.']) =
      .ok (Text.splitOn (CodePoint.ofChar '.') front) := by
  have hall : (Text.splitOn (CodePoint.ofChar '.') front).all
      (fun s => !s.isEmpty && s.all CodePoint.isDigit) = true := by
    rw [List.all_eq_true]
    intro s hs
    simp [(hn s hs).ne_nil, List.all_eq_true.2 (hn s hs).isDigit]
  simp only [components, List.getLast?_concat, ↓reduceIte, List.dropLast_concat, hall]

theorem number_of_le (h : s.length ≤ digitLimit) : number s = .ok (value s) :=
  number_eq_ok_iff.2 ⟨h, rfl⟩

theorem written_value (hs : IsCanonical s) (h : s.length ≤ digitLimit) :
    written (value s) = .ok s := by
  rw [written_eq_ok_iff, text_value hs]
  exact ⟨h, rfl⟩

theorem rangeOf_major (hs : IsCanonical s) (h : s.length ≤ digitLimit) :
    rangeOf expr twice [s] = majorRange s <$> written (value s + 1) := by
  rw [rangeOf, number_of_le h, Result.ok_bind, written_value hs h, Result.ok_bind]
  rfl

theorem rangeOf_minor (ha : IsCanonical a) (hb : IsCanonical b) (hal : a.length ≤ digitLimit)
    (hbl : b.length ≤ digitLimit) :
    rangeOf expr false [a, b] = minorRange a b <$> written (value b + 1) := by
  rw [rangeOf, number_of_le hal, Result.ok_bind, number_of_le hbl, Result.ok_bind,
    written_value ha hal, Result.ok_bind, written_value hb hbl, Result.ok_bind]
  rfl

theorem range_ending (front : Text) (he : IsEnding ending twice) : range (front ++ ending) front =
    (check (front ++ ending)).mapError (.defect (front ++ ending)) >>= fun _ =>
      (components front).mapError (.defect (front ++ ending)) >>=
        rangeOf (front ++ ending) twice := by
  have htwice : decide (front.length + 1 < (front ++ ending).length) = twice := by
    cases he with
    | once _ => simp
    | twice _ _ => simp
  rw [range, htwice]

theorem range_of_canonical (front : Text) (he : IsEnding ending twice)
    (hn : ∀ s ∈ Text.splitOn (CodePoint.ofChar '.') front, IsCanonical s)
    (hcheck : check (front ++ ("." ++ ending)) = .ok ()) :
    range (front ++ ("." ++ ending)) (front ++ ".") =
      rangeOf (front ++ ("." ++ ending)) twice (Text.splitOn (CodePoint.ofChar '.') front) := by
  have hrange := range_ending (front ++ ".") he
  rw [List.append_assoc, hcheck] at hrange
  have hcomponents : components (front ++ ".") = .ok (Text.splitOn (CodePoint.ofChar '.') front) :=
    components_of_canonical hn
  rw [hrange, hcomponents]
  rfl

theorem range_major (ha : IsCanonical a) (he : IsEnding ending twice)
    (hlen : a.length ≤ digitLimit) :
    range (a ++ ("." ++ ending)) (a ++ ".") = majorRange a <$> written (value a + 1) := by
  have hcheck := (check_of_names (.major ha he)).1 (List.forall_mem_singleton.2 hlen)
  have hsplit := splitOn_number ha
  have hn : ∀ s ∈ Text.splitOn (CodePoint.ofChar '.') a, IsCanonical s := by
    rw [hsplit]
    exact List.forall_mem_singleton.2 ha
  rw [range_of_canonical a he hn hcheck, hsplit, rangeOf_major ha hlen]

theorem range_minor (ha : IsCanonical a) (hb : IsCanonical b)
    (hw : CharClass.wild.holds w = true) (hal : a.length ≤ digitLimit)
    (hbl : b.length ≤ digitLimit) :
    range (a ++ ("." ++ (b ++ ("." ++ [w])))) (a ++ ("." ++ (b ++ "."))) =
      minorRange a b <$> written (value b + 1) := by
  have hcheck := (check_of_names (.minor ha hb hw)).1
    (List.forall_mem_cons.2 ⟨hal, List.forall_mem_singleton.2 hbl⟩)
  have hsplit : Text.splitOn (CodePoint.ofChar '.') (a ++ ("." ++ b)) = [a, b] := by
    rw [splitOn_dot, splitOn_number ha, splitOn_number hb]
    rfl
  have hn : ∀ s ∈ Text.splitOn (CodePoint.ofChar '.') (a ++ ("." ++ b)), IsCanonical s := by
    rw [hsplit]
    exact List.forall_mem_cons.2 ⟨ha, List.forall_mem_singleton.2 hb⟩
  have hrange := range_of_canonical (a ++ ("." ++ b)) (.once hw) hn
  simp only [List.append_assoc] at hrange
  rw [hrange hcheck, hsplit, rangeOf_minor ha hb hal hbl]

theorem range_eq_error {cause : Defect} (h : check expr = .error cause) (front : Text) :
    range expr front = .error (.defect expr cause) := by
  rw [range, h]
  rfl

/-! ## What the rule for wildcards takes -/

theorem ending_of_takes {runs : List Text}
    (h : Pattern.Takes [.one .wild, .maybe [.just '.', .wild]] s runs) :
    runs = [] ∧ ∃ twice, IsEnding s twice := by
  cases h with
  | one hw h =>
      cases h with
      | skip h =>
          cases h
          exact ⟨rfl, false, .once hw⟩
      | maybe hu h =>
          cases h
          cases hu with
          | cons hdot hu =>
              cases hu with
              | cons hv hu =>
                  cases hu
                  simp only [CharClass.holds, decide_eq_true_eq] at hdot
                  subst hdot
                  exact ⟨rfl, true, .twice hw hv⟩

theorem takes_ending (he : IsEnding ending twice) :
    Pattern.Takes [.one .wild, .maybe [.just '.', .wild]] ending [] := by
  cases he with
  | once hw => exact .one hw (.skip .nil)
  | @twice w v hw hv =>
      have hdot : CharClass.holds (.just '.') (CodePoint.ofChar '.') = true := rfl
      exact .one hw (.maybe (.cons hdot (.cons hv .nil)) .nil)

theorem head?_ending (he : IsEnding ending twice) :
    ending.head?.any CharClass.version.holds = false := by
  cases he with
  | once hw | twice hw _ => exact CharClass.version_holds_of_wild hw

theorem ending_of_takes_wildcard {runs : List Text}
    (h : Pattern.Takes Rule.wildcard.pattern s runs) :
    ∃ front ending twice,
      s = front ++ ending ∧ runs = [front] ∧ front.IsRun ∧ IsEnding ending twice := by
  obtain ⟨front, ending, us, vs, rfl, rfl, hu, hv⟩ :=
    Pattern.Takes.append_cases (p := [Rule.version]) h
  obtain ⟨hrun, rfl⟩ := hu.version
  obtain ⟨rfl, twice, he⟩ := ending_of_takes hv
  exact ⟨front, ending, twice, rfl, rfl, hrun, he⟩

theorem captures_wildcard (hf : front.IsRun) (he : IsEnding ending twice) :
    Rule.wildcard.pattern.captures? (front ++ ending) = some [front] := by
  refine Pattern.captures_eq_of_takes
    ((Pattern.takes_version hf).append (takes_ending he)) fun runs' h => ?_
  obtain ⟨u, v, twice', hs, rfl, hrun, hv⟩ := ending_of_takes_wildcard h
  -- Both cuts end the first run of digits and dots where the wildcard begins.
  have hruns := congrArg Text.versionRuns hs
  rw [Text.versionRuns_run hf (head?_ending he),
    Text.versionRuns_run hrun (head?_ending hv)] at hruns
  rw [(List.cons.inj hruns).1]

theorem accepts_wildcard_iff : Rule.wildcard.pattern.accepts expr = true ↔ IsWildcard expr := by
  rw [Pattern.accepts_iff]
  constructor
  · rintro ⟨runs, h⟩
    obtain ⟨front, ending, twice, rfl, -, hf, he⟩ := ending_of_takes_wildcard h
    exact ⟨front, ending, twice, rfl, hf, he⟩
  · rintro ⟨front, ending, twice, rfl, hf, he⟩
    exact ⟨[front], Pattern.takes_of_captures (captures_wildcard hf he)⟩

end Wildcard

namespace Requirement

open Decimal Wildcard

variable {expr front ending a b : Text} {w : CodePoint} {twice : Bool} {numbers : List Text}

theorem toRange_eq_range (hf : front.IsRun) (he : IsEnding ending twice) :
    (toRange (front ++ ending)).result = Wildcard.range (front ++ ending) front := by
  have hc := captures_wildcard hf he
  have hs : spaced (front ++ ending) = front ++ ending :=
    spaced_of_notMem ((Pattern.takes_of_captures hc).notMem (by decide))
  rw [← hs] at hc
  rw [toRange_of_captures hc, hs]
  rfl

theorem isRun_append_dot (h : ∀ x ∈ a, CharClass.version.holds x = true) :
    Text.IsRun (a ++ ".") := by
  refine ⟨List.append_ne_nil_of_right_ne_nil a (List.cons_ne_nil _ _), ?_⟩
  rw [List.forall_mem_append]
  exact ⟨h, List.forall_mem_singleton.2 rfl⟩

theorem version_of_canonical (h : IsCanonical a) : ∀ x ∈ a, CharClass.version.holds x = true := by
  intro x hx
  exact CharClass.version_holds_of_isDigit (h.isDigit x hx)

theorem toRange_major (ha : IsCanonical a) (he : IsEnding ending twice)
    (hlen : a.length ≤ digitLimit) : (toRange (a ++ ("." ++ ending))).result =
      majorRange a <$> written (value a + 1) := by
  have hr := toRange_eq_range (isRun_append_dot (version_of_canonical ha)) he
  rwa [List.append_assoc, range_major ha he hlen] at hr

theorem toRange_minor (ha : IsCanonical a) (hb : IsCanonical b)
    (hw : CharClass.wild.holds w = true) (hal : a.length ≤ digitLimit)
    (hbl : b.length ≤ digitLimit) : (toRange (a ++ ("." ++ (b ++ ("." ++ [w]))))).result =
      minorRange a b <$> written (value b + 1) := by
  have hfront : ∀ x ∈ a ++ ("." ++ b : Text), CharClass.version.holds x = true := by
    rw [List.forall_mem_append, List.forall_mem_append]
    exact ⟨version_of_canonical ha, List.forall_mem_singleton.2 rfl, version_of_canonical hb⟩
  have hr := toRange_eq_range (isRun_append_dot hfront) (.once hw)
  simp only [List.append_assoc] at hr
  rwa [range_minor ha hb hw hal hbl] at hr

theorem toRange_defect {cause : Defect} (h : IsWildcard expr) (hc : check expr = .error cause) :
    (toRange expr).result = .error (.defect expr cause) := by
  obtain ⟨front, ending, twice, rfl, hf, he⟩ := h
  rw [toRange_eq_range hf he, range_eq_error hc]

theorem written_of_le {n : Nat} (h : (text n).length ≤ digitLimit) : written n = .ok (text n) :=
  written_eq_ok_iff.2 ⟨h, rfl⟩

theorem written_of_lt {n : Nat} (h : digitLimit < (text n).length) :
    written n = .error (.unwritable .writing) := by
  simp only [written, write, if_neg (Nat.not_le_of_lt h)]
  rfl

/-- The wildcard requirements are what the rule for wildcards takes. One that names numbers short
enough to be read has a range, unless the number that bounds the range is too long to be written.
All others are defective, with a number too long to be read or without the parts of one. -/
theorem toRange_wildcard (expr : Text) :
    (Rule.wildcard.pattern.accepts expr = true ↔ IsWildcard expr) ∧
    (IsWildcard expr →
      (∀ a, Names expr [a] → a.length ≤ digitLimit → (text (value a + 1)).length ≤ digitLimit →
        (toRange expr).result = .ok (">=" ++ a ++ ".0.0 <" ++ text (value a + 1) ++ ".0.0-0")) ∧
      (∀ a b, Names expr [a, b] → a.length ≤ digitLimit → b.length ≤ digitLimit →
        (text (value b + 1)).length ≤ digitLimit → (toRange expr).result =
          .ok (">=" ++ a ++ "." ++ b ++ ".0 <" ++ a ++ "." ++ text (value b + 1) ++ ".0-0")) ∧
      (∀ numbers last, Names expr numbers → (∀ s ∈ numbers, s.length ≤ digitLimit) →
        numbers.getLast? = some last → digitLimit < (text (value last + 1)).length →
        (toRange expr).result = .error (.unwritable .writing)) ∧
      ((¬ ∃ numbers, Names expr numbers ∧ ∀ s ∈ numbers, s.length ≤ digitLimit) →
        ∃ cause, (toRange expr).result = .error (.defect expr cause) ∧
          (cause = .malformed expr ∨ ∃ n, cause = .tooLong (.reading n)))) := by
  refine ⟨accepts_wildcard_iff, fun h => ⟨?_, ?_, ?_, ?_⟩⟩
  · intro a hn ha hnext
    cases hn with
    | major hc he =>
        rw [toRange_major hc he ha, written_of_le hnext]
        rfl
  · intro a b hn ha hb hnext
    cases hn with
    | minor hc hd hw =>
        rw [toRange_minor hc hd hw ha hb, written_of_le hnext]
        rfl
  · intro numbers last hn hread hlast hnext
    cases hn with
    | @major a ending twice hc he =>
        obtain rfl : a = last := Option.some.inj hlast
        rw [toRange_major hc he (hread a List.mem_cons_self), written_of_lt hnext]
        rfl
    | @minor a b w hc hd hw =>
        obtain rfl : b = last := Option.some.inj hlast
        rw [List.forall_mem_cons, List.forall_mem_singleton] at hread
        rw [toRange_minor hc hd hw hread.1 hread.2, written_of_lt hnext]
        rfl
  · intro hnone
    by_cases hn : ∃ numbers, Names expr numbers
    · obtain ⟨numbers, hn⟩ := hn
      have hlong : ∃ s ∈ numbers, digitLimit < s.length := by
        by_contra hshort
        refine hnone ⟨numbers, hn, fun s hs => ?_⟩
        by_contra hlt
        exact hshort ⟨s, hs, Nat.lt_of_not_le hlt⟩
      obtain ⟨n, hc⟩ := (check_of_names hn).2 hlong
      exact ⟨_, toRange_defect h hc, .inr ⟨n, rfl⟩⟩
    · have hc : check expr = .error (.malformed expr) := by
        rw [check, parts?_eq_none h hn]
      exact ⟨_, toRange_defect h hc, .inl rfl⟩

/-- A number that no range can be bounded by, and one that is not canonical. -/
theorem toRange_wildcard_outcomes :
    (toRange "1.2.*").result = .ok ">=1.2.0 <1.3.0-0" ∧
    (toRange (List.replicate digitLimit (digit 9) ++ ".x.x")).result =
      .error (.unwritable .writing) ∧
    ∃ cause, (toRange "01.*").result = .error (.defect "01.*" cause) := by
  refine ⟨?_, ?_, ?_⟩
  · have h : IsWildcard "1.2.*" := ⟨"1.2.", "*", false, rfl, by decide, .once rfl⟩
    have hone : IsCanonical "1" := .inr ⟨by decide, by decide, by decide⟩
    have htwo : IsCanonical "2" := .inr ⟨by decide, by decide, by decide⟩
    have hn : Names "1.2.*" ["1", "2"] := .minor hone htwo (w := '*') rfl
    have hthree : text (value "2" + 1) = "3" := text_of_lt (by decide)
    have hr := ((toRange_wildcard _).2 h).2.1 "1" "2" hn (by decide) (by decide)
      (hthree ▸ by decide)
    rw [hthree] at hr
    exact hr
  · have hc : IsCanonical (List.replicate digitLimit (digit 9)) :=
      isCanonical_replicate_nine (by decide)
    have he : IsEnding "x.x" true := .twice rfl rfl
    have h : IsWildcard (List.replicate digitLimit (digit 9) ++ ("." ++ "x.x")) :=
      ⟨_, _, _, (List.append_assoc ..).symm, isRun_append_dot (version_of_canonical hc), he⟩
    have hlong : digitLimit < (text (value (List.replicate digitLimit (digit 9)) + 1)).length := by
      rw [value_replicate_nine]
      refine Nat.lt_of_not_le fun hle => ?_
      exact Nat.lt_irrefl _ ((length_text_le_iff (by decide)).1 hle)
    refine ((toRange_wildcard _).2 h).2.2.1 _ _ (.major hc he) ?_ rfl hlong
    exact List.forall_mem_singleton.2 (Nat.le_of_eq List.length_replicate)
  · have h : IsWildcard "01.*" := ⟨"01.", "*", false, rfl, by decide, .once rfl⟩
    obtain ⟨cause, hr, -⟩ := ((toRange_wildcard _).2 h).2.2.2 (by
      rintro ⟨numbers, hn, -⟩
      obtain ⟨front, ending, twice, hs, he, rfl, hc, hlen⟩ := names_iff.1 hn
      have hp := parts?_of_canonical he hc hlen
      rw [← hs] at hp
      cases hp)
    exact ⟨cause, hr⟩

end Requirement

end CrateIndex
