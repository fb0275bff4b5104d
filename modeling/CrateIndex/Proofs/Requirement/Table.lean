import CrateIndex.Proofs.Requirement.Matching
import CrateIndex.Requirement.Reported

/-!
# The table of rules

The operators of a requirement, read from left to right, name the only rule that can take it. So no
text belongs to two rules, and the order in which the rules are tried is of no account.
-/

namespace CrateIndex

/-- The code points of which operators are made. -/
def CodePoint.isOperator (c : CodePoint) : Bool := c = '=' || c = '<' || c = '>' || c = '^'

/-- The class holds no operator. -/
def CharClass.isPlain : CharClass → Bool
  | .just a => !(CodePoint.ofChar a).isOperator
  | _ => true

theorem CharClass.isOperator_of_holds {c : CharClass} {x : CodePoint} (hc : c.isPlain = true)
    (hx : c.holds x = true) : x.isOperator = false := by
  have hv (a : Char) : x = .ofChar a ↔ x.val = a.toNat := CodePoint.val_inj.symm
  cases c with
  | just a =>
      simp only [CharClass.holds, decide_eq_true_eq] at hx
      simpa [CharClass.isPlain, hx] using hc
  | version =>
      simp only [CharClass.holds, CodePoint.isDigit, CodePoint.isOperator, hv, Bool.or_eq_true,
        Bool.and_eq_true, Bool.or_eq_false_iff, decide_eq_true_eq, decide_eq_false_iff_not] at hx ⊢
      simp only [Char.reduceToNat] at hx ⊢
      omega
  | wild =>
      simp only [CharClass.holds, CodePoint.isOperator, hv, Bool.or_eq_true,
        Bool.or_eq_false_iff, decide_eq_true_eq, decide_eq_false_iff_not] at hx ⊢
      simp only [Char.reduceToNat] at hx ⊢
      omega
  | tag =>
      simp only [CharClass.holds, CodePoint.isDigit, CodePoint.isOperator, hv, Bool.or_eq_true,
        Bool.and_eq_true, Bool.or_eq_false_iff, decide_eq_true_eq, decide_eq_false_iff_not] at hx ⊢
      simp only [Char.reduceToNat] at hx ⊢
      omega

namespace Pattern

/-- The operators that a piece asks for. -/
def pieceOperators : Piece → Text
  | .one (.just a) => [CodePoint.ofChar a].filter CodePoint.isOperator
  | _ => []

/-- The operators that a pattern asks for. -/
def operators (p : Pattern) : Text := p.flatMap pieceOperators

/-- Only the fixed code points of a piece are operators. -/
def isPlainPiece : Piece → Bool
  | .one (.just _) => true
  | .one c | .many c | .capture c => c.isPlain
  | .maybe cs => cs.all CharClass.isPlain

theorem filter_isOperator_eq_nil {c : CharClass} {u : Text} (hc : c.isPlain = true)
    (hu : ∀ x ∈ u, c.holds x = true) : u.filter CodePoint.isOperator = [] := by
  rw [List.filter_eq_nil_iff]
  intro x hx
  simp [CharClass.isOperator_of_holds hc (hu x hx)]

theorem filter_isOperator_one {c : CharClass} {x : CodePoint} (hp : isPlainPiece (.one c) = true)
    (hx : c.holds x = true) : [x].filter CodePoint.isOperator = pieceOperators (.one c) := by
  cases c with
  | just a =>
      simp only [CharClass.holds, decide_eq_true_eq] at hx
      rw [hx]
      rfl
  | version | wild | tag =>
      exact filter_isOperator_eq_nil (by exact hp) (List.forall_mem_singleton.2 hx)

theorem filter_isOperator_classes {cs : List CharClass} {u : Text}
    (hcs : cs.all CharClass.isPlain = true)
    (hu : List.Forall₂ (fun c x => c.holds x = true) cs u) :
    u.filter CodePoint.isOperator = [] := by
  induction hu with
  | nil => rfl
  | cons hx _ ih =>
      simp only [List.all_cons, Bool.and_eq_true] at hcs
      rw [List.filter_cons_of_neg (by simp [CharClass.isOperator_of_holds hcs.1 hx])]
      exact ih hcs.2

/-- Every text that a pattern takes has the same operators. -/
theorem Takes.filter_isOperator {p : Pattern} {s : Text} {runs : List Text} (h : Takes p s runs)
    (hp : p.all isPlainPiece = true) : s.filter CodePoint.isOperator = p.operators := by
  induction h with
  | nil => rfl
  | @one c ps x s _ hx _ ih =>
      simp only [List.all_cons, Bool.and_eq_true] at hp
      have happ : x :: s = [x] ++ s := rfl
      rw [happ, List.filter_append, filter_isOperator_one hp.1 hx, ih hp.2]
      rfl
  | many hu _ ih =>
      simp only [List.all_cons, Bool.and_eq_true] at hp
      rw [List.filter_append, filter_isOperator_eq_nil hp.1 hu, ih hp.2]
      rfl
  | maybe hu _ ih =>
      simp only [List.all_cons, Bool.and_eq_true] at hp
      rw [List.filter_append, filter_isOperator_classes hp.1 hu, ih hp.2]
      rfl
  | skip _ ih =>
      simp only [List.all_cons, Bool.and_eq_true] at hp
      exact ih hp.2
  | capture hu _ ih =>
      simp only [List.all_cons, Bool.and_eq_true] at hp
      rw [List.filter_append, filter_isOperator_eq_nil hp.1 hu, ih hp.2]
      rfl

theorem filter_isOperator_of_accepts {p : Pattern} {s : Text} (hp : p.all isPlainPiece = true)
    (h : p.accepts s = true) : s.filter CodePoint.isOperator = p.operators := by
  obtain ⟨runs, hr⟩ := Option.isSome_iff_exists.1 h
  exact (takes_of_captures hr).filter_isOperator hp

end Pattern

namespace Rule

theorem mem_all (r : Rule) : r ∈ all := by cases r <;> decide

theorem nodup_all : all.Nodup := by decide

theorem isPlain_pattern (r : Rule) : r.pattern.all Pattern.isPlainPiece = true := by
  cases r <;> decide

theorem operators_injective {r r' : Rule} (h : r.pattern.operators = r'.pattern.operators) :
    r = r' := by
  have hall : ∀ r ∈ all, ∀ r' ∈ all, r.pattern.operators = r'.pattern.operators → r = r' := by
    decide
  exact hall r r.mem_all r' r'.mem_all h

theorem eq_of_accepts {r r' : Rule} {s : Text} (h : r.pattern.accepts s = true)
    (h' : r'.pattern.accepts s = true) : r = r' := by
  apply operators_injective
  rw [← Pattern.filter_isOperator_of_accepts r.isPlain_pattern h,
    ← Pattern.filter_isOperator_of_accepts r'.isPlain_pattern h']

theorem apply_of_accepts {r : Rule} {s : Text} (h : r.pattern.accepts s = true) :
    ∃ x : Except Wildcard.Failure Text, r.apply s = some <$> x := by
  obtain ⟨runs, hr⟩ := Option.isSome_iff_exists.1 h
  exact ⟨r.range s runs, by simp only [apply, hr]⟩

theorem apply_of_not_accepts {r : Rule} {s : Text} (h : r.pattern.accepts s = false) :
    r.apply s = .ok none := by
  have hn : r.pattern.captures? s = none := by simpa [Pattern.accepts] using h
  simp only [apply, hn]

end Rule

namespace Requirement

variable {rules : List Rule} {s : Text}

/-- Since at most one rule takes a text, the first that does is any that does. -/
theorem firstOf_eq_some_iff {r : Rule} :
    firstOf rules s = some r ↔ r ∈ rules ∧ r.pattern.accepts s = true := by
  constructor
  · intro h
    have ha := List.find?_some h
    exact ⟨List.mem_of_find?_eq_some h, ha⟩
  · rintro ⟨hr, ha⟩
    cases hf : firstOf rules s with
    | none => exact absurd ha (List.find?_eq_none.1 hf r hr)
    | some r' =>
        have ha' := List.find?_some hf
        rw [Rule.eq_of_accepts ha' ha]

theorem firstOf_congr {rules' : List Rule} (h : ∀ r, r ∈ rules ↔ r ∈ rules') :
    firstOf rules s = firstOf rules' s := by
  apply Option.ext
  intro r
  rw [firstOf_eq_some_iff, firstOf_eq_some_iff, h]

theorem applyFirst_eq : applyFirst s rules =
    match firstOf rules s with
    | none => .ok ⟨none, s⟩
    | some r => (fun range => ⟨some r, range.getD s⟩) <$> r.apply s := by
  induction rules with
  | nil => rfl
  | cons r rules ih =>
      cases ha : r.pattern.accepts s with
      | false =>
          have hf : firstOf (r :: rules) s = firstOf rules s :=
            List.find?_cons_of_neg (by simp [ha])
          rw [applyFirst, Rule.apply_of_not_accepts ha, hf, ← ih]
          rfl
      | true =>
          have hf : firstOf (r :: rules) s = some r := List.find?_cons_of_pos ha
          obtain ⟨x, hx⟩ := Rule.apply_of_accepts ha
          simp only [applyFirst, hf, hx]
          cases x <;> rfl

theorem result_toRange (expr : Text) :
    (toRange expr).result = Conversion.range <$> convert expr := by
  simp only [toRange, Logged.result_bind, Logged.result_ofExcept, Logged.result_note]
  cases convert expr <;> rfl

/-- The table is unambiguous, so that its order does not matter: a text belongs to one rule at most,
every order of the table gives the same rule and the same conversion or failure, and a conversion is
what the one rule that takes the requirement makes of it, or the requirement with its first comma
turned into a space. -/
theorem convert_unambiguous :
    (∀ s : Text, (Rule.all.filter fun r => r.pattern.accepts s).length ≤ 1) ∧
    (∀ rules : List Rule, rules.Perm Rule.all → ∀ expr : Text,
      firstOf rules (spaced expr) = rule? expr ∧
      applyFirst (spaced expr) rules = convert expr) ∧
    ∀ expr : Text, match rule? expr with
      | some r => r.apply (spaced expr) = some <$> (toRange expr).result
      | none => (toRange expr).result = .ok (spaced expr) := by
  refine ⟨?_, ?_, ?_⟩
  · intro s
    have hnd : (Rule.all.filter fun r => r.pattern.accepts s).Nodup :=
      Rule.nodup_all.sublist List.filter_sublist
    match hl : Rule.all.filter fun r => r.pattern.accepts s with
    | [] | [_] => simp [hl]
    | r :: r' :: rest =>
        have hr : r ∈ Rule.all.filter fun r => r.pattern.accepts s := by simp [hl]
        have hr' : r' ∈ Rule.all.filter fun r => r.pattern.accepts s := by simp [hl]
        have he : r = r' := Rule.eq_of_accepts (List.mem_filter.1 hr).2 (List.mem_filter.1 hr').2
        simp [hl, he] at hnd
  · intro rules hp expr
    have hf : firstOf rules (spaced expr) = rule? expr := firstOf_congr fun r => hp.mem_iff
    refine ⟨hf, ?_⟩
    rw [convert, applyFirst_eq, applyFirst_eq, hf]
    rfl
  · intro expr
    have hc : convert expr = _ := applyFirst_eq
    rw [result_toRange, hc]
    cases hr : rule? expr with
    | none => simp only [rule?] at hr; simp only [hr]; rfl
    | some r =>
        obtain ⟨-, ha⟩ := firstOf_eq_some_iff.1 hr
        obtain ⟨x, hx⟩ := Rule.apply_of_accepts ha
        simp only [rule?] at hr
        simp only [hr, hx]
        cases x <;> rfl

/-- The table read backwards converts a requirement of two clauses as the table does. -/
theorem convert_backwards :
    Rule.all.reverse.Perm Rule.all ∧
    firstOf Rule.all.reverse (spaced "^1.0, >= 1.2.0") = some .caretFloor ∧
    applyFirst (spaced "^1.0, >= 1.2.0") Rule.all.reverse = .ok ⟨some .caretFloor, "^1.2.0"⟩ := by
  have hp : Rule.all.reverse.Perm Rule.all := List.reverse_perm Rule.all
  obtain ⟨hf, ha⟩ := convert_unambiguous.2.1 Rule.all.reverse hp "^1.0, >= 1.2.0"
  refine ⟨hp, hf.trans ?_, ha.trans ?_⟩
  · decide
  · rfl

end Requirement

end CrateIndex
