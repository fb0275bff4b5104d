import CrateIndex.Files.NamePattern

/-!
# What a pattern for names takes

A pattern takes a name if the name can be cut into parts, one for each piece: any text for a star,
and one code point for each other piece. The table of a name says whether there is such a cut.
-/

namespace CrateIndex.NamePattern

/-- The name cut into what the pieces take, one after the other. -/
inductive Covers : List NamePiece → Text → Prop
  | nil : Covers [] []
  | star {ps s} (u : Text) (h : Covers ps s) : Covers (.star :: ps) (u ++ s)
  | one {p ps x s} (hp : p.isStar = false) (hx : p.holds x = true) (h : Covers ps s) :
      Covers (p :: ps) (x :: s)

variable {p : NamePiece} {ps : List NamePiece} {x : CodePoint} {s : Text}

theorem covers_nil_iff : Covers [] s ↔ s = [] := by
  constructor
  · intro h
    cases h
    rfl
  · rintro rfl
    exact .nil

/-- A star takes nothing more, or one code point and then what it takes of the rest. -/
theorem covers_star_cons_iff :
    Covers (.star :: ps) (x :: s) ↔ Covers ps (x :: s) ∨ Covers (.star :: ps) s := by
  constructor
  · generalize he : x :: s = t
    intro h
    cases h with
    | star u h =>
        cases u with
        | nil => exact .inl h
        | cons y u =>
            obtain ⟨rfl, rfl⟩ := List.cons.inj he
            exact .inr (.star u h)
    | one hp _ _ => cases hp
  · rintro (h | h)
    · exact .star [] h
    · cases h with
      | star u h => exact .star (x :: u) h
      | one hp _ _ => cases hp

theorem covers_star_nil_iff : Covers (.star :: ps) [] ↔ Covers ps [] := by
  constructor
  · generalize he : ([] : Text) = t
    intro h
    cases h with
    | star u h =>
        obtain ⟨rfl, rfl⟩ := List.append_eq_nil_iff.1 he.symm
        exact h
    | one hp _ _ => cases hp
  · exact .star []

theorem covers_cons_iff (hp : p.isStar = false) :
    Covers (p :: ps) (x :: s) ↔ p.holds x = true ∧ Covers ps s := by
  constructor
  · generalize he : x :: s = t
    intro h
    cases h with
    | star u h => cases hp
    | one _ hx h =>
        obtain ⟨rfl, rfl⟩ := List.cons.inj he
        exact ⟨hx, h⟩
  · rintro ⟨hx, h⟩
    exact .one hp hx h

theorem not_covers_nil (hp : p.isStar = false) : ¬ Covers (p :: ps) [] := by
  generalize he : ([] : Text) = t
  intro h
  cases h with
  | star u h => cases hp
  | one _ _ h => cases he

theorem eq_star (hp : p.isStar = true) : p = .star := by
  cases p <;> first | rfl | cases hp

theorem accepts_iff (ps : List NamePiece) (s : Text) : accepts ps s = true ↔ Covers ps s := by
  fun_induction accepts ps s with
  | case1 s => rw [covers_nil_iff, List.isEmpty_iff]
  | case2 p ps ih =>
      cases hp : p.isStar with
      | true =>
          obtain rfl := eq_star hp
          rw [Bool.true_and, ih, covers_star_nil_iff]
      | false => simp [not_covers_nil hp]
  | case3 p ps x s hp ihshort ihrest =>
      obtain rfl := eq_star hp
      rw [Bool.or_eq_true, ihshort, ihrest, covers_star_cons_iff]
  | case4 p ps x s hp ih =>
      rw [Bool.and_eq_true, ih, covers_cons_iff (by simpa using hp)]

/-- The pattern stands for the name. Names that start with a dot are left to patterns that do. -/
def Matches (pattern name : Text) : Prop :=
  (isHidden name = true → isHidden pattern = true) ∧ Covers (pieces pattern) name

theorem takes_iff {pattern name : Text} : takes pattern name = true ↔ Matches pattern name := by
  rw [takes, Bool.and_eq_true, headD_row, accepts_iff, Matches]
  cases isHidden name <;> simp

end CrateIndex.NamePattern
