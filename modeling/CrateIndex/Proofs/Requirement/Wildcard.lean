import CrateIndex.Proofs.Requirement.Table
import CrateIndex.Proofs.Result
import CrateIndex.Proofs.Text.Replacing

/-!
# Requirements that have no range

Only a wildcard can be without a range. It holds no space, so no comma of it was turned into one,
and the failure names the requirement as it was written.
-/

namespace CrateIndex

/-- The classes of which a piece takes code points. -/
def Piece.classes : Piece → List CharClass
  | .one c | .many c | .capture c => [c]
  | .maybe cs => cs

namespace Pattern

variable {P : CodePoint → Prop}

theorem forall_of_classes {cs : List CharClass} {u : Text}
    (hu : List.Forall₂ (fun c x => c.holds x = true) cs u)
    (hP : ∀ c ∈ cs, ∀ x, c.holds x = true → P x) : ∀ x ∈ u, P x := by
  induction hu with
  | nil => simp
  | cons hx _ ih =>
      rw [List.forall_mem_cons] at hP ⊢
      exact ⟨hP.1 _ hx, ih hP.2⟩

/-- What holds of all classes of a pattern holds of every text that it takes. -/
theorem Takes.forall_mem {p : Pattern} {s : Text} {runs : List Text} (h : Takes p s runs)
    (hP : ∀ piece ∈ p, ∀ c ∈ piece.classes, ∀ x, c.holds x = true → P x) : ∀ x ∈ s, P x := by
  induction h with
  | nil => simp
  | one hx _ ih =>
      rw [List.forall_mem_cons] at hP ⊢
      exact ⟨hP.1 _ (List.mem_singleton_self _) _ hx, ih hP.2⟩
  | many hu _ ih | capture hu _ ih =>
      rw [List.forall_mem_cons] at hP
      rw [List.forall_mem_append]
      exact ⟨fun x hx => hP.1 _ (List.mem_singleton_self _) x (hu x hx), ih hP.2⟩
  | maybe hu _ ih =>
      rw [List.forall_mem_cons] at hP
      rw [List.forall_mem_append]
      exact ⟨forall_of_classes hu hP.1, ih hP.2⟩
  | skip _ ih => exact ih (List.forall_mem_cons.1 hP).2

/-- A code point that is in no class of a pattern is in no text that it takes. -/
theorem Takes.notMem {p : Pattern} {s : Text} {runs : List Text} {a : Char} (h : Takes p s runs)
    (ha : ∀ piece ∈ p, ∀ c ∈ piece.classes, c.holds a = false) : CodePoint.ofChar a ∉ s := by
  intro hs
  refine h.forall_mem (P := fun x => x ≠ CodePoint.ofChar a) ?_ _ hs rfl
  rintro piece hm c hc x hx rfl
  rw [ha piece hm c hc] at hx
  cases hx

end Pattern

namespace Wildcard

variable {expr e : Text} {cause : Defect}

theorem number_ne_defect {digits : Text} : number digits ≠ .error (.defect e cause) := by
  intro h
  obtain ⟨_, -, he⟩ := Result.mapError_eq_error_iff.1 h
  cases he

theorem written_ne_defect {n : Nat} : written n ≠ .error (.defect e cause) := by
  intro h
  obtain ⟨_, -, he⟩ := Result.mapError_eq_error_iff.1 h
  cases he

theorem bind_ne_defect {α β : Type} {x : Except Failure α} {f : α → Except Failure β}
    (hx : x ≠ .error (.defect e cause)) (hf : ∀ a, f a ≠ .error (.defect e cause)) :
    (x >>= f) ≠ .error (.defect e cause) := by
  intro h
  rcases Result.bind_eq_error_iff.1 h with h | ⟨a, -, h⟩
  · exact hx h
  · exact hf a h

theorem expr_of_rangeOf {twice : Bool} {numbers : List Text}
    (h : rangeOf expr twice numbers = .error (.defect e cause)) : e = expr := by
  -- The numbers can be read and written, or not; neither is a defect.
  unfold rangeOf at h
  split at h
  · refine absurd h (bind_ne_defect number_ne_defect fun m => ?_)
    exact bind_ne_defect written_ne_defect fun low =>
      bind_ne_defect written_ne_defect fun bound => nofun
  · refine absurd h (bind_ne_defect number_ne_defect fun m =>
      bind_ne_defect number_ne_defect fun n => ?_)
    exact bind_ne_defect written_ne_defect fun major =>
      bind_ne_defect written_ne_defect fun minor =>
        bind_ne_defect written_ne_defect fun bound => nofun
  · cases h
    rfl

theorem expr_of_range {front : Text} (h : range expr front = .error (.defect e cause)) :
    e = expr := by
  rcases Result.bind_eq_error_iff.1 h with h | ⟨_, -, h⟩
  · obtain ⟨_, -, he⟩ := Result.mapError_eq_error_iff.1 h
    cases he
    rfl
  · rcases Result.bind_eq_error_iff.1 h with h | ⟨numbers, -, h⟩
    · obtain ⟨_, -, he⟩ := Result.mapError_eq_error_iff.1 h
      cases he
      rfl
    · exact expr_of_rangeOf h

end Wildcard

namespace Rule

theorem wildcard_of_apply_error {r : Rule} {s : Text} {f : Wildcard.Failure}
    (h : r.apply s = .error f) : r = .wildcard ∧ ∃ front, Wildcard.range s front = .error f := by
  unfold apply at h
  split at h
  · cases h
  · have h := Result.map_eq_error_iff.1 h
    cases r with
    | wildcard => exact ⟨rfl, _, h⟩
    | _ => cases h

end Rule

namespace Requirement

variable {expr : Text} {f : Wildcard.Failure}

theorem wildcard_of_convert_error (h : convert expr = .error f) :
    Rule.wildcard.pattern.accepts (spaced expr) = true ∧
      ∃ front, Wildcard.range (spaced expr) front = .error f := by
  rw [convert, applyFirst_eq] at h
  cases hr : firstOf Rule.all (spaced expr) with
  | none => simp [hr] at h
  | some r =>
      simp only [hr] at h
      obtain ⟨rfl, hf⟩ := Rule.wildcard_of_apply_error (Result.map_eq_error_iff.1 h)
      exact ⟨(firstOf_eq_some_iff.1 hr).2, hf⟩

theorem spaced_of_wildcard (h : Rule.wildcard.pattern.accepts (spaced expr) = true) :
    spaced expr = expr := by
  obtain ⟨runs, hr⟩ := Option.isSome_iff_exists.1 h
  exact Text.replaceFirst_eq_self ((Pattern.takes_of_captures hr).notMem (by decide))

theorem expr_of_convert_error {e : Text} {cause : Wildcard.Defect}
    (h : convert expr = .error (.defect e cause)) : e = expr := by
  obtain ⟨ha, front, hr⟩ := wildcard_of_convert_error h
  rw [Wildcard.expr_of_range hr, spaced_of_wildcard ha]

end Requirement

end CrateIndex
