import CrateIndex.Requirement.Rule
import Mathlib.Data.List.Forall2

/-!
# What a pattern takes

A pattern takes a text if the text can be cut into parts, one for each piece. The matcher finds such
a cut, and what it captures are the parts of the pieces that capture.
-/

namespace CrateIndex.Pattern

variable {β : Type}

/-- The text cut into what the pieces take, one after the other, and the runs captured by it. -/
inductive Takes : Pattern → Text → List Text → Prop
  | nil : Takes [] [] []
  | one {c ps x s runs} (hx : c.holds x = true) (h : Takes ps s runs) :
      Takes (.one c :: ps) (x :: s) runs
  | many {c ps u s runs} (hu : ∀ x ∈ u, c.holds x = true) (h : Takes ps s runs) :
      Takes (.many c :: ps) (u ++ s) runs
  | maybe {cs ps u s runs} (hu : List.Forall₂ (fun c x => c.holds x = true) cs u)
      (h : Takes ps s runs) : Takes (.maybe cs :: ps) (u ++ s) runs
  | skip {cs ps s runs} (h : Takes ps s runs) : Takes (.maybe cs :: ps) s runs
  | capture {c ps x u s runs} (hu : ∀ y ∈ x :: u, c.holds y = true) (h : Takes ps s runs) :
      Takes (.capture c :: ps) (x :: u ++ s) ((x :: u) :: runs)

theorem stop_some {k : Text → Option β} {s run : Text} {b : β}
    (h : (k s).map (([] : Text), ·) = some (run, b)) : run = [] ∧ k s = some b := by
  obtain ⟨b', hb, he⟩ := Option.map_eq_some_iff.1 h
  cases he
  exact ⟨rfl, hb⟩

theorem longestRun_some {p : CodePoint → Bool} {k : Text → Option β} {s run : Text} {b : β}
    (h : longestRun p k s = some (run, b)) :
    ∃ rest, s = run ++ rest ∧ k rest = some b ∧ ∀ x ∈ run, p x = true := by
  induction s generalizing run with
  | nil =>
      obtain ⟨rfl, hk⟩ := stop_some h
      exact ⟨[], rfl, hk, by simp⟩
  | cons c s ih =>
      -- The run ends before `c` when the rest of the pattern asks for it, or when `c` is not taken.
      have stop (h : (k (c :: s)).map (([] : Text), ·) = some (run, b)) :
          ∃ rest, c :: s = run ++ rest ∧ k rest = some b ∧ ∀ x ∈ run, p x = true := by
        obtain ⟨rfl, hk⟩ := stop_some h
        exact ⟨c :: s, rfl, hk, by simp⟩
      simp only [longestRun] at h
      split at h
      · rename_i hc
        split at h
        · rename_i run' b' hr
          cases h
          obtain ⟨rest, rfl, hk, hp⟩ := ih hr
          refine ⟨rest, rfl, hk, ?_⟩
          intro x hx
          rcases List.mem_cons.1 hx with rfl | hx
          · exact hc
          · exact hp x hx
        · exact stop h
      · exact stop h

theorem dropClasses?_some {cs : List CharClass} {s rest : Text}
    (h : dropClasses? cs s = some rest) :
    ∃ u, s = u ++ rest ∧ List.Forall₂ (fun c x => c.holds x = true) cs u := by
  induction cs generalizing s with
  | nil => cases h; exact ⟨[], rfl, .nil⟩
  | cons c cs ih =>
      cases s with
      | nil => cases h
      | cons x s =>
          simp only [dropClasses?] at h
          split at h
          · rename_i hx
            obtain ⟨u, rfl, hu⟩ := ih h
            exact ⟨x :: u, rfl, .cons hx hu⟩
          · cases h

/-- What the matcher captures belongs to a cut of the text. -/
theorem takes_of_captures {p : Pattern} {s : Text} {runs : List Text}
    (h : captures? p s = some runs) : Takes p s runs := by
  induction p generalizing s runs with
  | nil =>
      cases s with
      | nil => cases h; exact .nil
      | cons x s => cases h
  | cons piece ps ih =>
      cases piece with
      | one c =>
          cases s with
          | nil => cases h
          | cons x s =>
              simp only [captures?] at h
              split at h
              · rename_i hx
                exact .one hx (ih h)
              · cases h
      | many c =>
          simp only [captures?] at h
          obtain ⟨⟨run, b⟩, hr, rfl⟩ := Option.map_eq_some_iff.1 h
          obtain ⟨rest, rfl, hk, hu⟩ := longestRun_some hr
          exact .many hu (ih hk)
      | maybe cs =>
          simp only [captures?, Option.or_eq_some_iff] at h
          rcases h with h | ⟨-, h⟩
          · obtain ⟨rest, hd, hk⟩ := Option.bind_eq_some_iff.1 h
            obtain ⟨u, rfl, hu⟩ := dropClasses?_some hd
            exact .maybe hu (ih hk)
          · exact .skip (ih h)
      | capture c =>
          cases s with
          | nil => cases h
          | cons x s =>
              simp only [captures?] at h
              split at h
              · rename_i hx
                obtain ⟨⟨run, b⟩, hr, rfl⟩ := Option.map_eq_some_iff.1 h
                obtain ⟨rest, rfl, hk, hu⟩ := longestRun_some hr
                refine .capture ?_ (ih hk)
                intro y hy
                rcases List.mem_cons.1 hy with rfl | hy
                · exact hx
                · exact hu y hy
              · cases h

/-- The longest run takes in what is put in front of a text and belongs to it. -/
theorem longestRun_append {p : CodePoint → Bool} {k : Text → Option β} {u s run : Text} {b : β}
    (hu : ∀ x ∈ u, p x = true) (h : longestRun p k s = some (run, b)) :
    longestRun p k (u ++ s) = some (u ++ run, b) := by
  induction u with
  | nil => exact h
  | cons x u ih =>
      rw [List.forall_mem_cons] at hu
      simp only [List.cons_append, longestRun, hu.1, ih hu.2, ↓reduceIte]

theorem exists_longestRun {p : CodePoint → Bool} {k : Text → Option β} {s : Text} {b : β}
    (h : k s = some b) : ∃ r, longestRun p k s = some r := by
  cases s with
  | nil =>
      rw [longestRun, h]
      exact ⟨_, rfl⟩
  | cons c s =>
      have stop : (k (c :: s)).map (([] : Text), ·) = some ([], b) := by rw [h]; rfl
      simp only [longestRun]
      split
      · split
        · exact ⟨_, rfl⟩
        · exact ⟨_, stop⟩
      · exact ⟨_, stop⟩

theorem dropClasses?_append {cs : List CharClass} {u : Text}
    (hu : List.Forall₂ (fun c x => c.holds x = true) cs u) (s : Text) :
    dropClasses? cs (u ++ s) = some s := by
  induction hu with
  | nil => rfl
  | cons hx _ ih => rw [List.cons_append, dropClasses?, if_pos hx, ih]

/-- If the text can be cut the matcher finds a cut, be it another one. -/
theorem exists_captures_of_takes {p : Pattern} {s : Text} {runs : List Text} (h : Takes p s runs) :
    ∃ runs', captures? p s = some runs' := by
  induction h with
  | nil => exact ⟨[], rfl⟩
  | one hx _ ih =>
      rw [captures?, if_pos hx]
      exact ih
  | many hu _ ih =>
      obtain ⟨runs', hr⟩ := ih
      obtain ⟨⟨run, b⟩, hrun⟩ := exists_longestRun hr
      rw [captures?, longestRun_append hu hrun]
      exact ⟨_, rfl⟩
  | maybe hu _ ih =>
      obtain ⟨runs', hr⟩ := ih
      rw [captures?, dropClasses?_append hu, Option.bind_some, hr, Option.some_or]
      exact ⟨_, rfl⟩
  | @skip cs ps s _ _ ih =>
      obtain ⟨runs', hr⟩ := ih
      rw [captures?, hr]
      cases (dropClasses? cs s).bind (captures? ps) with
      | none => exact ⟨_, rfl⟩
      | some _ => exact ⟨_, rfl⟩
  | capture hu _ ih =>
      obtain ⟨runs', hr⟩ := ih
      obtain ⟨⟨run, b⟩, hrun⟩ := exists_longestRun hr
      rw [List.forall_mem_cons] at hu
      rw [List.cons_append, captures?, if_pos hu.1, longestRun_append hu.2 hrun]
      exact ⟨_, rfl⟩

theorem accepts_iff {p : Pattern} {s : Text} : p.accepts s = true ↔ ∃ runs, Takes p s runs := by
  rw [accepts, Option.isSome_iff_exists]
  constructor
  · rintro ⟨runs, h⟩
    exact ⟨runs, takes_of_captures h⟩
  · rintro ⟨runs, h⟩
    exact exists_captures_of_takes h

/-- Where all cuts agree on the runs, these are the runs captured. -/
theorem captures_eq_of_takes {p : Pattern} {s : Text} {runs : List Text} (h : Takes p s runs)
    (hunique : ∀ runs', Takes p s runs' → runs' = runs) : captures? p s = some runs := by
  obtain ⟨runs', hr⟩ := exists_captures_of_takes h
  rw [hr, hunique runs' (takes_of_captures hr)]

/-- The classes whose runs a piece captures. -/
def capturedClasses : Piece → List CharClass
  | .capture c => [c]
  | _ => []

theorem Takes.forall_mem_runs {P : CodePoint → Prop} {p : Pattern} {s : Text} {runs : List Text}
    (h : Takes p s runs)
    (hP : ∀ piece ∈ p, ∀ c ∈ capturedClasses piece, ∀ x, c.holds x = true → P x) :
    ∀ run ∈ runs, ∀ x ∈ run, P x := by
  induction h with
  | nil => simp
  | one _ _ ih | many _ _ ih | maybe _ _ ih | skip _ ih => exact ih (List.forall_mem_cons.1 hP).2
  | capture hu _ ih =>
      rw [List.forall_mem_cons] at hP ⊢
      exact ⟨fun x hx => hP.1 _ (List.mem_singleton_self _) x (hu x hx), ih hP.2⟩

theorem Takes.append {p q : Pattern} {u v : Text} {us vs : List Text} (hu : Takes p u us)
    (hv : Takes q v vs) : Takes (p ++ q) (u ++ v) (us ++ vs) := by
  induction hu with
  | nil => exact hv
  | one hx _ ih => exact .one hx ih
  | many hw _ ih =>
      rw [List.append_assoc]
      exact .many hw ih
  | maybe hw _ ih =>
      rw [List.append_assoc]
      exact .maybe hw ih
  | skip _ ih => exact .skip ih
  | capture hw _ ih =>
      rw [List.append_assoc]
      exact .capture hw ih

/-- Of a pattern in two parts, each takes its part of the text. -/
theorem Takes.append_cases {p q : Pattern} {s : Text} {runs : List Text}
    (h : Takes (p ++ q) s runs) : ∃ u v us vs,
      s = u ++ v ∧ runs = us ++ vs ∧ Takes p u us ∧ Takes q v vs := by
  induction p generalizing s runs with
  | nil => exact ⟨[], s, [], runs, rfl, rfl, .nil, h⟩
  | cons piece ps ih =>
      rw [List.cons_append] at h
      cases h with
      | one hx h =>
          obtain ⟨u, v, us, vs, rfl, rfl, hu, hv⟩ := ih h
          exact ⟨_ :: u, v, us, vs, rfl, rfl, .one hx hu, hv⟩
      | many hw h =>
          obtain ⟨u, v, us, vs, rfl, rfl, hu, hv⟩ := ih h
          exact ⟨_, v, us, vs, (List.append_assoc ..).symm, rfl, .many hw hu, hv⟩
      | maybe hw h =>
          obtain ⟨u, v, us, vs, rfl, rfl, hu, hv⟩ := ih h
          exact ⟨_, v, us, vs, (List.append_assoc ..).symm, rfl, .maybe hw hu, hv⟩
      | skip h =>
          obtain ⟨u, v, us, vs, rfl, rfl, hu, hv⟩ := ih h
          exact ⟨u, v, us, vs, rfl, rfl, .skip hu, hv⟩
      | capture hw h =>
          obtain ⟨u, v, us, vs, rfl, rfl, hu, hv⟩ := ih h
          exact ⟨_, v, _ :: us, vs, (List.append_assoc ..).symm, rfl, .capture hw hu, hv⟩

theorem Takes.exists_mem_of_one {c : CharClass} {p : Pattern} {s : Text} {runs : List Text}
    (h : Takes p s runs) (hc : Piece.one c ∈ p) : ∃ x ∈ s, c.holds x = true := by
  induction h with
  | nil => cases hc
  | @one d ps x s runs hx _ ih =>
      rcases List.mem_cons.1 hc with hd | hc
      · cases hd
        exact ⟨x, List.mem_cons_self, hx⟩
      · obtain ⟨y, hy, hcy⟩ := ih hc
        exact ⟨y, List.mem_cons_of_mem x hy, hcy⟩
  | many _ _ ih | maybe _ _ ih | capture _ _ ih =>
      obtain ⟨y, hy, hcy⟩ := ih (by simpa using hc)
      exact ⟨y, List.mem_append_right _ hy, hcy⟩
  | skip _ ih => exact ih (by simpa using hc)

end CrateIndex.Pattern
