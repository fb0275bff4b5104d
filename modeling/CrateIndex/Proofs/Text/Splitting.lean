import CrateIndex.Text.Basic

/-!
# Pieces of a text

The pieces between separators hold no separator, and put together with separators between them they
are the text.
-/

namespace CrateIndex

namespace Text

variable {c : CodePoint} {s t w : Text}

theorem splitOn_of_notMem (h : c ∉ s) : splitOn c s = [s] := by
  induction s with
  | nil => rfl
  | cons x s ih =>
      rw [List.mem_cons, not_or] at h
      rw [splitOn, if_neg (Ne.symm h.1), ih h.2]

theorem splitOn_append_cons : splitOn c (s ++ c :: t) = splitOn c s ++ splitOn c t := by
  induction s with
  | nil => simp [splitOn]
  | cons x s ih =>
      rw [List.cons_append, splitOn, splitOn, ih]
      split
      · rfl
      · cases hs : splitOn c s with
        | nil => exact absurd hs (splitOn_ne_nil c s)
        | cons w ws => rfl

/-- A text without separators goes on with the last piece. -/
theorem exists_splitOn_append (h : c ∉ t) (s : Text) :
    ∃ pieces l, splitOn c (s ++ t) = pieces ++ [l ++ t] := by
  induction s with
  | nil => exact ⟨[], [], splitOn_of_notMem h⟩
  | cons x s ih =>
      obtain ⟨pieces, l, hs⟩ := ih
      rw [List.cons_append, splitOn, hs]
      split
      · exact ⟨[] :: pieces, l, rfl⟩
      · cases pieces with
        | nil => exact ⟨[], x :: l, rfl⟩
        | cons w ws => exact ⟨(x :: w) :: ws, l, rfl⟩

theorem mem_of_mem_splitOn {x : CodePoint} (hw : w ∈ splitOn c s) (hx : x ∈ w) : x ∈ s := by
  induction s generalizing w with
  | nil =>
      rw [splitOn, List.mem_singleton] at hw
      rw [hw] at hx
      cases hx
  | cons y s ih =>
      rw [splitOn] at hw
      split at hw
      · rcases List.mem_cons.1 hw with rfl | hw
        · cases hx
        · exact List.mem_cons_of_mem y (ih hw hx)
      · cases hs : splitOn c s with
        | nil => exact absurd hs (splitOn_ne_nil c s)
        | cons v vs =>
            rw [hs] at hw ih
            rcases List.mem_cons.1 hw with rfl | hw
            · rcases List.mem_cons.1 hx with rfl | hx
              · exact List.mem_cons_self
              · exact List.mem_cons_of_mem y (ih List.mem_cons_self hx)
            · exact List.mem_cons_of_mem y (ih (List.mem_cons_of_mem v hw) hx)

theorem notMem_of_mem_splitOn (h : w ∈ splitOn c s) : c ∉ w := by
  induction s generalizing w with
  | nil =>
      rw [splitOn, List.mem_singleton] at h
      simp [h]
  | cons x s ih =>
      rw [splitOn] at h
      split at h
      · rcases List.mem_cons.1 h with rfl | h
        · simp
        · exact ih h
      · next hx =>
          cases hs : splitOn c s with
          | nil => exact absurd hs (splitOn_ne_nil c s)
          | cons v vs =>
              rw [hs] at h ih
              rcases List.mem_cons.1 h with rfl | h
              · rw [List.mem_cons, not_or]
                exact ⟨Ne.symm hx, ih List.mem_cons_self⟩
              · exact ih (List.mem_cons_of_mem v h)

theorem join_cons (sep w : Text) {ws : List Text} (h : ws ≠ []) :
    join sep (w :: ws) = w ++ (sep ++ join sep ws) := by
  cases ws with
  | nil => exact absurd rfl h
  | cons v vs => rw [join, List.intercalate_cons_cons, List.append_assoc, join]

theorem join_splitOn (c : CodePoint) (s : Text) : join [c] (splitOn c s) = s := by
  induction s with
  | nil => rfl
  | cons x s ih =>
      rw [splitOn]
      split
      · rename_i hx
        rw [join_cons _ _ (splitOn_ne_nil c s), ih, hx, List.nil_append, List.singleton_append]
      · cases hs : splitOn c s with
        | nil => exact absurd hs (splitOn_ne_nil c s)
        | cons w ws =>
            rw [hs] at ih
            by_cases hws : ws = []
            · subst hws
              exact congrArg _ ih
            · rw [join_cons _ _ hws] at ih ⊢
              exact congrArg _ ih

theorem splitOn_join {ws : List Text} (hne : ws ≠ []) (h : ∀ w ∈ ws, c ∉ w) :
    splitOn c (join [c] ws) = ws := by
  induction ws with
  | nil => exact absurd rfl hne
  | cons w ws ih =>
      rw [List.forall_mem_cons] at h
      by_cases hws : ws = []
      · rw [hws, join, List.intercalate_singleton, splitOn_of_notMem h.1]
      · rw [join_cons _ _ hws, List.singleton_append, splitOn_append_cons, splitOn_of_notMem h.1,
          ih hws h.2, List.singleton_append]

/-- The pieces with the separator text behind each. -/
def ended (sep : Text) (pieces : List Text) : Text := pieces.flatMap (· ++ sep)

@[simp] theorem ended_nil (sep : Text) : ended sep [] = [] := rfl

@[simp] theorem ended_cons (sep w : Text) (ws : List Text) :
    ended sep (w :: ws) = w ++ (sep ++ ended sep ws) := by
  rw [ended, List.flatMap_cons, List.append_assoc]
  rfl

@[simp] theorem ended_append (sep : Text) (ws ws' : List Text) :
    ended sep (ws ++ ws') = ended sep ws ++ ended sep ws' :=
  List.flatMap_append

theorem join_append (sep : Text) (ws : List Text) {ws' : List Text} (h : ws' ≠ []) :
    join sep (ws ++ ws') = ended sep ws ++ join sep ws' := by
  induction ws with
  | nil => rfl
  | cons w ws ih =>
      rw [List.cons_append, join_cons sep w (List.append_ne_nil_of_right_ne_nil ws h), ih,
        ended_cons, List.append_assoc, List.append_assoc]

/-- A separator behind each piece is one between each two, with an empty piece at the end. -/
theorem join_append_empty (sep : Text) (ws : List Text) :
    join sep (ws ++ [([] : Text)]) = ended sep ws := by
  rw [join_append sep ws (List.cons_ne_nil _ _), join, List.intercalate_singleton, List.append_nil]

theorem forall_mem_join {P : CodePoint → Prop} {sep : Text} {ws : List Text}
    (hsep : ∀ x ∈ sep, P x) (h : ∀ w ∈ ws, ∀ x ∈ w, P x) : ∀ x ∈ join sep ws, P x := by
  induction ws with
  | nil => exact List.forall_mem_nil P
  | cons w ws ih =>
      rw [List.forall_mem_cons] at h
      by_cases hws : ws = []
      · rw [hws, join, List.intercalate_singleton]
        exact h.1
      · rw [join_cons _ _ hws, List.forall_mem_append, List.forall_mem_append]
        exact ⟨h.1, hsep, ih h.2⟩

theorem forall_mem_ended {P : CodePoint → Prop} {sep : Text} {ws : List Text}
    (hsep : ∀ x ∈ sep, P x) (h : ∀ w ∈ ws, ∀ x ∈ w, P x) : ∀ x ∈ ended sep ws, P x := by
  rw [← join_append_empty]
  refine forall_mem_join hsep ?_
  rw [List.forall_mem_append, List.forall_mem_singleton]
  exact ⟨h, List.forall_mem_nil P⟩

theorem cutAt?_of_notMem (h : c ∉ s) : cutAt? c s = none := by
  induction s with
  | nil => rfl
  | cons x s ih =>
      rw [List.mem_cons, not_or] at h
      rw [cutAt?, if_neg (Ne.symm h.1), ih h.2, Option.map_none]

theorem cutAt?_append (h : c ∉ s) (t : Text) : cutAt? c (s ++ c :: t) = some (s, t) := by
  induction s with
  | nil => rw [List.nil_append, cutAt?, if_pos rfl]
  | cons x s ih =>
      rw [List.mem_cons, not_or] at h
      rw [List.cons_append, cutAt?, if_neg (Ne.symm h.1), ih h.2, Option.map_some]

end Text

end CrateIndex
