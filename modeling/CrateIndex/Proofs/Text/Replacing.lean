import CrateIndex.Text.Basic
import Mathlib.Data.List.Nodup

/-!
# The first of a kind replaced

With its first `a` turned into `b` a text changes at one place. So the texts that come to `s` in
this way are `s` itself, if it holds no `a`, and `s` with any one `b` in front of its first `a`
turned back.
-/

namespace CrateIndex.Text

variable {a b c : CodePoint} {n s : Text} {i : Nat}

theorem replaceFirst_append (h : a ∉ s) (t : Text) :
    replaceFirst a b (s ++ t) = s ++ replaceFirst a b t := by
  induction s with
  | nil => rfl
  | cons x s ih =>
      rw [List.mem_cons, not_or] at h
      simp only [List.cons_append, replaceFirst, Ne.symm h.1, ↓reduceIte, ih h.2]

theorem replaceFirst_of_notMem (h : a ∉ s) : replaceFirst a b s = s := by
  have happ := replaceFirst_append (b := b) h []
  simpa [replaceFirst] using happ

theorem replaceFirst_eq_self (h : b ∉ replaceFirst a b s) : replaceFirst a b s = s := by
  induction s with
  | nil => rfl
  | cons x s ih =>
      by_cases hx : x = a
      · simp [replaceFirst, hx] at h
      · simp only [replaceFirst, hx, ↓reduceIte, List.mem_cons, not_or] at h ⊢
        rw [ih h.2]

theorem count_replaceFirst (h : b ≠ a) (s : Text) :
    (replaceFirst a b s).count a = s.count a - 1 := by
  induction s with
  | nil => rfl
  | cons x s ih =>
      by_cases hx : x = a
      · simp [replaceFirst, hx, h]
      · simp [replaceFirst, hx, ih]

/-! ## The place that changes -/

/-- The first `c` of the text is at the position `i`. -/
def IsFirst (c : CodePoint) (s : Text) (i : Nat) : Prop := s[i]? = some c ∧ c ∉ s.take i

theorem exists_isFirst (h : c ∈ s) : ∃ i, IsFirst c s i := by
  obtain ⟨front, rest, rfl, hfront⟩ := List.eq_append_cons_of_mem h
  exact ⟨front.length, by simp, by simpa using hfront⟩

namespace IsFirst

theorem replaceFirst_eq (h : IsFirst a s i) : replaceFirst a b s = s.set i b := by
  obtain ⟨hi, hfront⟩ := h
  obtain ⟨hlt, ha⟩ := List.getElem?_eq_some_iff.1 hi
  have hcut : s = s.take i ++ a :: s.drop (i + 1) := by
    rw [← ha, List.getElem_cons_drop, List.take_append_drop]
  rw [List.set_eq_take_append_cons_drop, if_pos hlt]
  conv_lhs => rw [hcut]
  rw [replaceFirst_append hfront, replaceFirst, if_pos rfl]

theorem getElem?_replaceFirst (h : IsFirst a s i) : (replaceFirst a b s)[i]? = some b := by
  rw [h.replaceFirst_eq, List.getElem?_set_self (List.getElem?_eq_some_iff.1 h.1).1]

/-- The change can be taken back. -/
theorem set_replaceFirst (h : IsFirst a s i) : (replaceFirst a b s).set i a = s := by
  obtain ⟨hlt, ha⟩ := List.getElem?_eq_some_iff.1 h.1
  rw [h.replaceFirst_eq, List.set_set, ← ha, List.set_getElem_self]

end IsFirst

theorem getElem?_replaceFirst_of_not_isFirst (h : ¬ IsFirst a s i) :
    (replaceFirst a b s)[i]? = s[i]? := by
  by_cases ha : a ∈ s
  · obtain ⟨j, hj⟩ := exists_isFirst ha
    rw [hj.replaceFirst_eq, List.getElem?_set_ne]
    rintro rfl
    exact h hj
  · rw [replaceFirst_of_notMem ha]

/-! ## The texts that come to one -/

/-- At `i` there is a `b` with no `a` in front of it. -/
def ComesBefore (b a : CodePoint) (s : Text) (i : Nat) : Prop := s[i]? = some b ∧ a ∉ s.take i

theorem replaceFirst_eq_iff : replaceFirst a b n = s ↔
    a ∉ s ∧ n = s ∨ ∃ i, ComesBefore b a s i ∧ n = s.set i a := by
  constructor
  · rintro rfl
    by_cases ha : a ∈ n
    · obtain ⟨i, hi⟩ := exists_isFirst ha
      refine .inr ⟨i, ⟨hi.getElem?_replaceFirst, ?_⟩, hi.set_replaceFirst.symm⟩
      rw [hi.replaceFirst_eq, List.take_set_of_le (Nat.le_refl i)]
      exact hi.2
    · rw [replaceFirst_of_notMem ha]
      exact .inl ⟨ha, rfl⟩
  · rintro (⟨ha, rfl⟩ | ⟨i, ⟨hb, ha⟩, rfl⟩)
    · exact replaceFirst_of_notMem ha
    · obtain ⟨hlt, hb⟩ := List.getElem?_eq_some_iff.1 hb
      have hi : IsFirst a (s.set i a) i := by
        refine ⟨List.getElem?_set_self hlt, ?_⟩
        rwa [List.take_set_of_le (Nat.le_refl i)]
      rw [hi.replaceFirst_eq, List.set_set, ← hb, List.set_getElem_self]

/-- The texts that come to one. -/
def sources (a b : CodePoint) : Text → List Text
  | [] => [[]]
  | c :: s =>
    if c = a then []
    else (if c = b then [a :: s] else []) ++ (sources a b s).map (c :: ·)

theorem mem_sources_cons : n ∈ sources a b (c :: s) ↔
    c ≠ a ∧ (c = b ∧ n = a :: s ∨ ∃ m ∈ sources a b s, c :: m = n) := by
  by_cases hc : c = a
  · simp [sources, hc]
  · by_cases hb : c = b
    · subst hb
      simp [sources, hc]
    · simp [sources, hc, hb]

theorem replaceFirst_eq_cons_iff : replaceFirst a b n = c :: s ↔
    c = b ∧ n = a :: s ∨ ∃ m, c ≠ a ∧ replaceFirst a b m = s ∧ c :: m = n := by
  cases n with
  | nil => simp [replaceFirst]
  | cons x n =>
      rw [replaceFirst]
      by_cases hx : x = a
      · subst hx
        simp +contextual [eq_comm]
      · rw [if_neg hx]
        simp only [List.cons.injEq, hx, false_and, and_false, false_or]
        constructor
        · rintro ⟨rfl, h⟩
          exact ⟨n, hx, h, rfl, rfl⟩
        · rintro ⟨m, -, h, rfl, rfl⟩
          exact ⟨rfl, h⟩

theorem mem_sources_iff (hab : a ≠ b) : n ∈ sources a b s ↔ replaceFirst a b n = s := by
  induction s generalizing n with
  | nil =>
      cases n with
      | nil => simp [sources, replaceFirst]
      | cons x n =>
          have hne : replaceFirst a b (x :: n) ≠ [] := by
            rw [replaceFirst]
            split <;> simp
          simp [sources, hne]
  | cons c s ih =>
      rw [mem_sources_cons, replaceFirst_eq_cons_iff]
      simp only [ih]
      constructor
      · rintro ⟨hc, hn | ⟨m, hm, hn⟩⟩
        · exact .inl hn
        · exact .inr ⟨m, hc, hm, hn⟩
      · rintro (⟨rfl, hn⟩ | ⟨m, hc, hm, hn⟩)
        · exact ⟨hab.symm, .inl ⟨rfl, hn⟩⟩
        · exact ⟨hc, .inr ⟨m, hm, hn⟩⟩

theorem nodup_sources (hab : a ≠ b) (s : Text) : (sources a b s).Nodup := by
  induction s with
  | nil => exact List.nodup_singleton []
  | cons c s ih =>
      have hmap : ((sources a b s).map (c :: ·)).Nodup := ih.map List.cons_injective
      rw [sources]
      split
      · exact List.nodup_nil
      · split
        · rename_i hc
          -- The text with the `b` turned back is the only one that begins with `a`.
          refine List.nodup_cons.2 ⟨?_, hmap⟩
          simp [hc, hab.symm]
        · exact hmap

/-- Each `b` in front of the first `a` makes one, and the text itself is one if it has no `a`. -/
theorem length_sources (a b : CodePoint) (s : Text) : (sources a b s).length =
    (s.takeWhile (· ≠ a)).count b + if a ∈ s then 0 else 1 := by
  induction s with
  | nil => rfl
  | cons c s ih =>
      rw [sources]
      by_cases hc : c = a
      · simp [hc]
      · have hmem : a ∈ c :: s ↔ a ∈ s := by simp [Ne.symm hc]
        rw [if_neg hc, List.takeWhile_cons_of_pos (by simpa using hc), List.count_cons,
          List.length_append, List.length_map, ih]
        simp only [hmem, beq_iff_eq]
        split
        · simp
          omega
        · simp

end CrateIndex.Text
