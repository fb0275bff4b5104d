import CrateIndex.Text.Basic

/-!
# The order of texts

The order by code points is total, and sorting texts leaves no choice: what is sorted and then
sifted is what is sifted and then sorted.
-/

namespace CrateIndex.Text

theorem le_antisymm {s t : Text} (hst : le s t = true) (hts : le t s = true) : s = t := by
  induction s generalizing t with
  | nil =>
      cases t with
      | nil => rfl
      | cons b t => cases hts
  | cons a s ih =>
      cases t with
      | nil => cases hst
      | cons b t =>
          simp only [le, Bool.or_eq_true, Bool.and_eq_true, decide_eq_true_eq] at hst hts
          rcases hst with h | ⟨rfl, hst⟩
          · rcases hts with h' | ⟨rfl, -⟩
            · omega
            · omega
          · rcases hts with h' | ⟨-, hts⟩
            · omega
            · rw [ih hst hts]

theorem le_trans {s t u : Text} (hst : le s t = true) (htu : le t u = true) : le s u = true := by
  induction s generalizing t u with
  | nil => rfl
  | cons a s ih =>
      cases t with
      | nil => cases hst
      | cons b t =>
          cases u with
          | nil => cases htu
          | cons c u =>
              simp only [le, Bool.or_eq_true, Bool.and_eq_true, decide_eq_true_eq] at hst htu ⊢
              rcases hst with h | ⟨rfl, hst⟩
              · rcases htu with h' | ⟨rfl, -⟩
                · exact .inl (Nat.lt_trans h h')
                · exact .inl h
              · rcases htu with h' | ⟨rfl, htu⟩
                · exact .inl h'
                · exact .inr ⟨rfl, ih hst htu⟩

theorem le_total (s t : Text) : (le s t || le t s) = true := by
  induction s generalizing t with
  | nil => rfl
  | cons a s ih =>
      cases t with
      | nil => rfl
      | cons b t =>
          have iht := ih t
          simp only [le, Bool.or_eq_true, Bool.and_eq_true, decide_eq_true_eq] at iht ⊢
          rcases Nat.lt_trichotomy a.val b.val with h | h | h
          · exact .inl (.inl h)
          · obtain rfl := CodePoint.ext_val h
            exact iht.imp (fun hs => .inr ⟨rfl, hs⟩) fun hs => .inr ⟨rfl, hs⟩
          · exact .inr (.inl h)

theorem pairwise_sorted (xs : List Text) :
    (xs.mergeSort le).Pairwise fun s t => le s t = true := by
  refine List.pairwise_mergeSort ?_ le_total xs
  intro s t u
  exact le_trans

theorem filter_mergeSort (p : Text → Bool) (xs : List Text) :
    (xs.mergeSort le).filter p = (xs.filter p).mergeSort le := by
  have hperm : ((xs.mergeSort le).filter p).Perm ((xs.filter p).mergeSort le) :=
    ((List.mergeSort_perm xs le).filter p).trans (List.mergeSort_perm _ le).symm
  refine List.Perm.eq_of_pairwise ?_ ((pairwise_sorted xs).filter p) (pairwise_sorted _) hperm
  intro s t _ _
  exact le_antisymm

end CrateIndex.Text
