import CrateIndex.Decimal.Natural
import Mathlib.Algebra.Group.Nat.Defs
import Mathlib.Data.List.Basic
import Mathlib.Data.List.Induction

/-!
# Canonical decimals

The decimal of a number is `0` or begins with another digit, and every text of this kind is the
decimal of its number. The number of its digits is bounded by the powers of ten.
-/

namespace CrateIndex

theorem CodePoint.isDigit_iff {c : CodePoint} : c.isDigit = true ↔ 48 ≤ c.val ∧ c.val ≤ 57 := by
  rw [isDigit, Bool.and_eq_true, decide_eq_true_iff, decide_eq_true_iff]

namespace Decimal

variable {s : Text} {c : CodePoint} {m n d k : Nat}

theorem isDigit_digit (h : n < 10) : (digit n).isDigit = true := by
  have hval : (digit n).val = 48 + n := CodePoint.val_ofNat (by omega)
  rw [CodePoint.isDigit_iff]
  omega

theorem digit_val (h : c.isDigit = true) : c.val - 48 < 10 ∧ digit (c.val - 48) = c := by
  rw [CodePoint.isDigit_iff] at h
  have hval : (digit (c.val - 48)).val = 48 + (c.val - 48) := CodePoint.val_ofNat (by omega)
  exact ⟨by omega, CodePoint.ext_val (by omega)⟩

theorem isDigit_text (n : Nat) : ∀ c ∈ text n, c.isDigit = true := by
  induction n using Nat.strongRecOn with
  | ind n ih =>
      by_cases h : n < 10
      · rw [text_of_lt h]
        exact List.forall_mem_singleton.2 (isDigit_digit h)
      · rw [text_of_le (by omega), List.forall_mem_append]
        refine ⟨ih (n / 10) (by omega), List.forall_mem_singleton.2 (isDigit_digit ?_)⟩
        exact Nat.mod_lt n (by decide)

theorem read_eq_ok_iff : read s = .ok n ↔ s.length ≤ digitLimit ∧ n = value s := by
  rw [read]
  split
  · rename_i h
    simp [h, eq_comm]
  · rename_i h
    simp [h]

theorem write_eq_ok_iff : write n = .ok s ↔ (text n).length ≤ digitLimit ∧ s = text n := by
  simp only [write]
  split
  · rename_i h
    simp [h, eq_comm]
  · rename_i h
    simp [h]

/-- The text is `0`, or digits of which the first is not `0`. -/
def IsCanonical (s : Text) : Prop :=
  s = "0" ∨ s ≠ [] ∧ (∀ c ∈ s, c.isDigit = true) ∧ s.head? ≠ some (CodePoint.ofChar '0')

theorem IsCanonical.ne_nil (h : IsCanonical s) : s ≠ [] := by
  rcases h with rfl | ⟨hne, -⟩
  · exact List.cons_ne_nil _ _
  · exact hne

theorem IsCanonical.isDigit (h : IsCanonical s) : ∀ c ∈ s, c.isDigit = true := by
  rcases h with rfl | ⟨-, hd, -⟩
  · decide
  · exact hd

theorem text_zero : text 0 = "0" := text_of_lt (by decide)

theorem text_ten_mul_add (hm : 0 < m) (hd : d < 10) :
    text (10 * m + d) = text m ++ [digit d] := by
  have hdiv : (10 * m + d) / 10 = m := by omega
  have hmod : (10 * m + d) % 10 = d := by omega
  rw [text_of_le (by omega), hdiv, hmod]

theorem digit_ne_zero (hn : 0 < n) (h : n < 10) : digit n ≠ CodePoint.ofChar '0' := by
  intro he
  have hval : (digit n).val = 48 + n := CodePoint.val_ofNat (by omega)
  rw [he] at hval
  simp only [CodePoint.val_ofChar, Char.reduceToNat] at hval
  omega

theorem isCanonical_text (n : Nat) : IsCanonical (text n) := by
  induction n using Nat.strongRecOn with
  | ind n ih =>
      by_cases h0 : n = 0
      · exact .inl (h0 ▸ text_zero)
      · refine .inr ⟨?_, isDigit_text n, ?_⟩
        · by_cases h : n < 10
          · simp [text_of_lt h]
          · simp [text_of_le (Nat.le_of_not_lt h)]
        · by_cases h : n < 10
          · simp [text_of_lt h, digit_ne_zero (Nat.pos_of_ne_zero h0) h]
          · rw [text_of_le (by omega),
              List.head?_append_of_ne_nil _ (ih (n / 10) (by omega)).ne_nil]
            rcases ih (n / 10) (by omega) with hz | ⟨-, -, hhead⟩
            · have hdiv := text_inj.1 (hz.trans text_zero.symm)
              omega
            · exact hhead

/-- Digits that do not begin with `0` are the decimal of their number, which is not 0. -/
theorem text_value_of_digits (hne : s ≠ []) (hd : ∀ c ∈ s, c.isDigit = true)
    (hhead : s.head? ≠ some (CodePoint.ofChar '0')) : text (value s) = s ∧ 0 < value s := by
  induction s using List.reverseRecOn with
  | nil => exact absurd rfl hne
  | append_singleton s c ih =>
      rw [List.forall_mem_append, List.forall_mem_singleton] at hd
      obtain ⟨hlt, hc⟩ := digit_val hd.2
      have hvalue : value (s ++ [c]) = 10 * value s + (c.val - 48) := by
        rw [← value_append_digit s hlt, hc]
      by_cases hs : s = []
      · subst hs
        have hpos : 0 < c.val - 48 := by
          refine Nat.pos_of_ne_zero fun h0 => hhead ?_
          rw [← hc, h0]
          rfl
        have hzero : value [] = 0 := rfl
        rw [hvalue, hzero, Nat.mul_zero, Nat.zero_add, text_of_lt hlt, hc]
        exact ⟨rfl, hpos⟩
      · rw [List.head?_append_of_ne_nil _ hs] at hhead
        obtain ⟨htext, hpos⟩ := ih hs hd.1 hhead
        rw [hvalue, text_ten_mul_add hpos hlt, htext, hc]
        exact ⟨rfl, by omega⟩

theorem text_value (h : IsCanonical s) : text (value s) = s := by
  rcases h with rfl | ⟨hne, hd, hhead⟩
  · exact text_zero
  · exact (text_value_of_digits hne hd hhead).1

theorem length_text_le_iff (hk : 0 < k) : (text n).length ≤ k ↔ n < 10 ^ k := by
  induction k generalizing n with
  | zero => exact absurd hk (Nat.lt_irrefl 0)
  | succ k ih =>
      by_cases h : n < 10
      · have hpow : 10 ^ 1 ≤ 10 ^ (k + 1) := Nat.pow_le_pow_right (by decide) (by omega)
        rw [text_of_lt h]
        simp only [List.length_singleton]
        omega
      · rw [text_of_le (by omega), List.length_append, List.length_singleton,
          Nat.add_le_add_iff_right, Nat.pow_succ]
        rcases Nat.eq_zero_or_pos k with rfl | hk
        · have hne := (isCanonical_text (n / 10)).ne_nil
          simp [hne, Nat.le_of_not_lt h]
        · rw [ih hk, Nat.div_lt_iff_lt_mul (by decide)]

theorem isCanonical_replicate_nine (hk : 0 < k) : IsCanonical (List.replicate k (digit 9)) := by
  cases k with
  | zero => exact absurd hk (Nat.lt_irrefl 0)
  | succ k =>
      refine .inr ⟨List.cons_ne_nil _ _, ?_, ?_⟩
      · intro c hc
        rw [List.eq_of_mem_replicate hc]
        exact isDigit_digit (by decide)
      · intro hz
        exact digit_ne_zero (by decide) (by decide) (Option.some.inj hz)

theorem value_replicate_nine (k : Nat) : value (List.replicate k (digit 9)) + 1 = 10 ^ k := by
  induction k with
  | zero => rfl
  | succ k ih =>
      rw [List.replicate_succ', value_append_digit _ (by decide), Nat.pow_succ, ← ih]
      omega

end Decimal

end CrateIndex
