import CrateIndex.Proofs.Decimal.Canonical
import CrateIndex.Proofs.Result
import CrateIndex.Proofs.Text.Splitting
import CrateIndex.Proofs.Version.Precedence

/-!
# Versions and intervals as text

The numbers of a version are written with dots in between, and so are the identifiers of a
pre-release, with a hyphen in front of them. All versions and intervals are read back from their
text.
-/

namespace CrateIndex

open Decimal (IsCanonical)

instance (s : Text) : Decidable (IsCanonical s) :=
  inferInstanceAs (Decidable (s = "0" ∨ s ≠ [] ∧ (∀ c ∈ s, c.isDigit = true) ∧
    s.head? ≠ some (CodePoint.ofChar '0')))

instance (s : Text) : Decidable (IsName s) :=
  inferInstanceAs (Decidable ((∀ c ∈ s, c.isDigit = true ∨ (65 ≤ c.val ∧ c.val ≤ 90) ∨
    (97 ≤ c.val ∧ c.val ≤ 122) ∨ c = CodePoint.ofChar '-') ∧ ∃ c ∈ s, c.isDigit = false))

theorem IsName.not_canonical {s : Text} (h : IsName s) : ¬ IsCanonical s := by
  intro hc
  obtain ⟨c, hcs, hd⟩ := h.2
  rw [hc.isDigit c hcs] at hd
  cases hd

namespace Identifier

def text : Identifier → Text
  | number n => Decimal.text n
  | name s _ => s

def ofText? (s : Text) : Option Identifier :=
  if IsCanonical s then some (.number (Decimal.value s))
  else if h : IsName s then some (.name s h) else none

theorem ofText?_text (i : Identifier) : ofText? i.text = some i := by
  cases i with
  | number n => rw [text, ofText?, if_pos (Decimal.isCanonical_text n), Decimal.value_text]
  | name s h => rw [text, ofText?, if_neg h.not_canonical, dif_pos h]

/-- No code point of an identifier is a dot, or is below the hyphen. -/
theorem val_of_mem_text (i : Identifier) : ∀ c ∈ i.text, 45 ≤ c.val ∧ c.val ≠ 46 := by
  intro c hc
  cases i with
  | number n =>
      have hd := CodePoint.isDigit_iff.1 (Decimal.isDigit_text n c hc)
      omega
  | name s h =>
      rcases h.1 c hc with hd | hupper | hlower | rfl
      · rw [CodePoint.isDigit_iff] at hd
        omega
      · omega
      · omega
      · decide

end Identifier

namespace Version

variable {a b c : ℕ}

def numbersText (a b c : ℕ) : Text :=
  Text.join "." [Decimal.text a, Decimal.text b, Decimal.text c]

def identifiersText (p : List Identifier) : Text := Text.join "." (p.map Identifier.text)

def text (v : Version) : Text :=
  if v.prerelease = [] then numbersText v.major v.minor v.patch
  else numbersText v.major v.minor v.patch ++ "-" ++ identifiersText v.prerelease

def number? (s : Text) : Option ℕ := if IsCanonical s then some (Decimal.value s) else none

def ofNumbers? (s : Text) (p : List Identifier) : Option Version :=
  match (Text.splitOn '.' s).mapM number? with
  | some [a, b, c] => some ⟨a, b, c, p⟩
  | _ => none

/-- The version of that text, which has no build metadata. -/
def ofText? (s : Text) : Option Version :=
  match Text.cutAt? '-' s with
  | none => ofNumbers? s []
  | some (numbers, identifiers) =>
    (Text.splitOn '.' identifiers).mapM Identifier.ofText? >>= ofNumbers? numbers

theorem number?_text (n : ℕ) : number? (Decimal.text n) = some n := by
  rw [number?, if_pos (Decimal.isCanonical_text n), Decimal.value_text]

theorem notMem_text {x : CodePoint} (hx : x.isDigit = false) (n : ℕ) : x ∉ Decimal.text n := by
  intro h
  rw [Decimal.isDigit_text n x h] at hx
  cases hx

theorem ofNumbers?_text (a b c : ℕ) (p : List Identifier) :
    ofNumbers? (numbersText a b c) p = some ⟨a, b, c, p⟩ := by
  have hdot (n : ℕ) : CodePoint.ofChar '.' ∉ Decimal.text n := notMem_text rfl n
  have hsplit : Text.splitOn '.' (numbersText a b c) =
      [Decimal.text a, Decimal.text b, Decimal.text c] :=
    Text.splitOn_join (List.cons_ne_nil _ _) (by simp [hdot])
  have hnumbers : [Decimal.text a, Decimal.text b, Decimal.text c].mapM number? =
      some [a, b, c] := by
    simp [number?_text]
  rw [ofNumbers?, hsplit, hnumbers]

theorem val_of_mem_numbersText : ∀ x ∈ numbersText a b c, 45 < x.val := by
  have hdigits (n : ℕ) : ∀ x ∈ Decimal.text n, 45 < x.val := by
    intro x hx
    have hd := CodePoint.isDigit_iff.1 (Decimal.isDigit_text n x hx)
    omega
  refine Text.forall_mem_join (by decide) ?_
  rw [List.forall_mem_cons, List.forall_mem_cons, List.forall_mem_singleton]
  exact ⟨hdigits a, hdigits b, hdigits c⟩

theorem hyphen_notMem_numbersText : CodePoint.ofChar '-' ∉ numbersText a b c := by
  intro h
  exact absurd (val_of_mem_numbersText _ h) (by decide)

theorem splitOn_identifiersText {p : List Identifier} (h : p ≠ []) :
    Text.splitOn '.' (identifiersText p) = p.map Identifier.text := by
  refine Text.splitOn_join (fun hp => h (List.map_eq_nil_iff.1 hp)) ?_
  rw [List.forall_mem_map]
  intro i _ hdot
  exact absurd rfl (i.val_of_mem_text _ hdot).2

theorem mapM_identifiers (p : List Identifier) :
    (p.map Identifier.text).mapM Identifier.ofText? = some p := by
  rw [Result.mapM_eq_some_iff]
  exact List.forall₂_map_left_iff.2 (List.forall₂_same.2 fun i _ => i.ofText?_text)

theorem ofText?_text (v : Version) : ofText? v.text = some v := by
  by_cases h : v.prerelease = []
  · rw [text, if_pos h, ofText?, Text.cutAt?_of_notMem hyphen_notMem_numbersText]
    simp only [ofNumbers?_text]
    rw [← h]
  · have hcut : Text.cutAt? '-' v.text =
        some (numbersText v.major v.minor v.patch, identifiersText v.prerelease) := by
      rw [text, if_neg h, List.append_assoc]
      exact Text.cutAt?_append hyphen_notMem_numbersText _
    simp only [ofText?, hcut, splitOn_identifiersText h, mapM_identifiers]
    exact ofNumbers?_text ..

/-- No code point of a version is below the hyphen. -/
theorem val_of_mem_text (v : Version) : ∀ x ∈ v.text, 45 ≤ x.val := by
  have hnumbers : ∀ x ∈ numbersText v.major v.minor v.patch, 45 ≤ x.val :=
    fun x hx => Nat.le_of_lt (val_of_mem_numbersText x hx)
  rw [text]
  split
  · exact hnumbers
  · rw [List.forall_mem_append, List.forall_mem_append]
    refine ⟨⟨hnumbers, by decide⟩, Text.forall_mem_join (by decide) ?_⟩
    rw [List.forall_mem_map]
    intro i _ x hx
    exact (i.val_of_mem_text x hx).1

end Version

namespace Interval

def text (r : Interval) : Text := ">=" ++ r.low.text ++ " <" ++ r.high.text

def ofText? (s : Text) : Option Interval := do
  let (low, high) ← Text.cutAt? ' ' s
  let low ← Version.ofText? (← List.isPrefixOf? ">=" low)
  let high ← Version.ofText? (← List.isPrefixOf? "<" high)
  return ⟨low, high⟩

theorem ofText?_text (r : Interval) : ofText? r.text = some r := by
  have hspace : CodePoint.ofChar ' ' ∉ (">=" ++ r.low.text : Text) := by
    rw [List.mem_append, not_or]
    exact ⟨by decide, fun h => absurd (r.low.val_of_mem_text _ h) (by decide)⟩
  have hcut : Text.cutAt? ' ' r.text = some (">=" ++ r.low.text, "<" ++ r.high.text) := by
    rw [text, List.append_assoc]
    exact Text.cutAt?_append hspace _
  have hlow : List.isPrefixOf? (">=" : Text) (">=" ++ r.low.text) = some r.low.text :=
    List.isPrefixOf?_eq_some_iff_append_eq.2 rfl
  have hhigh : List.isPrefixOf? ("<" : Text) ("<" ++ r.high.text) = some r.high.text :=
    List.isPrefixOf?_eq_some_iff_append_eq.2 rfl
  simp only [ofText?, hcut, Option.bind_eq_bind, Option.bind_some, hlow, hhigh,
    Version.ofText?_text]
  rfl

end Interval

end CrateIndex
