import CrateIndex.Json.Reader
import CrateIndex.Proofs.Result
import CrateIndex.Text.Quoted

/-!
# Reading JSON step by step

What the reader does with the next piece of a string, with a member and with the braces of an
object, when what follows is known.
-/

namespace CrateIndex.Json.Reader

variable {a b c d e p : CodePoint} {s t rest : Text}

@[simp] theorem mapResult_ok {α β : Type} (f : α → β) (a : α) (s : Text) :
    mapResult f (.ok (a, s)) = .ok (f a, s) := rfl

theorem skipSpace_cons (h : isSpace c = false) : skipSpace (c :: s) = c :: s := by
  simp [skipSpace, h]

theorem skipSpace_append (h : ∀ c ∈ s, isSpace c = true) : skipSpace (s ++ t) = skipSpace t :=
  List.dropWhile_append_of_pos h

/-! ## Strings -/

theorem units_simple (h : simpleEscape? e = some c) :
    units ('\\' :: e :: s) = mapResult (⟨false, c⟩ :: ·) (units s) := by
  have he : e ≠ 'u' := by
    rintro rfl
    have hu : simpleEscape? 'u' = none := by decide
    simp [hu] at h
  rw [units.eq_def]
  simp [he, h]

theorem units_numeric (h : unit? a b c d = some p) (hs : s ≠ []) :
    units ('\\' :: 'u' :: a :: b :: c :: d :: s) = mapResult (⟨true, p⟩ :: ·) (units s) := by
  obtain ⟨x, s, rfl⟩ := List.exists_cons_of_ne_nil hs
  rw [units.eq_def]
  simp [h]

theorem units_plain (h : c ≠ '"') (h' : c ≠ '\\') (hc : 0x20 ≤ c.val) :
    units (c :: s) = mapResult (⟨false, c⟩ :: ·) (units s) := by
  rw [units.eq_def]
  simp [h, h', Nat.not_lt.2 hc]

theorem units_quote (s : Text) : units ('"' :: s) = .ok ([], s) := by
  rw [units.eq_def]
  simp

theorem hexValue?_hexDigit : ∀ n < 16, hexValue? (hexDigit n) = some n := by decide

theorem unit?_hexDigit {n : Nat} (h : n < 0x10000) :
    unit? (hexDigit (n / 16 / 16 / 16 % 16)) (hexDigit (n / 16 / 16 % 16)) (hexDigit (n / 16 % 16))
      (hexDigit (n % 16)) = some (.ofNat n) := by
  have hv (k : Nat) : hexValue? (hexDigit (k % 16)) = some (k % 16) :=
    hexValue?_hexDigit _ (Nat.mod_lt k (by decide))
  have hn : ((n / 16 / 16 / 16 % 16 * 16 + n / 16 / 16 % 16) * 16 + n / 16 % 16) * 16 + n % 16 =
      n := by
    omega
  simp [unit?, hv, hn]

/-- Without a numeric escape for the first half of a pair, no two units stand for one code point. -/
theorem textOfUnits_eq_map {us : List Unit}
    (h : ∀ u ∈ us, u.numeric = true → u.point.isHighSurrogate = false) :
    textOfUnits us = us.map (·.point) := by
  fun_induction textOfUnits us with
  | case1 => rfl
  | case2 u => rfl
  | case3 u v us hpair =>
      simp only [Bool.and_eq_true] at hpair
      obtain ⟨⟨⟨hu, -⟩, hhigh⟩, -⟩ := hpair
      simp [h u (by simp) hu] at hhigh
  | case4 u v us hpair ih =>
      rw [List.map_cons, ih fun w hw => h w (List.mem_cons_of_mem u hw)]

/-! ## Objects -/

variable {value : Text → Except ReadError (Json × Text)} {fuel depth : Nat} {name : Text} {v : Json}
  {ms : List (Text × Json)}

/-- The last member: its value, and a brace. -/
theorem members_last {u : Text} (hname : string s = .ok (name, ':' :: t))
    (hvalue : value (skipSpace t) = .ok (v, u)) (hend : skipSpace u = .ofChar '\x7d' :: rest) :
    members value (fuel + 1) ('"' :: s) = .ok ([(name, v)], rest) := by
  have hcolon : skipSpace (CodePoint.ofChar ':' :: t) = .ofChar ':' :: t := skipSpace_cons rfl
  simp [members, hname, hcolon, hvalue, hend]
  rfl

/-- A member before another: its value, a comma, and the others. -/
theorem members_next {u w : Text} (hname : string s = .ok (name, ':' :: t))
    (hvalue : value (skipSpace t) = .ok (v, u)) (hend : skipSpace u = .ofChar ',' :: w)
    (hms : members value fuel (skipSpace w) = .ok (ms, rest)) :
    members value (fuel + 1) ('"' :: s) = .ok ((name, v) :: ms, rest) := by
  have hcolon : skipSpace (CodePoint.ofChar ':' :: t) = .ofChar ':' :: t := skipSpace_cons rfl
  simp [members, hname, hcolon, hvalue, hend, hms]

theorem objectBody_members (h : skipSpace s = .ofChar '"' :: t)
    (hms : members value (t.length + 1) ('"' :: t) = .ok (ms, rest)) :
    objectBody value s = .ok (.object (OrderedMap.ofList ms).entries, rest) := by
  simp [objectBody, h, hms]

theorem value_quote : Reader.value depth ('"' :: s) = mapResult .string (string s) := by
  rw [Reader.value.eq_def]
  simp

theorem value_brace :
    Reader.value (depth + 1) ('\x7b' :: s) = objectBody (Reader.value depth) s := by
  rw [Reader.value.eq_def]
  simp

end CrateIndex.Json.Reader
