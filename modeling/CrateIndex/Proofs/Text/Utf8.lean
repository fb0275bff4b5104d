import CrateIndex.Text.Utf8
import Mathlib.Data.List.TakeWhile

/-!
# UTF-8 reads back

The bytes of a code point that is no surrogate are read as that code point, whatever follows them.
So a text without surrogates has bytes, and they are read as the text.
-/

namespace CrateIndex

theorem toNat_toUInt8 {n : Nat} (h : n < 256) : n.toUInt8.toNat = n := by
  simp [Nat.mod_eq_of_lt h]

namespace Utf8

variable {a b c d : UInt8}

/-! ## One code point from its bytes -/

theorem isTail_iff : isTail b = true ↔ 0x80 ≤ b.toNat ∧ b.toNat ≤ 0xBF := by
  simp [isTail, UInt8.le_iff_toNat_le]

theorem isSecond_iff : isSecond a b = true ↔ isTail b = true ∧
    (a.toNat = 0xE0 → 0xA0 ≤ b.toNat) ∧ (a.toNat = 0xED → b.toNat ≤ 0x9F) ∧
    (a.toNat = 0xF0 → 0x90 ≤ b.toNat) ∧ (a.toNat = 0xF4 → b.toNat ≤ 0x8F) := by
  have ha (k : UInt8) : a = k ↔ a.toNat = k.toNat := UInt8.toNat_inj.symm
  simp only [isSecond, ha, UInt8.le_iff_toNat_le, UInt8.reduceToNat, Bool.and_eq_true]
  refine and_congr_right fun _ => ?_
  -- The four leads that bound the second byte exclude one another.
  grind

theorem decodeFrom_one (position : Nat) (rest : List UInt8) (ha : a.toNat < 0x80) :
    decodeFrom position (a :: rest) =
      (.ofNat a.toNat :: ·) <$> decodeFrom (position + 1) rest := by
  have h : a < 0x80 := UInt8.lt_iff_toNat_lt.2 ha
  rw [decodeFrom.eq_def]
  simp [h]

/-- What the first of several bytes is not: a code point of its own, or the start of none. -/
theorem not_lt_of_lead (ha : 0xC2 ≤ a.toNat) (ha' : a.toNat ≤ 0xF4) :
    ¬ a < 0x80 ∧ ¬ a < 0xC2 ∧ ¬ 0xF4 < a := by
  simp only [UInt8.lt_iff_toNat_lt, UInt8.reduceToNat]
  omega

theorem decodeFrom_two (position : Nat) (rest : List UInt8) (ha : 0xC2 ≤ a.toNat)
    (ha' : a.toNat < 0xE0) (hb : isSecond a b = true) :
    decodeFrom position (a :: b :: rest) =
      (.ofNat ((a.toNat - 0xC0) * 64 + tailBits b) :: ·) <$> decodeFrom (position + 2) rest := by
  obtain ⟨h1, h2, h3⟩ := not_lt_of_lead ha (by omega)
  have h4 : a < 0xE0 := UInt8.lt_iff_toNat_lt.2 ha'
  rw [decodeFrom.eq_def]
  simp [h1, h2, h3, h4, hb]

theorem decodeFrom_three (position : Nat) (rest : List UInt8) (ha : 0xE0 ≤ a.toNat)
    (ha' : a.toNat < 0xF0) (hb : isSecond a b = true) (hc : isTail c = true) :
    decodeFrom position (a :: b :: c :: rest) =
      (.ofNat ((a.toNat - 0xE0) * 4096 + tailBits b * 64 + tailBits c) :: ·) <$>
        decodeFrom (position + 3) rest := by
  obtain ⟨h1, h2, h3⟩ := not_lt_of_lead (a := a) (by omega) (by omega)
  have h4 : ¬ a < 0xE0 := fun h => Nat.not_lt.2 ha (UInt8.lt_iff_toNat_lt.1 h)
  have h5 : a < 0xF0 := UInt8.lt_iff_toNat_lt.2 ha'
  rw [decodeFrom.eq_def]
  simp [h1, h2, h3, h4, h5, hb, hc]

theorem decodeFrom_four (position : Nat) (rest : List UInt8) (ha : 0xF0 ≤ a.toNat)
    (ha' : a.toNat ≤ 0xF4) (hb : isSecond a b = true) (hc : isTail c = true)
    (hd : isTail d = true) :
    decodeFrom position (a :: b :: c :: d :: rest) =
      (.ofNat ((a.toNat - 0xF0) * 262144 + tailBits b * 4096 + tailBits c * 64 + tailBits d) :: ·)
        <$> decodeFrom (position + 4) rest := by
  obtain ⟨h1, h2, h3⟩ := not_lt_of_lead (a := a) (by omega) ha'
  have h5 : ¬ a < 0xF0 := fun h => Nat.not_lt.2 ha (UInt8.lt_iff_toNat_lt.1 h)
  have h4 : ¬ a < 0xE0 := fun h => h5 (UInt8.lt_trans h (by decide))
  rw [decodeFrom.eq_def]
  simp [h1, h2, h3, h4, h5, hb, hc, hd]

theorem toNat_tail (n : Nat) : (0x80 + n % 64).toUInt8.toNat = 0x80 + n % 64 :=
  toNat_toUInt8 (by omega)

theorem isTail_tail (n : Nat) : isTail (0x80 + n % 64).toUInt8 = true := by
  have h := toNat_tail n
  exact isTail_iff.2 (by omega)

theorem tailBits_tail (n : Nat) : tailBits (0x80 + n % 64).toUInt8 = n % 64 := by
  have h := toNat_tail n
  unfold tailBits
  omega

/-- The bytes of a code point are read as the code point. -/
theorem decodeFrom_utf8 {x : CodePoint} (position : Nat) (rest : List UInt8)
    (hx : x.isSurrogate = false) :
    decodeFrom position (x.utf8 ++ rest) =
      (x :: ·) <$> decodeFrom (position + x.utf8.length) rest := by
  obtain ⟨n, hn⟩ := x
  have hpoint {m : Nat} (h : m = n) : CodePoint.ofNat m = ⟨n, hn⟩ :=
    CodePoint.ext_val (by rw [h, CodePoint.val_ofNat hn])
  simp only [CodePoint.isSurrogate, Bool.and_eq_false_iff, decide_eq_false_iff_not] at hx
  unfold CodePoint.utf8
  simp only
  split
  · have ha : n.toUInt8.toNat = n := toNat_toUInt8 (by omega)
    rw [List.singleton_append, decodeFrom_one position rest (by omega), ha, hpoint rfl]
    rfl
  split
  · have ha : (0xC0 + n / 64).toUInt8.toNat = 0xC0 + n / 64 := toNat_toUInt8 (by omega)
    have hs : isSecond (0xC0 + n / 64).toUInt8 (0x80 + n % 64).toUInt8 = true :=
      isSecond_iff.2 ⟨isTail_tail n, by omega⟩
    have hd := decodeFrom_two position rest (by omega) (by omega) hs
    rw [tailBits_tail, hpoint (by omega)] at hd
    exact hd
  split
  · have ha : (0xE0 + n / 4096).toUInt8.toNat = 0xE0 + n / 4096 := toNat_toUInt8 (by omega)
    have hb := toNat_tail (n / 64)
    have hs : isSecond (0xE0 + n / 4096).toUInt8 (0x80 + n / 64 % 64).toUInt8 = true :=
      isSecond_iff.2 ⟨isTail_tail (n / 64), by omega⟩
    have hd := decodeFrom_three position rest (by omega) (by omega) hs
      (isTail_tail n)
    rw [tailBits_tail, tailBits_tail, hpoint (by omega)] at hd
    exact hd
  · have ha : (0xF0 + n / 262144).toUInt8.toNat = 0xF0 + n / 262144 := toNat_toUInt8 (by omega)
    have hb := toNat_tail (n / 4096)
    have hs : isSecond (0xF0 + n / 262144).toUInt8 (0x80 + n / 4096 % 64).toUInt8 = true :=
      isSecond_iff.2 ⟨isTail_tail (n / 4096), by omega⟩
    have hd := decodeFrom_four position rest (by omega) (by omega) hs
      (isTail_tail (n / 64)) (isTail_tail n)
    rw [tailBits_tail, tailBits_tail, tailBits_tail, hpoint (by omega)] at hd
    exact hd

end Utf8

/-! ## Texts -/

/-- The text holds no surrogate. -/
def Text.IsScalar (s : Text) : Prop := ∀ x ∈ s, x.isSurrogate = false

instance : DecidablePred Text.IsScalar := fun s =>
  inferInstanceAs (Decidable (∀ x ∈ s, x.isSurrogate = false))

theorem Text.isScalar_append {s t : Text} : (s ++ t).IsScalar ↔ s.IsScalar ∧ t.IsScalar :=
  List.forall_mem_append

namespace Utf8

variable {s : Text}

theorem surrogateRun?_of_isScalar (hs : s.IsScalar) : surrogateRun? s = none := by
  have h : s.dropWhile (fun x => !x.isSurrogate) = [] :=
    List.dropWhile_eq_nil_iff.2 fun x hx => by simp [hs x hx]
  rw [surrogateRun?, h]

theorem encode_of_isScalar (hs : s.IsScalar) : encode s = .ok (s.flatMap CodePoint.utf8) := by
  rw [encode, surrogateRun?_of_isScalar hs]

theorem decodeFrom_flatMap (position : Nat) (hs : s.IsScalar) :
    decodeFrom position (s.flatMap CodePoint.utf8) = .ok s := by
  induction s generalizing position with
  | nil => rw [List.flatMap_nil, decodeFrom.eq_def]
  | cons x s ih =>
      obtain ⟨hx, hs⟩ := List.forall_mem_cons.1 hs
      rw [List.flatMap_cons, decodeFrom_utf8 position _ hx, ih _ hs]
      rfl

theorem decode_of_isScalar (hs : s.IsScalar) : decode (s.flatMap CodePoint.utf8) = .ok s :=
  decodeFrom_flatMap 0 hs

end Utf8

end CrateIndex
