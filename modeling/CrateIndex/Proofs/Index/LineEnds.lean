import CrateIndex.Proofs.Index.Contents
import CrateIndex.Proofs.Text.Lines
import CrateIndex.Proofs.Text.Utf8

/-!
# Files and their lines

A file is read as the lines that it was written with, whichever line end was used and whether one
stands behind the last line. Where lines are blank, and how many of them, does not matter to a
registry.
-/

namespace CrateIndex

open Text

theorem Text.LineEnd.Writes.isScalar {e : LineEnd} {lines : List Text} {s : Text}
    (h : e.Writes lines s) (hl : ∀ l ∈ lines, l.IsScalar) : s.IsScalar := by
  have hend : e.text.IsScalar := by cases e <;> decide
  rcases h with rfl | rfl
  · exact forall_mem_join hend hl
  · exact forall_mem_ended hend hl

namespace Index

variable {depth : Nat} {source : Option Text} {n : Nat} {s path : Text} {lines lines' : List Text}
  {reg : Registry} {bytes : List UInt8}

/-! ## Blank lines -/

theorem readLines_append_blank (h : s.isBlank = true) :
    readLines depth source n reg (lines ++ [s]) = readLines depth source n reg lines := by
  induction lines generalizing n reg with
  | nil =>
      have hs : readLine depth source n reg s = pure reg := if_pos h
      rw [List.nil_append, readLines, readLines, hs]
      rfl
  | cons t lines ih => simp only [List.cons_append, readLines, ih]

theorem ofLines_append_blank (source : Option Text) (lines : List Text) (h : s.isBlank = true) :
    ofLines depth source (lines ++ [s]) = ofLines depth source lines := by
  rw [ofLines, readLines_append_blank h, ofLines]

theorem content?_of_blank (h : s.isBlank = true) : content? depth s = some none := by
  rw [content?, contentOf, if_pos h]
  rfl

/-- Lines give the same without the blank ones among them, wherever they start. -/
theorem toOption_readLines_filter (source : Option Text) (n m : Nat) (reg : Registry)
    (lines : List Text) :
    (readLines depth source n reg (lines.filter fun s => !s.isBlank)).result.toOption =
      (readLines depth source m reg lines).result.toOption := by
  induction lines generalizing n m reg with
  | nil => rfl
  | cons s lines ih =>
      rw [result_readLines_cons, Result.toOption_bind, toOption_contentOf]
      cases hb : s.isBlank with
      | true =>
          rw [List.filter_cons_of_neg (by simp [hb]), content?_of_blank hb]
          exact ih n (m + 1) reg
      | false =>
          rw [List.filter_cons_of_pos (by simp [hb]), result_readLines_cons, Result.toOption_bind,
            toOption_contentOf]
          simp only [ih (n + 1) (m + 1)]

theorem ofLines_of_filter_eq (source : Option Text)
    (h : (lines'.filter fun s => !s.isBlank) = lines.filter fun s => !s.isBlank)
    (hr : (ofLines depth source lines).result = .ok reg) :
    (ofLines depth source lines').result = .ok reg := by
  rw [← Result.toOption_eq_some, result_ofLines, ← toOption_readLines_filter source 1] at hr ⊢
  rw [h, hr]

/-! ## Files -/

theorem ofFile_of_decode (path : Text) (h : Utf8.decode bytes = .ok s) :
    ofFile depth path (.ok bytes) = ofLines depth (some path) s.lines := by
  rw [ofFile, fileText, h]
  rfl

/-- Lines written with one line end throughout are read as they were, with a line end behind the
last or without. Every file is read as the lines that its line feeds and carriage returns make,
and as no others. To a registry blank lines do not matter. -/
theorem ofFile_lineEnds (depth : Nat) :
    (∀ (path : Text) (lines : List Text) (e : LineEnd) (s : Text),
      (∀ l ∈ lines, l.IsLine) → (∀ l ∈ lines, l.IsScalar) → e.Writes lines s →
      ∃ bytes, Utf8.encode s = .ok bytes ∧
        ofFile depth path (.ok bytes) = ofLines depth (some path) lines) ∧
    (∀ (path : Text) (bytes : List UInt8) (s : Text), Utf8.decode bytes = .ok s →
      (∃ lines, HasLines s lines) ∧
        ∀ lines, HasLines s lines →
          ofFile depth path (.ok bytes) = ofLines depth (some path) lines) ∧
    ∀ (source : Option Text) (lines lines' : List Text) (reg : Registry),
      (lines'.filter fun s => !s.isBlank) = (lines.filter fun s => !s.isBlank) →
      (ofLines depth source lines).result = .ok reg →
      (ofLines depth source lines').result = .ok reg := by
  refine ⟨?_, ?_, ?_⟩
  · intro path lines e s hlines hscalar hs
    have hscalar := hs.isScalar hscalar
    refine ⟨_, Utf8.encode_of_isScalar hscalar, ?_⟩
    rw [ofFile_of_decode path (Utf8.decode_of_isScalar hscalar)]
    rcases hs.lines_eq hlines with h | h
    · rw [h]
    · rw [h, ofLines_append_blank (some path) lines rfl]
  · intro path bytes s h
    refine ⟨exists_hasLines s, fun lines hl => ?_⟩
    rw [ofFile_of_decode path h, hl.lines_eq]
  · intro source lines lines' reg h hr
    exact ofLines_of_filter_eq source h hr

/-- A line separator on a line of its own, vertical tab and form feed around a carriage return, and
a next-line character for a blank line. -/
theorem ofFile_lineEnds_separators :
    (∃ bytes, Utf8.encode (ended "\r\n" [bareLine "a" "1", "\u2028"]) = .ok bytes ∧
      ofFile 990 "f" (.ok bytes) = ofLines 990 (some "f") [bareLine "a" "1", "\u2028"]) ∧
    ofFile 990 "f" (.ok [11, 13, 12]) = ofLines 990 (some "f") ["\x0b", "\x0c"] ∧
    (ofLines 990 none ["\u0085", bareLine "a" "1", " "]).result =
      .ok (.ofList [("test/a", .ofList [("1", ∅)])]) := by
  have hlines : HasLines "\x0b\r\x0c" ["\x0b", "\x0c"] := hasLines_iff.2 (by decide +kernel)
  have hbare : (ofLines 990 none [bareLine "a" "1"]).result =
      .ok (.ofList [("test/a", .ofList [("1", ∅)])]) :=
    Result.toOption_eq_some.1 (by decide +kernel)
  refine ⟨?_, ?_, ?_⟩
  · exact (ofFile_lineEnds 990).1 "f" [bareLine "a" "1", "\u2028"] .both _ (by decide +kernel)
      (by decide +kernel) (.inr rfl)
  · exact ((ofFile_lineEnds 990).2.1 "f" [11, 13, 12] "\x0b\r\x0c" (by cbv)).2 _ hlines
  · exact (ofFile_lineEnds 990).2.2 none [bareLine "a" "1"] _ _ (by decide +kernel) hbare

end Index

end CrateIndex
