import CrateIndex.Proofs.Text.Splitting
import CrateIndex.Text.Lines

/-!
# Texts written line by line

A text is its lines with a line end between each two, and no other lines make it. So lines are read
as they were written, whichever line end was used.
-/

namespace CrateIndex.Text

/-- The ways in which a line can end. -/
inductive LineEnd where
  | lineFeed
  | carriageReturn
  /-- A carriage return with a line feed behind it. -/
  | both

def LineEnd.text : LineEnd → Text
  | lineFeed => "\n"
  | carriageReturn => "\r"
  | both => "\r\n"

/-- The text has no line end in it. -/
def IsLine (l : Text) : Prop := CodePoint.ofChar '\r' ∉ l ∧ CodePoint.ofChar '\n' ∉ l

instance : DecidablePred IsLine := fun l =>
  inferInstanceAs (Decidable (CodePoint.ofChar '\r' ∉ l ∧ CodePoint.ofChar '\n' ∉ l))

/-- The text is those lines, with a line end between each two. A carriage return and a line feed
behind it are one line end. -/
inductive HasLines : Text → List Text → Prop
  | last {l : Text} (hl : IsLine l) : HasLines l [l]
  | next {l s : Text} {ls : List Text} (e : LineEnd) (hl : IsLine l)
      (he : e = .carriageReturn → s.head? ≠ some (CodePoint.ofChar '\n')) (hs : HasLines s ls) :
      HasLines (l ++ (e.text ++ s)) (l :: ls)

variable {l s : Text} {ls : List Text}

/-! ## The lines of a text -/

theorem isLine_nil : IsLine [] := by decide

theorem isLine_cons {c : CodePoint} (hr : c ≠ CodePoint.ofChar '\r')
    (hn : c ≠ CodePoint.ofChar '\n') (hl : IsLine l) : IsLine (c :: l) := by
  simp [IsLine, hr.symm, hn.symm, hl.1, hl.2]

theorem unifyLineEnds_append (h : CodePoint.ofChar '\r' ∉ l) (s : Text) :
    unifyLineEnds (l ++ s) = l ++ unifyLineEnds s := by
  induction l with
  | nil => rfl
  | cons c l ih =>
      rw [List.mem_cons, not_or] at h
      rw [List.cons_append, unifyLineEnds.eq_def]
      simp only [Ne.symm h.1, if_false, ih h.2, List.cons_append]

theorem unifyLineEnds_end (e : LineEnd)
    (he : e = .carriageReturn → s.head? ≠ some (CodePoint.ofChar '\n')) :
    unifyLineEnds (e.text ++ s) = CodePoint.ofChar '\n' :: unifyLineEnds s := by
  cases e with
  | lineFeed => exact unifyLineEnds_append (l := ("\n" : Text)) (by decide) s
  | both => simp [LineEnd.text, ofString, unifyLineEnds]
  | carriageReturn =>
      cases s with
      | nil => rfl
      | cons c s =>
          have hc : c ≠ CodePoint.ofChar '\n' := by simpa using he rfl
          simp [LineEnd.text, ofString, unifyLineEnds, hc]

theorem lines_of_isLine (hl : IsLine l) : lines l = [l] := by
  have hunify := unifyLineEnds_append hl.1 []
  rw [List.append_nil] at hunify
  rw [lines, hunify, unifyLineEnds, List.append_nil, splitOn_of_notMem hl.2]

theorem lines_append (e : LineEnd) (hl : IsLine l)
    (he : e = .carriageReturn → s.head? ≠ some (CodePoint.ofChar '\n')) :
    lines (l ++ (e.text ++ s)) = l :: lines s := by
  rw [lines, unifyLineEnds_append hl.1, unifyLineEnds_end e he, splitOn_append_cons,
    splitOn_of_notMem hl.2]
  rfl

theorem HasLines.lines_eq (h : HasLines s ls) : s.lines = ls := by
  induction h with
  | last hl => exact lines_of_isLine hl
  | next e hl he _ ih => rw [lines_append e hl he, ih]

theorem HasLines.cons {c : CodePoint} (hr : c ≠ CodePoint.ofChar '\r')
    (hn : c ≠ CodePoint.ofChar '\n') (h : HasLines s ls) :
    ∃ ls, HasLines (c :: s) ls := by
  cases h with
  | last hl => exact ⟨_, .last (isLine_cons hr hn hl)⟩
  | next e hl he hs => exact ⟨_, .next e (isLine_cons hr hn hl) he hs⟩

theorem exists_hasLines (s : Text) : ∃ ls, HasLines s ls := by
  fun_induction unifyLineEnds s with
  | case1 => exact ⟨_, .last isLine_nil⟩
  | case2 => exact ⟨_, .next .carriageReturn isLine_nil (by simp) (.last isLine_nil)⟩
  | case3 rest ih =>
      obtain ⟨ls, h⟩ := ih
      exact ⟨_, .next .both isLine_nil (by simp) h⟩
  | case4 d rest hd ih =>
      obtain ⟨ls, h⟩ := ih
      exact ⟨_, .next .carriageReturn isLine_nil (by simpa using hd) h⟩
  | case5 c s hc ih =>
      obtain ⟨ls, h⟩ := ih
      by_cases hn : c = CodePoint.ofChar '\n'
      · subst hn
        exact ⟨_, .next .lineFeed isLine_nil (by simp) h⟩
      · exact h.cons hc hn

/-- A text has its lines and no others. -/
theorem hasLines_iff : HasLines s ls ↔ s.lines = ls := by
  refine ⟨HasLines.lines_eq, ?_⟩
  rintro rfl
  obtain ⟨ls, h⟩ := exists_hasLines s
  rwa [h.lines_eq]

/-! ## One line end throughout -/

theorem hasLines_join (e : LineEnd) (hne : ls ≠ []) (hls : ∀ l ∈ ls, IsLine l) :
    HasLines (join e.text ls) ls := by
  induction ls with
  | nil => exact absurd rfl hne
  | cons l ls ih =>
      obtain ⟨hl, hls⟩ := List.forall_mem_cons.1 hls
      by_cases hmore : ls = []
      · subst hmore
        rw [join, List.intercalate_singleton]
        exact .last hl
      · rw [join_cons _ _ hmore]
        refine .next e hl ?_ (ih hmore hls)
        rintro rfl hhead
        -- Only carriage returns stand between lines that have no line feeds.
        have hnone : ∀ x ∈ join LineEnd.carriageReturn.text ls, x ≠ CodePoint.ofChar '\n' :=
          forall_mem_join (by decide) fun l hl x hx he => (hls l hl).2 (he ▸ hx)
        exact hnone _ (List.mem_of_head? hhead) rfl

/-- The text is those lines with that line end between each two and, it may be, behind the last. -/
def LineEnd.Writes (e : LineEnd) (ls : List Text) (s : Text) : Prop :=
  s = join e.text ls ∨ s = ended e.text ls

/-- Behind the last line end there is one more line, which is empty. -/
theorem LineEnd.Writes.lines_eq {e : LineEnd} (h : e.Writes ls s) (hls : ∀ l ∈ ls, IsLine l) :
    s.lines = ls ∨ s.lines = ls ++ [([] : Text)] := by
  rcases h with rfl | rfl
  · by_cases hne : ls = []
    · subst hne
      exact .inr rfl
    · exact .inl (hasLines_join e hne hls).lines_eq
  · rw [← join_append_empty]
    refine .inr (hasLines_join e (by simp) ?_).lines_eq
    rw [List.forall_mem_append, List.forall_mem_singleton]
    exact ⟨hls, isLine_nil⟩

end CrateIndex.Text
