import CrateIndex.CommandLine.Run
import CrateIndex.Proofs.Index.Files
import CrateIndex.Proofs.Index.Lines

/-!
# Lines and files at fault

A line can be read, or is refused for what is written in it, or goes beyond what can be read at all.
A file that can be opened and decoded is what the first of its lines that cannot be read makes of
it. Each of these has its exit code, or has none.
-/

namespace CrateIndex

open Result

/-- The wildcard has no range; the other failures are those of a range that cannot be written. -/
def Wildcard.Failure.IsDefect : Wildcard.Failure → Prop
  | .defect _ _ => True
  | .unwritable _ => False

namespace Index

variable {depth : Nat} {source : Option Text} {n : Nat} {s : Text} {lines : List Text}
  {reg : Registry} {r : Record} {P : Failure → Prop}

/-! ## Lines -/

/-- The line is not blank, and its text is the record. -/
def HoldsRecord (depth : Nat) (s : Text) (r : Record) : Prop :=
  s.isBlank = false ∧ ∃ v, Json.read depth s = .ok v ∧ Record.ofJson v = .ok r

/-- The line is blank, or a record whose needed dependencies have ranges. -/
inductive Readable (depth : Nat) (s : Text) : Prop where
  | blank (h : s.isBlank = true)
  | record {r : Record} (hr : HoldsRecord depth s r) (h : ∀ d ∈ r.needed, d.HasRange)

/-- The line is no well-formed record, or the first of its needed dependencies without a range has
an invalid wildcard. -/
inductive Refused (depth : Nat) (s : Text) : Prop where
  | malformed {cause : Json.Malformed} (hb : s.isBlank = false)
      (h : Json.read depth s = .error (.malformed cause))
  | defective {v : Json} {cause : RecordDefect} (hb : s.isBlank = false)
      (hv : Json.read depth s = .ok v) (h : Record.ofJson v = .error cause)
  | wildcard {r : Record} (hr : HoldsRecord depth s r)
      (h : First Dependency.HasRange (Dependency.LacksRange Wildcard.Failure.IsDefect) r.needed)

/-- A number of the line has too many digits to be read, its containers are nested too deep, or the
upper bound of a wildcard has too many digits to be written. -/
inductive OverLimit (depth : Nat) (s : Text) : Prop where
  | tooLong {cause : Decimal.TooManyDigits} (hb : s.isBlank = false)
      (h : Json.read depth s = .error (.tooLong cause))
  | tooDeep {container : Json.Container} (hb : s.isBlank = false)
      (h : Json.read depth s = .error (.tooDeep container))
  | unwritable {r : Record} (hr : HoldsRecord depth s r)
      (h : First Dependency.HasRange
        (Dependency.LacksRange fun f => ¬ Wildcard.Failure.IsDefect f) r.needed)

theorem readRecord_of_holds (source : Option Text) (n : Nat) (h : HoldsRecord depth s r) :
    readRecord depth source n s = .ok r := by
  obtain ⟨-, v, hv, hr⟩ := h
  simp only [readRecord, hv, hr, mapError_ok]

theorem contentOf_of_holds (source : Option Text) (n : Nat) (h : HoldsRecord depth s r) :
    contentOf depth source n s =
      (fun ranges => some (r, ranges)) <$>
        r.ranges.result.mapError (wildcardFailure source n r) := by
  rw [contentOf, if_neg (by simp [h.1]), readRecord_of_holds source n h]
  rfl

theorem contentOf_succeeds (source : Option Text) (n : Nat) (h : Readable depth s) :
    Succeeds (contentOf depth source n s) := by
  cases h with
  | blank h => exact ⟨none, by rw [contentOf, if_pos h]⟩
  | record hr h =>
      obtain ⟨ranges, hm⟩ := Record.rangesFrom_succeeds ∅ h
      rw [contentOf_of_holds source n hr, Record.ranges, hm]
      exact ⟨_, rfl⟩

theorem contentOf_fails_of_read (source : Option Text) (n : Nat) (hb : s.isBlank = false)
    (h : Fails P (readRecord depth source n s)) : Fails P (contentOf depth source n s) := by
  rw [contentOf, if_neg (by simp [hb])]
  exact h.bind

theorem contentOf_fails_of_range (source : Option Text) (n : Nat) {Q : Wildcard.Failure → Prop}
    (hr : HoldsRecord depth s r) (h : First Dependency.HasRange (Dependency.LacksRange Q) r.needed)
    (hq : ∀ f, Q f → P (wildcardFailure source n r f)) :
    Fails P (contentOf depth source n s) := by
  obtain ⟨f, hf, hp⟩ := Record.rangesFrom_fails ∅ h
  rw [contentOf_of_holds source n hr, Record.ranges, hf]
  exact ⟨_, rfl, hq f hp⟩

theorem contentOf_fails_of_refused (source : Option Text) (n : Nat) (h : Refused depth s) :
    Fails (fun f => CommandLine.exitCode? f = some 2) (contentOf depth source n s) := by
  cases h with
  | malformed hb h =>
      refine contentOf_fails_of_read source n hb ?_
      simp only [readRecord, h]
      exact ⟨_, rfl, rfl⟩
  | defective hb hv h =>
      refine contentOf_fails_of_read source n hb ?_
      simp only [readRecord, hv, h]
      exact ⟨_, rfl, rfl⟩
  | wildcard hr h =>
      refine contentOf_fails_of_range source n hr h ?_
      intro f hf
      cases f with
      | defect expr cause => rfl
      | unwritable cause => exact hf.elim

theorem contentOf_fails_of_overLimit (source : Option Text) (n : Nat) (h : OverLimit depth s) :
    Fails (fun f => CommandLine.exitCode? f = none) (contentOf depth source n s) := by
  cases h with
  | tooLong hb h =>
      refine contentOf_fails_of_read source n hb ?_
      simp only [readRecord, h]
      exact ⟨_, rfl, rfl⟩
  | tooDeep hb h =>
      refine contentOf_fails_of_read source n hb ?_
      simp only [readRecord, h]
      exact ⟨_, rfl, rfl⟩
  | unwritable hr h =>
      refine contentOf_fails_of_range source n hr h ?_
      intro f hf
      cases f with
      | defect expr cause => exact absurd trivial hf
      | unwritable cause => rfl

theorem ranges_cases (ds : List Dependency) :
    (∀ d ∈ ds, d.HasRange) ∨
      First Dependency.HasRange (Dependency.LacksRange Wildcard.Failure.IsDefect) ds ∨
      First Dependency.HasRange
        (Dependency.LacksRange fun f => ¬ Wildcard.Failure.IsDefect f) ds := by
  have hcases (d : Dependency) : d.HasRange ∨ d.LacksRange Wildcard.Failure.IsDefect ∨
      d.LacksRange fun f => ¬ Wildcard.Failure.IsDefect f := by
    cases h : Requirement.convert d.requirement with
    | ok c => exact .inl ⟨c, h⟩
    | error f =>
        by_cases hf : f.IsDefect
        · exact .inr (.inl ⟨f, h, hf⟩)
        · exact .inr (.inr ⟨f, h, hf⟩)
  rcases First.of_cases fun d _ => hcases d with h | h
  · exact .inl h
  · exact .inr h.or_cases

theorem line_cases (depth : Nat) (s : Text) :
    Readable depth s ∨ Refused depth s ∨ OverLimit depth s := by
  cases hb : s.isBlank with
  | true => exact .inl (.blank hb)
  | false =>
      cases hv : Json.read depth s with
      | error e =>
          cases e with
          | malformed cause => exact .inr (.inl (.malformed hb hv))
          | tooLong cause => exact .inr (.inr (.tooLong hb hv))
          | tooDeep container => exact .inr (.inr (.tooDeep hb hv))
      | ok v =>
          cases hr : Record.ofJson v with
          | error cause => exact .inr (.inl (.defective hb hv hr))
          | ok r =>
              have hh : HoldsRecord depth s r := ⟨hb, v, hv, hr⟩
              rcases ranges_cases r.needed with h | h | h
              · exact .inl (.record hh h)
              · exact .inr (.inl (.wildcard hh h))
              · exact .inr (.inr (.unwritable hh h))

theorem lines_cases (depth : Nat) (lines : List Text) :
    (∀ s ∈ lines, Readable depth s) ∨ First (Readable depth) (Refused depth) lines ∨
      First (Readable depth) (OverLimit depth) lines := by
  rcases First.of_cases fun s _ => line_cases depth s with h | h
  · exact .inl h
  · exact .inr h.or_cases

theorem readLines_succeeds (source : Option Text) (n : Nat) (reg : Registry)
    (h : ∀ s ∈ lines, Readable depth s) :
    Succeeds (readLines depth source n reg lines).result := by
  induction lines generalizing n reg with
  | nil => exact ⟨reg, rfl⟩
  | cons s lines ih =>
      obtain ⟨a, ha⟩ := contentOf_succeeds source n (h s List.mem_cons_self)
      rw [result_readLines_cons, ha]
      exact ih (n + 1) (reg.add a) fun s hs => h s (List.mem_cons_of_mem _ hs)

theorem readLines_fails (n : Nat) (reg : Registry) {bad : Text → Prop}
    (hbad : ∀ n s, bad s → Fails P (contentOf depth source n s))
    (h : First (Readable depth) bad lines) :
    Fails P (readLines depth source n reg lines).result := by
  induction lines generalizing n reg with
  | nil => exact absurd h First.not_nil
  | cons s lines ih =>
      rw [result_readLines_cons]
      rcases h.cons_cases with hs | ⟨hs, h⟩
      · exact (hbad n s hs).bind
      · obtain ⟨a, ha⟩ := contentOf_succeeds source n hs
        rw [ha]
        exact ih (n + 1) (reg.add a) h

/-! ## Files -/

namespace Opened

variable {o : Opened}

/-- The file can be opened and decoded, and its lines are so. -/
def Holds (Q : List Text → Prop) (o : Opened) : Prop :=
  ∃ bytes text, o.bytes = .ok bytes ∧ Utf8.decode bytes = .ok text ∧ Q text.lines

/-- All lines of the file can be read. -/
def Whole (depth : Nat) (o : Opened) : Prop :=
  o.Holds fun lines => ∀ s ∈ lines, Index.Readable depth s

/-- The first line of the file that cannot be read is refused. -/
def Refused (depth : Nat) (o : Opened) : Prop :=
  o.Holds (First (Readable depth) (Index.Refused depth))

/-- The first line of the file that cannot be read goes beyond what can be read at all. -/
def OverLimit (depth : Nat) (o : Opened) : Prop :=
  o.Holds (First (Readable depth) (Index.OverLimit depth))

/-- The path leads to no file, or its bytes are not UTF-8. -/
inductive Unreadable (o : Opened) : Prop where
  | unreachable {cause : PathError} (h : o.bytes = .error cause) (hc : cause ≠ .holdsNul)
  | undecodable {bytes : List UInt8} {cause : Utf8.DecodeError} (h : o.bytes = .ok bytes)
      (hd : Utf8.decode bytes = .error cause)

theorem registry_of_bytes {bytes : List UInt8} {text : Text} (hb : o.bytes = .ok bytes)
    (ht : Utf8.decode bytes = .ok text) :
    o.registry depth = (ofLines depth (some o.path) text.lines).result := by
  rw [registry, ofFile, Logged.result_bind, Logged.result_ofExcept, hb]
  simp only [fileText, ht, mapError_ok, ok_bind]

theorem registry_of_whole (h : o.Whole depth) : Succeeds (o.registry depth) := by
  obtain ⟨bytes, text, hb, ht, h⟩ := h
  obtain ⟨r, hr⟩ := readLines_succeeds (some o.path) 1 ∅ h
  rw [registry_of_bytes hb ht, ofLines, Logged.result_bind, hr]
  exact ⟨r, rfl⟩

theorem registry_of_first {bad : Text → Prop}
    (hbad : ∀ n s, bad s → Fails P (contentOf depth (some o.path) n s))
    (h : o.Holds (First (Readable depth) bad)) : Fails P (o.registry depth) := by
  obtain ⟨bytes, text, hb, ht, h⟩ := h
  rw [registry_of_bytes hb ht, ofLines, Logged.result_bind]
  exact (readLines_fails 1 ∅ hbad h).bind

theorem registry_of_refused (h : o.Refused depth) :
    Fails (fun f => CommandLine.exitCode? f = some 2) (o.registry depth) :=
  registry_of_first (fun n _ => contentOf_fails_of_refused _ n) h

theorem registry_of_overLimit (h : o.OverLimit depth) :
    Fails (fun f => CommandLine.exitCode? f = none) (o.registry depth) :=
  registry_of_first (fun n _ => contentOf_fails_of_overLimit _ n) h

theorem registry_of_unreadable (h : o.Unreadable) :
    Fails (fun f => CommandLine.exitCode? f = some 1) (o.registry depth) := by
  rw [registry, ofFile, Logged.result_bind, Logged.result_ofExcept]
  cases h with
  | @unreachable cause h hc =>
      rw [h]
      cases cause with
      | holdsNul => exact absurd rfl hc
      | _ => exact ⟨_, rfl, rfl⟩
  | undecodable h hd =>
      rw [h]
      simp only [fileText, hd]
      exact ⟨_, rfl, rfl⟩

theorem cases_of_path (depth : Nat) (h : o.bytes ≠ .error .holdsNul) :
    o.Whole depth ∨ o.Unreadable ∨ o.Refused depth ∨ o.OverLimit depth := by
  cases hb : o.bytes with
  | error cause =>
      refine .inr (.inl (.unreachable hb ?_))
      rintro rfl
      exact h hb
  | ok bytes =>
      cases hd : Utf8.decode bytes with
      | error cause => exact .inr (.inl (.undecodable hb hd))
      | ok text =>
          rcases lines_cases depth text.lines with hl | hl | hl
          · exact .inl ⟨bytes, text, hb, hd, hl⟩
          · exact .inr (.inr (.inl ⟨bytes, text, hb, hd, hl⟩))
          · exact .inr (.inr (.inr ⟨bytes, text, hb, hd, hl⟩))

end Opened

end Index

end CrateIndex
