import CrateIndex.Proofs.Index.Contents
import CrateIndex.Proofs.Requirement.Wildcard
import Mathlib.Data.List.Permutation

/-!
# The first fault

Lines fail with the first of them that cannot be read, and with what is wrong with that line. Of the
lines in front only their number counts, and of the lines behind nothing.
-/

namespace CrateIndex

open Result

/-- The failure as it is when `k` lines come in front. -/
def Failure.later (k : Nat) : Failure → Failure
  | .badLine source line cause => .badLine source (line + k) cause
  | .badWildcard expr source line name version => .badWildcard expr source (line + k) name version
  | f => f

/-! ## Requirements of one record -/

theorem Record.ranges_eq_error_iff {r : Record} {f : Wildcard.Failure} :
    r.ranges.result = .error f ↔ ∃ pre d post, r.needed = pre ++ d :: post ∧
      (∀ e ∈ pre, e.HasRange) ∧ Requirement.convert d.requirement = .error f := by
  constructor
  · intro h
    have hcases : ∀ d ∈ r.needed, d.HasRange ∨ d.LacksRange fun _ => True := by
      intro d _
      cases hd : Requirement.convert d.requirement with
      | ok c => exact .inl ⟨c, hd⟩
      | error g => exact .inr ⟨g, hd, trivial⟩
    rcases First.of_cases hcases with hall | ⟨pre, d, post, hn, hpre, g, hd, -⟩
    · obtain ⟨m, hm⟩ := rangesFrom_succeeds ∅ hall
      rw [ranges, hm] at h
      cases h
    · obtain ⟨_, hg, rfl⟩ := rangesFrom_fails (P := (· = g)) ∅ ⟨pre, d, post, hn, hpre, g, hd, rfl⟩
      rw [ranges, hg] at h
      cases h
      exact ⟨pre, d, post, hn, hpre, hd⟩
  · rintro ⟨pre, d, post, hn, hpre, hd⟩
    obtain ⟨_, hf, rfl⟩ := rangesFrom_fails (P := (· = f)) ∅ ⟨pre, d, post, hn, hpre, f, hd, rfl⟩
    exact hf

theorem Record.exists_defect_of_entry {members : List (Text × Json)} {entries : List Json}
    {e : Json} {cause : RecordDefect} (hd : Json.member? "deps" members = some (.array entries))
    (he : e ∈ entries) (h : Dependency.ofJson e = .error cause) :
    ∃ c, ofJson (.object members) = .error c := by
  cases hr : ofJson (.object members) with
  | error c => exact ⟨c, rfl⟩
  | ok r =>
      simp only [ofJson, hd, entries?] at hr
      split at hr
      · obtain ⟨ds, hds, -⟩ := bind_eq_ok_iff.1 hr
        obtain ⟨d, hd⟩ := succeeds_of_mapM hds he
        rw [hd] at h
        cases h
      · cases hr

namespace Index

variable {depth : Nat} {source : Option Text} {n : Nat} {s : Text} {lines : List Text}
  {reg : Registry} {f : Failure}

/-- What is wrong with the line `s`, which is the line `n` of its source. A wildcard is at fault if
the line is a record and all needed dependencies in front have ranges. -/
inductive Fault (depth : Nat) (source : Option Text) (n : Nat) (s : Text) :
    Failure → Prop
  | malformed {cause : Json.Malformed} (hb : s.isBlank = false)
      (h : Json.read depth s = .error (.malformed cause)) :
      Fault depth source n s (.badLine source n (.malformed cause))
  | defective {v : Json} {cause : RecordDefect} (hb : s.isBlank = false)
      (hv : Json.read depth s = .ok v) (h : Record.ofJson v = .error cause) :
      Fault depth source n s (.badLine source n (.defective cause))
  | wildcard {r : Record} {pre post : List Dependency} {d : Dependency} {cause : Wildcard.Defect}
      (hr : HoldsRecord depth s r) (hn : r.needed = pre ++ d :: post) (hpre : ∀ e ∈ pre, e.HasRange)
      (h : Requirement.convert d.requirement = .error (.defect d.requirement cause)) :
      Fault depth source n s (.badWildcard d.requirement source n r.name r.version)
  | tooLong {cause : Decimal.TooManyDigits} (hb : s.isBlank = false)
      (h : Json.read depth s = .error (.tooLong cause)) : Fault depth source n s (.tooLong cause)
  | tooDeep {container : Json.Container} (hb : s.isBlank = false)
      (h : Json.read depth s = .error (.tooDeep container)) :
      Fault depth source n s (.tooDeep container)
  | unwritable {r : Record} {pre post : List Dependency} {d : Dependency}
      {cause : Decimal.TooManyDigits} (hr : HoldsRecord depth s r)
      (hn : r.needed = pre ++ d :: post) (hpre : ∀ e ∈ pre, e.HasRange)
      (h : Requirement.convert d.requirement = .error (.unwritable cause)) :
      Fault depth source n s (.tooLong cause)

theorem Fault.of_read (hb : s.isBlank = false) (h : readRecord depth source n s = .error f) :
    Fault depth source n s f := by
  unfold readRecord at h
  split at h
  · cases h
    exact .malformed hb ‹_›
  · cases h
    exact .tooLong hb ‹_›
  · cases h
    exact .tooDeep hb ‹_›
  · obtain ⟨cause, hc, rfl⟩ := mapError_eq_error_iff.1 h
    exact .defective hb ‹_› hc

theorem Fault.of_ranges {r : Record} {g : Wildcard.Failure} (hr : HoldsRecord depth s r)
    (h : r.ranges.result = .error g) : Fault depth source n s (wildcardFailure source n r g) := by
  obtain ⟨pre, d, post, hn, hpre, hd⟩ := Record.ranges_eq_error_iff.1 h
  cases g with
  | defect expr cause =>
      obtain rfl := Requirement.expr_of_convert_error hd
      exact .wildcard hr hn hpre hd
  | unwritable cause => exact .unwritable hr hn hpre hd

theorem contentOf_eq_error_iff :
    contentOf depth source n s = .error f ↔ Fault depth source n s f := by
  constructor
  · intro h
    unfold contentOf at h
    split at h
    · cases h
    · rename_i hb
      rw [Bool.not_eq_true] at hb
      rcases bind_eq_error_iff.1 h with h | ⟨r, hr, h⟩
      · exact .of_read hb h
      · rcases bind_eq_error_iff.1 h with h | ⟨ranges, -, h⟩
        · obtain ⟨g, hg, rfl⟩ := mapError_eq_error_iff.1 h
          exact .of_ranges (holdsRecord_of_readRecord hb hr) hg
        · cases h
  · intro h
    cases h with
    | malformed hb h | tooLong hb h | tooDeep hb h => simp [contentOf, readRecord, hb, h]
    | defective hb hv h => simp [contentOf, readRecord, hb, hv, h, Except.mapError]
    | wildcard hr hn hpre h | unwritable hr hn hpre h =>
        rw [contentOf_of_holds source n hr, Record.ranges_eq_error_iff.2 ⟨_, _, _, hn, hpre, h⟩]
        rfl

theorem readable_iff_succeeds (source : Option Text) (n : Nat) :
    Readable depth s ↔ Succeeds (contentOf depth source n s) := by
  refine ⟨contentOf_succeeds source n, ?_⟩
  rintro ⟨a, ha⟩
  rcases line_cases depth s with hs | hs | hs
  · exact hs
  · obtain ⟨f, hf, -⟩ := contentOf_fails_of_refused source n hs
    rw [ha] at hf
    cases hf
  · obtain ⟨f, hf, -⟩ := contentOf_fails_of_overLimit source n hs
    rw [ha] at hf
    cases hf

theorem not_readable_iff (source : Option Text) (n : Nat) :
    ¬ Readable depth s ↔ ∃ f, Fault depth source n s f := by
  rw [readable_iff_succeeds source n]
  simp only [← contentOf_eq_error_iff]
  cases contentOf depth source n s with
  | error f => simp [Succeeds]
  | ok a => simp [Succeeds]

/-! ## Lines -/

/-- Lines fail with what is wrong with one of them if all lines in front can be read. -/
theorem readLines_eq_error_iff : (readLines depth source n reg lines).result = .error f ↔
    ∃ pre s post, lines = pre ++ s :: post ∧ (∀ t ∈ pre, Readable depth t) ∧
      Fault depth source (n + pre.length) s f := by
  induction lines generalizing n reg with
  | nil => simp [readLines]
  | cons s lines ih =>
      rw [result_readLines_cons]
      have hn (pre : List Text) : n + (s :: pre).length = n + 1 + pre.length := by
        rw [List.length_cons, Nat.add_right_comm, Nat.add_assoc]
      constructor
      · intro h
        rcases bind_eq_error_iff.1 h with h | ⟨a, ha, h⟩
        · exact ⟨[], s, lines, rfl, by simp, contentOf_eq_error_iff.1 h⟩
        · obtain ⟨pre, t, post, rfl, hpre, hf⟩ := ih.1 h
          have hs : Readable depth s := (readable_iff_succeeds source n).2 ⟨a, ha⟩
          exact ⟨s :: pre, t, post, rfl, List.forall_mem_cons.2 ⟨hs, hpre⟩, (hn pre).symm ▸ hf⟩
      · rintro ⟨pre, t, post, he, hpre, hf⟩
        cases pre with
        | nil =>
            cases he
            have hs : contentOf depth source n s = .error f := contentOf_eq_error_iff.2 hf
            rw [hs]
            rfl
        | cons u pre =>
            cases he
            obtain ⟨hs, hpre⟩ := List.forall_mem_cons.1 hpre
            obtain ⟨a, ha⟩ := contentOf_succeeds source n hs
            rw [ha]
            exact ih.2 ⟨pre, t, post, rfl, hpre, hn pre ▸ hf⟩

theorem ofLines_eq_error_iff : (ofLines depth source lines).result = .error f ↔
    ∃ pre s post, lines = pre ++ s :: post ∧ (∀ t ∈ pre, Readable depth t) ∧
      Fault depth source (pre.length + 1) s f := by
  rw [result_ofLines, readLines_eq_error_iff]
  simp only [Nat.add_comm 1]

theorem ofLines_fails_iff :
    (∃ f, (ofLines depth source lines).result = .error f) ↔ ∃ s ∈ lines, ¬ Readable depth s := by
  constructor
  · rintro ⟨f, h⟩
    obtain ⟨pre, s, post, rfl, -, hf⟩ := ofLines_eq_error_iff.1 h
    exact ⟨s, by simp, (not_readable_iff source (pre.length + 1)).2 ⟨f, hf⟩⟩
  · rintro ⟨s, hs, hns⟩
    have hcases : ∀ t ∈ lines, Readable depth t ∨ ¬ Readable depth t :=
      fun t _ => Classical.em (Readable depth t)
    rcases First.of_cases hcases with hall | ⟨pre, t, post, rfl, hpre, ht⟩
    · exact (hns (hall s hs)).elim
    · obtain ⟨f, hf⟩ := (not_readable_iff source (pre.length + 1)).1 ht
      exact ⟨f, ofLines_eq_error_iff.2 ⟨pre, t, post, rfl, hpre, hf⟩⟩

theorem readable_of_ofLines (h : (ofLines depth source lines).result = .ok reg) :
    ∀ s ∈ lines, Readable depth s := by
  intro s hs
  by_contra hns
  obtain ⟨f, hf⟩ := ofLines_fails_iff.2 ⟨s, hs, hns⟩
  rw [h] at hf
  cases hf

theorem ofLines_concat_eq {pre pre' post post' : List Text} (hn : pre.length = pre'.length)
    (hpre : ∀ t ∈ pre, Readable depth t) (hpre' : ∀ t ∈ pre', Readable depth t)
    (hs : ¬ Readable depth s) :
    (ofLines depth source (pre ++ s :: post)).result =
      (ofLines depth source (pre' ++ s :: post')).result := by
  obtain ⟨f, hf⟩ := (not_readable_iff source (pre.length + 1)).1 hs
  rw [ofLines_eq_error_iff.2 ⟨pre, s, post, rfl, hpre, hf⟩,
    ofLines_eq_error_iff.2 ⟨pre', s, post', rfl, hpre', hn ▸ hf⟩]

/-! ## Lines in front -/

theorem Fault.later_iff (k : Nat) :
    Fault depth source (n + k) s f ↔ ∃ g, Fault depth source n s g ∧ f = g.later k := by
  constructor
  · intro h
    cases h with
    | malformed hb h => exact ⟨_, .malformed hb h, rfl⟩
    | defective hb hv h => exact ⟨_, .defective hb hv h, rfl⟩
    | wildcard hr hn hpre h => exact ⟨_, .wildcard hr hn hpre h, rfl⟩
    | tooLong hb h => exact ⟨_, .tooLong hb h, rfl⟩
    | tooDeep hb h => exact ⟨_, .tooDeep hb h, rfl⟩
    | unwritable hr hn hpre h => exact ⟨_, .unwritable hr hn hpre h, rfl⟩
  · rintro ⟨g, h, rfl⟩
    cases h with
    | malformed hb h => exact .malformed hb h
    | defective hb hv h => exact .defective hb hv h
    | wildcard hr hn hpre h => exact .wildcard hr hn hpre h
    | tooLong hb h => exact .tooLong hb h
    | tooDeep hb h => exact .tooDeep hb h
    | unwritable hr hn hpre h => exact .unwritable hr hn hpre h

theorem result_readLines_append (depth : Nat) (source : Option Text) (n : Nat) (reg : Registry)
    (xs ys : List Text) : (readLines depth source n reg (xs ++ ys)).result =
      (readLines depth source n reg xs).result >>= fun reg =>
        (readLines depth source (n + xs.length) reg ys).result := by
  induction xs generalizing n reg with
  | nil => rfl
  | cons s xs ih =>
      rw [List.cons_append, result_readLines_cons, result_readLines_cons]
      cases contentOf depth source n s with
      | error f => rfl
      | ok a =>
          rw [ok_bind, ok_bind, ih, List.length_cons, Nat.add_right_comm, Nat.add_assoc]

theorem ofLines_append_eq_error_iff {xs ys : List Text}
    (h : (ofLines depth source xs).result = .ok reg) :
    (ofLines depth source (xs ++ ys)).result = .error f ↔
      ∃ g, (ofLines depth source ys).result = .error g ∧ f = g.later xs.length := by
  rw [result_ofLines] at h
  rw [result_ofLines, result_readLines_append, h, ok_bind, readLines_eq_error_iff]
  simp only [ofLines_eq_error_iff]
  constructor
  · rintro ⟨pre, s, post, rfl, hpre, hf⟩
    rw [Nat.add_right_comm, Nat.add_comm 1] at hf
    obtain ⟨g, hg, rfl⟩ := (Fault.later_iff xs.length).1 hf
    exact ⟨g, ⟨pre, s, post, rfl, hpre, hg⟩, rfl⟩
  · rintro ⟨g, ⟨pre, s, post, rfl, hpre, hg⟩, rfl⟩
    refine ⟨pre, s, post, rfl, hpre, ?_⟩
    rw [Nat.add_right_comm, Nat.add_comm 1]
    exact (Fault.later_iff xs.length).2 ⟨g, hg, rfl⟩

theorem message_badWildcard (expr : Text) {path : Text} (n : Nat) (name version : Text)
    (h : path ≠ []) :
    (Failure.badWildcard expr (some path) n name version).message =
      "Invalid wildcard version range '" ++ expr ++ "': " ++ path ++ ":" ++ Decimal.text n ++
        ": " ++ name ++ " " ++ version := by
  cases path with
  | nil => cases h rfl
  | cons c path => simp [Failure.message, Failure.invalidRange, Failure.place, Text.ofString]

theorem message_badWildcard_unnamed (expr : Text) {source : Option Text} (n : Nat)
    (name version : Text) (h : source = none ∨ source = some []) :
    (Failure.badWildcard expr source n name version).message =
      "Invalid wildcard version range '" ++ expr ++ "': line " ++ Decimal.text n ++ ": " ++
        name ++ " " ++ version := by
  rcases h with rfl | rfl <;>
    simp [Failure.message, Failure.invalidRange, Failure.place, Text.ofString]

/-! ## The law of the first fault -/

/-- Lines fail exactly if one of them cannot be read, and the first of these tells what is wrong,
with its number. An invalid wildcard is reported with its requirement and its place. A defect of the
record comes before every wildcard, in whatever dependency it is. Nothing else counts but how many
lines are in front. -/
theorem ofLines_firstFault (depth : Nat) :
    (∀ (source : Option Text) (lines : List Text),
      (∃ f, (ofLines depth source lines).result = .error f) ↔ ∃ s ∈ lines, ¬ Readable depth s) ∧
    (∀ (source : Option Text) (lines : List Text) (f : Failure),
      (ofLines depth source lines).result = .error f ↔
        ∃ pre s post, lines = pre ++ s :: post ∧ (∀ t ∈ pre, Readable depth t) ∧
          Fault depth source (pre.length + 1) s f) ∧
    (∀ (expr path : Text) (n : Nat) (name version : Text), path ≠ [] →
      (Failure.badWildcard expr (some path) n name version).message =
        "Invalid wildcard version range '" ++ expr ++ "': " ++ path ++ ":" ++ Decimal.text n ++
          ": " ++ name ++ " " ++ version) ∧
    (∀ (expr : Text) (source : Option Text) (n : Nat) (name version : Text),
      source = none ∨ source = some [] →
      (Failure.badWildcard expr source n name version).message =
        "Invalid wildcard version range '" ++ expr ++ "': line " ++ Decimal.text n ++ ": " ++
          name ++ " " ++ version) ∧
    (∀ (source : Option Text) (pre : List Text) (s : Text) (post : List Text) (v : Json)
        (cause : RecordDefect), (∀ t ∈ pre, Readable depth t) → s.isBlank = false →
      Json.read depth s = .ok v → Record.ofJson v = .error cause →
      (ofLines depth source (pre ++ s :: post)).result =
        .error (.badLine source (pre.length + 1) (.defective cause))) ∧
    (∀ (members : List (Text × Json)) (entries : List Json) (e : Json) (cause : RecordDefect),
      Json.member? "deps" members = some (.array entries) → e ∈ entries →
      Dependency.ofJson e = .error cause → ∃ c, Record.ofJson (.object members) = .error c) ∧
    (∀ (source : Option Text) (s : Text) (pre pre' post post' : List Text),
      pre.length = pre'.length → (∀ t ∈ pre, Readable depth t) → (∀ t ∈ pre', Readable depth t) →
      ¬ Readable depth s →
      (ofLines depth source (pre ++ s :: post)).result =
        (ofLines depth source (pre' ++ s :: post')).result) ∧
    ∀ (source : Option Text) (xs ys : List Text) (reg : Registry) (f : Failure),
      (ofLines depth source xs).result = .ok reg →
      ((ofLines depth source (xs ++ ys)).result = .error f ↔
        ∃ g, (ofLines depth source ys).result = .error g ∧ f = g.later xs.length) := by
  refine ⟨fun _ _ => ofLines_fails_iff, fun _ _ _ => ofLines_eq_error_iff, ?_, ?_, ?_, ?_, ?_, ?_⟩
  · intro expr path n name version h
    exact message_badWildcard expr n name version h
  · intro expr source n name version h
    exact message_badWildcard_unnamed expr n name version h
  · intro source pre s post v cause hpre hb hv hd
    exact ofLines_eq_error_iff.2 ⟨pre, s, post, rfl, hpre, .defective hb hv hd⟩
  · intro members entries e cause hd he h
    exact Record.exists_defect_of_entry hd he h
  · intro source s pre pre' post post' hn hpre hpre' hs
    exact ofLines_concat_eq hn hpre hpre' hs
  · intro source xs ys reg f h
    exact ofLines_append_eq_error_iff h

/-- A line with an invalid wildcard and, behind it, a dependency that is none. -/
theorem ofLines_firstFault_defective :
    (Failure.badWildcard "1*" (some "f") 3 "a" "1").message =
      "Invalid wildcard version range '1*': f:3: a 1" ∧
    (Failure.badWildcard "1*" none 3 "a" "1").message =
      "Invalid wildcard version range '1*': line 3: a 1" ∧
    (ofLines 990 none [" ", "\x7b\"name\":\"a\",\"vers\":\"1\",\"deps\":[" ++
        "\x7b\"name\":\"b\",\"req\":\"1*\"\x7d,null]\x7d", "?"]).result =
      .error (.badLine none 2 (.defective (.entryNotObject .null))) ∧
    (∃ c, Record.ofJson (.object [("deps", .array [.null])]) = .error c) ∧
    (ofLines 990 none [" ", "["]).result =
      (ofLines 990 none [bareLine "a" "1", "[", "?"]).result ∧
    (ofLines 990 none [bareLine "a" "1", "["]).result =
      .error (.badLine none 2 (.malformed .expectingValue)) := by
  have hblank : ∀ t ∈ [(" " : Text)], Readable 990 t := List.forall_mem_singleton.2 (.blank rfl)
  have hbare : (ofLines 990 none [bareLine "a" "1"]).result =
      .ok (.ofList [("test/a", .ofList [("1", ∅)])]) :=
    toOption_eq_some.1 (by decide +kernel)
  have hread : ∀ t ∈ [bareLine "a" "1"], Readable 990 t := readable_of_ofLines hbare
  have hopen : Json.read 990 "[" = .error (.malformed .expectingValue) := by cbv
  refine ⟨?_, ?_, ?_, ?_, ?_, ?_⟩
  · exact ((ofLines_firstFault 990).2.2.1 "1*" "f" 3 "a" "1" (by decide)).trans (by decide +kernel)
  · exact ((ofLines_firstFault 990).2.2.2.1 "1*" none 3 "a" "1" (.inl rfl)).trans
      (by decide +kernel)
  · exact (ofLines_firstFault 990).2.2.2.2.1 none [" "] _ ["?"] _ _ hblank (by decide) (by cbv)
      (by rfl)
  · exact (ofLines_firstFault 990).2.2.2.2.2.1 _ [.null] .null _ rfl (by simp) rfl
  · exact (ofLines_firstFault 990).2.2.2.2.2.2.1 none "[" [" "] [bareLine "a" "1"] [] ["?"] rfl
      hblank hread ((not_readable_iff none 1).2 ⟨_, .malformed (by decide) hopen⟩)
  · refine ((ofLines_firstFault 990).2.2.2.2.2.2.2 none [bareLine "a" "1"] ["["] _ _ hbare).2
      ⟨.badLine none 1 (.malformed .expectingValue), ?_, rfl⟩
    exact ofLines_eq_error_iff.2 ⟨[], "[", [], rfl, by simp, .malformed (by decide) hopen⟩

end Index

end CrateIndex
