import CrateIndex.Files.Building
import CrateIndex.Proofs.CommandLine.Session
import CrateIndex.Proofs.Document.Format
import CrateIndex.Proofs.Index.Search
import Mathlib

/-!
# How a run ends

A run ends with the exit code of the first fault, or with none where the fault is one that has no
exit code. Standard output is the whole document of the complete registry, or nothing, unless the
log is kept there.
-/

namespace CrateIndex.CommandLine

open Index Result

theorem exitCode?_ne_zero (f : Failure) : exitCode? f ≠ some 0 := by
  cases f <;> simp [exitCode?]

/-- The ending of a run whose document, or whose failure to make one, is that. -/
def endingOf : Except Failure (List UInt8) → Ending
  | .ok _ => .exit 0
  | .error f => (exitCode? f).elim (.uncaught f) .exit

theorem endingOf_ne_exit_zero (f : Failure) : endingOf (.error f) ≠ .exit 0 := by
  cases h : exitCode? f with
  | none => simp [endingOf, h]
  | some code =>
      simp only [endingOf, h, Option.elim_some]
      rintro ⟨⟩
      exact exitCode?_ne_zero f h

theorem filterMap_record (es : List Log.Entry) :
    (es.map Event.record).filterMap Event.record? = es := by
  rw [List.filterMap_map]
  exact List.filterMap_some

namespace Session

variable {s : Session} {strategy : MergePolicy} {paths : List Text} {r : Registry}
  {bytes : List UInt8} {code : Nat} {f : Failure}

/-- The bytes of the document, or why there are none. -/
def document (s : Session) : Except Failure (List UInt8) := do
  let r ← s.registry
  (s.arguments.format.encode r).mapError .unencodable

/-- The run fails in a way that has no exit code. -/
inductive Escapes (s : Session) : Prop where
  | withoutStrategy (h : s.arguments.mergeStrategy = .nothing)
  | withoutPattern (h : fullPattern? s.tree (choosePattern s.arguments s.environment) = none)
  | tooManyNames {pattern : Text}
      (hp : fullPattern? s.tree (choosePattern s.arguments s.environment) = some pattern)
      (ho : s.tree.isOpen (Glob.root pattern) = true)
      (h : s.limits.names < Glob.innerNames pattern)
  | overLimit (h : First (Opened.Whole s.depth) (Opened.OverLimit s.depth) s.openedFiles)
  | unencodable {r : Registry} {run : Utf8.SurrogateRun} (hr : s.IsRegistry r)
      (h : s.arguments.format.encode r = .error run)

/-- The bytes that the records of a run are on standard output. -/
def printed (s : Session) : List UInt8 :=
  (s.course.1.filterMap Event.record?).flatMap fun e => s.output (.record e)

/-! ## From the document to the outcome -/

theorem result_makeRegistry : s.makeRegistry.result = s.registry := by
  simp only [makeRegistry, registry, search, Logged.result_bind, Logged.result_note,
    Logged.result_ofExcept, ok_bind]

theorem result_write : (Logged.ofExcept s.makeRegistry.result >>= s.arguments.format.write).result =
    s.document := by
  simp only [result_makeRegistry, document, Format.write, Logged.result_bind,
    Logged.result_ofExcept, Logged.result_note, Logged.result_pure, ok_bind, bind_ok]

/-- A document stands between records. -/
theorem course_of_ok (h : s.document = .ok bytes) : ∃ before after : List Log.Entry,
    s.course = (before.map .record ++ .document bytes :: after.map .record, .exit 0) := by
  refine ⟨s.makeRegistry.log,
    (Logged.ofExcept s.makeRegistry.result >>= s.arguments.format.write).log, ?_⟩
  simp only [course, result_write, h]

theorem course_of_error (h : s.document = .error f) : ∃ made : List Log.Entry,
    s.course = (made.map .record, endingOf (.error f)) := by
  cases hc : exitCode? f with
  | none => exact ⟨s.makeRegistry.log, by simp only [course, result_write, h, hc, endingOf]; rfl⟩
  | some code =>
      refine ⟨s.makeRegistry.log ++ [abortEntry f.message], ?_⟩
      simp only [course, result_write, h, hc, endingOf, List.map_append, List.map_cons,
        List.map_nil]
      rfl

theorem ending_eq (s : Session) : s.outcome.ending = endingOf s.document := by
  cases h : s.document with
  | ok bytes =>
      obtain ⟨before, after, hc⟩ := course_of_ok h
      rw [outcome, hc]
      rfl
  | error f =>
      obtain ⟨made, hc⟩ := course_of_error h
      rw [outcome, hc]

theorem ending_of_ok (h : s.document = .ok bytes) : s.outcome.ending = .exit 0 := by
  rw [ending_eq, h]
  rfl

theorem ending_of_coded (h : Fails (fun f => exitCode? f = some code) s.document) :
    s.outcome.ending = .exit code := by
  obtain ⟨f, hf, hc⟩ := h
  rw [ending_eq, hf, endingOf, hc]
  rfl

theorem ending_of_uncoded (h : Fails (fun f => exitCode? f = none) s.document) :
    ∃ f, s.outcome.ending = .uncaught f := by
  obtain ⟨f, hf, hc⟩ := h
  exact ⟨f, by rw [ending_eq, hf, endingOf, hc]; rfl⟩

/-- The bytes of standard output are those of records and those of the document between them. -/
theorem output_of_ok (h : s.document = .ok bytes) : ∃ before after,
    s.outcome.output = before ++ bytes ++ after ∧ s.printed = before ++ after := by
  obtain ⟨before, after, hc⟩ := course_of_ok h
  refine ⟨before.flatMap fun e => s.output (.record e),
    after.flatMap fun e => s.output (.record e), ?_, ?_⟩
  · simp [outcome, hc, output, List.flatMap_map]
  · simp only [printed, hc, List.filterMap_append, filterMap_record, List.filterMap_cons,
      Event.record?, List.flatMap_append]

theorem output_of_error (h : s.document = .error f) : s.outcome.output = s.printed := by
  obtain ⟨made, hc⟩ := course_of_error h
  simp only [outcome, printed, hc, filterMap_record, List.flatMap_map]

theorem output_of_unprinted (hp : s.printed = []) :
    s.outcome.output = s.document.toOption.getD [] := by
  cases h : s.document with
  | ok bytes =>
      obtain ⟨before, after, ho, hp'⟩ := output_of_ok h
      obtain ⟨rfl, rfl⟩ : before = [] ∧ after = [] := by simpa [hp] using hp'.symm
      simpa using ho
  | error f => rw [output_of_error h, hp]; rfl

theorem printed_of_stream (h : s.stream? ≠ some .output) : s.printed = [] := by
  have hline (e : Log.Entry) : s.logLine .output e = [] := by
    unfold logLine
    split
    · rw [if_neg fun hc => h hc.1]
    · rfl
  simp [printed, output, hline]

/-! ## From the files to the document -/

theorem document_of_registry (hr : s.IsRegistry r)
    (h : s.arguments.format.encode r = .ok bytes) : s.document = .ok bytes := by
  rw [document, registry_eq_ok_iff.2 hr, ok_bind, h, mapError_ok]

theorem document_fails_of_search {P : Failure → Prop} (hs : s.arguments.strategy = .ok strategy)
    (h : Fails P s.search.result) : Fails P s.document := by
  rw [document, registry, hs]
  exact h.bind.bind

theorem document_fails_of_undiscovered (ha : s.arguments.HasStrategy) (h : s.Undiscovered) :
    Fails (fun f => exitCode? f = some 1) s.document := by
  obtain ⟨hn, pattern, hp, ho⟩ := h
  obtain ⟨strategy, hs⟩ := ha.resolve_left hn
  refine document_fails_of_search hs ?_
  cases hf : s.tree.isFolder (Glob.root pattern) with
  | false => exact ⟨_, congrArg Logged.result (search_of_not_folder hp hf), rfl⟩
  | true => exact ⟨_, congrArg Logged.result (search_of_not_open hp hf ho), rfl⟩

theorem document_fails_of_first {P : Failure → Prop} {bad : Opened → Prop}
    (hbad : ∀ o, bad o → Fails P (Opened.registry s.depth o))
    (h : First (Opened.Whole s.depth) bad s.openedFiles) : Fails P s.document :=
  (registry_fails_of_first hbad h).bind

theorem document_fails_of_nothing (h : s.arguments.mergeStrategy = .nothing) :
    Fails (fun f => exitCode? f = none) s.document := by
  have hs : s.arguments.strategy = .error (.unknownStrategy "[]") := by
    simp only [Arguments.strategy, h]
  rw [document, registry, hs]
  exact ⟨_, rfl, rfl⟩

theorem document_fails_of_escapes (ha : s.arguments.HasStrategy) (h : s.Escapes) :
    Fails (fun f => exitCode? f = none) s.document := by
  cases h with
  | withoutStrategy h => exact document_fails_of_nothing h
  | withoutPattern h =>
      rcases ha with ha | ⟨strategy, hs⟩
      · exact document_fails_of_nothing ha
      · refine document_fails_of_search hs ⟨.nulInPath, ?_, rfl⟩
        simp [search, Index.search, h, Logged.fail]
  | tooManyNames hp ho h =>
      rcases ha with ha | ⟨strategy, hs⟩
      · exact document_fails_of_nothing ha
      · have hsearch : s.search.result = .error .tooManyNames :=
          congrArg Logged.result (search_of_deep hp ho h)
        exact document_fails_of_search hs ⟨_, hsearch, rfl⟩
  | overLimit h => exact document_fails_of_first (fun _ => Opened.registry_of_overLimit) h
  | unencodable hr h =>
      rw [document, registry_eq_ok_iff.2 hr, ok_bind, h]
      exact ⟨_, rfl, rfl⟩

theorem run_cases (ha : s.arguments.HasStrategy) :
    (s.Undiscovered ∨ First (Opened.Whole s.depth) Opened.Unreadable s.openedFiles) ∨
      First (Opened.Whole s.depth) (Opened.Refused s.depth) s.openedFiles ∨ s.Escapes ∨
      ∃ r bytes, s.IsRegistry r ∧ s.arguments.format.encode r = .ok bytes := by
  by_cases hn : s.arguments.mergeStrategy = .nothing
  · exact .inr (.inr (.inl (.withoutStrategy hn)))
  obtain ⟨strategy, hs⟩ := ha.resolve_left hn
  cases hp : fullPattern? s.tree (choosePattern s.arguments s.environment) with
  | none => exact .inr (.inr (.inl (.withoutPattern hp)))
  | some pattern =>
      cases hf : s.tree.isOpen (Glob.root pattern) with
      | false => exact .inl (.inl ⟨hn, pattern, hp, hf⟩)
      | true =>
          by_cases hi : s.limits.names < Glob.innerNames pattern
          · exact .inr (.inr (.inl (.tooManyNames hp hf hi)))
          rcases First.of_cases
            fun o ho => Opened.cases_of_path s.depth (bytes_ne_holdsNul ho) with h | h
          · -- All files are whole, so that only the encoding can fail.
            have hsearch : s.search.result = .ok (filesOf s.tree pattern) :=
              congrArg Logged.result (search_of_open hp hf (Nat.le_of_not_lt hi))
            obtain ⟨r, hr⟩ := exists_isRegistry hs hsearch h
            cases he : s.arguments.format.encode r with
            | error run => exact .inr (.inr (.inl (.unencodable hr he)))
            | ok bytes => exact .inr (.inr (.inr ⟨r, bytes, hr, he⟩))
          · rcases h.or_cases with h | h
            · exact .inl (.inr h)
            · rcases h.or_cases with h | h
              · exact .inr (.inl h)
              · exact .inr (.inr (.inl (.overLimit h)))

/-! ## The ending -/

theorem ending_of_unreadable (ha : s.arguments.HasStrategy)
    (h : s.Undiscovered ∨ First (Opened.Whole s.depth) Opened.Unreadable s.openedFiles) :
    s.outcome.ending = .exit 1 := by
  rcases h with h | h
  · exact ending_of_coded (document_fails_of_undiscovered ha h)
  · exact ending_of_coded (document_fails_of_first (fun _ => Opened.registry_of_unreadable) h)

theorem ending_of_refused
    (h : First (Opened.Whole s.depth) (Opened.Refused s.depth) s.openedFiles) :
    s.outcome.ending = .exit 2 :=
  ending_of_coded (document_fails_of_first (fun _ => Opened.registry_of_refused) h)

theorem ending_of_escapes (ha : s.arguments.HasStrategy) (h : s.Escapes) :
    ∃ f, s.outcome.ending = .uncaught f :=
  ending_of_uncoded (document_fails_of_escapes ha h)

theorem ending_of_registry (hr : s.IsRegistry r)
    (h : s.arguments.format.encode r = .ok bytes) : s.outcome.ending = .exit 0 :=
  ending_of_ok (document_of_registry hr h)

/-- Why a run ends as it does. -/
inductive Ends (s : Session) : Ending → Prop where
  | unreadable (h : s.Undiscovered ∨ First (Opened.Whole s.depth) Opened.Unreadable s.openedFiles) :
      Ends s (.exit 1)
  | refused (h : First (Opened.Whole s.depth) (Opened.Refused s.depth) s.openedFiles) :
      Ends s (.exit 2)
  | escapes {f : Failure} (h : s.Escapes) : Ends s (.uncaught f)
  | made {r : Registry} {bytes : List UInt8} (hr : s.IsRegistry r)
      (h : s.arguments.format.encode r = .ok bytes) : Ends s (.exit 0)

theorem ends (ha : s.arguments.HasStrategy) : s.Ends s.outcome.ending := by
  rcases run_cases ha with h | h | h | ⟨r, bytes, hr, h⟩
  · rw [ending_of_unreadable ha h]
    exact .unreadable h
  · rw [ending_of_refused h]
    exact .refused h
  · obtain ⟨f, hf⟩ := ending_of_escapes ha h
    rw [hf]
    exact .escapes h
  · rw [ending_of_registry hr h]
    exact .made hr h

theorem ending_one_iff (ha : s.arguments.HasStrategy) :
    s.outcome.ending = .exit 1 ↔
      s.Undiscovered ∨ First (Opened.Whole s.depth) Opened.Unreadable s.openedFiles := by
  refine ⟨fun he => ?_, ending_of_unreadable ha⟩
  cases he ▸ ends ha with
  | unreadable h => exact h

theorem ending_two_iff (ha : s.arguments.HasStrategy) :
    s.outcome.ending = .exit 2 ↔
      First (Opened.Whole s.depth) (Opened.Refused s.depth) s.openedFiles := by
  refine ⟨fun he => ?_, ending_of_refused⟩
  cases he ▸ ends ha with
  | refused h => exact h

theorem ending_zero_iff (ha : s.arguments.HasStrategy) :
    s.outcome.ending = .exit 0 ↔
      ∃ r bytes, s.IsRegistry r ∧ s.arguments.format.encode r = .ok bytes := by
  constructor
  · intro he
    cases he ▸ ends ha with
    | made hr h => exact ⟨_, _, hr, h⟩
  · rintro ⟨r, bytes, hr, h⟩
    exact ending_of_registry hr h

theorem ending_exit_iff (ha : s.arguments.HasStrategy) :
    (∃ code ≤ 2, s.outcome.ending = .exit code) ↔ ¬ s.Escapes := by
  constructor
  · rintro ⟨code, -, he⟩ h
    obtain ⟨f, hf⟩ := ending_of_escapes ha h
    rw [hf] at he
    cases he
  · intro hn
    rcases run_cases ha with h | h | h | ⟨r, bytes, hr, h⟩
    · exact ⟨1, by decide, ending_of_unreadable ha h⟩
    · exact ⟨2, by decide, ending_of_refused h⟩
    · exact absurd h hn
    · exact ⟨0, by decide, ending_of_registry hr h⟩

/-! ## The output -/

theorem document_eq_ok_iff : s.document = .ok bytes ↔
    ∃ r, s.IsRegistry r ∧ s.arguments.format.encode r = .ok bytes := by
  simp only [document, bind_eq_ok_iff, mapError_eq_ok_iff, registry_eq_ok_iff]

/-- Standard output is the whole document of the complete registry, in the format that is asked for,
or nothing, and it is the document just if the run ends with the exit code 0. -/
structure AllOrNothing (s : Session) (o : Outcome) : Prop where
  whole : o.output = [] ∨ ∃ r, s.IsRegistry r ∧
    (if s.arguments.json then Format.json else .messagePack).encode r = .ok o.output
  made : o.output ≠ [] ↔ o.ending = .exit 0

/-- The output is all or nothing unless records stand on it. -/
theorem allOrNothing_iff : s.AllOrNothing s.outcome ↔ s.printed = [] := by
  cases h : s.document with
  | error f =>
      have he : s.outcome.ending ≠ .exit 0 := by
        rw [ending_eq, h]
        exact endingOf_ne_exit_zero f
      rw [← output_of_error h]
      constructor
      · intro ha
        by_contra hne
        exact he (ha.made.1 hne)
      · intro ho
        exact ⟨.inl ho, by simp [ho, he]⟩
  | ok bytes =>
      obtain ⟨r, hr, hb⟩ := document_eq_ok_iff.1 h
      have hne := Format.encode_ne_nil hb
      obtain ⟨before, after, ho, hp⟩ := output_of_ok h
      rw [hp]
      constructor
      · intro ha
        rcases ha.whole with hn | ⟨r', hr', hb'⟩
        · rw [ho] at hn
          simp [hne] at hn
        · -- There is one document only, and it leaves no room for records.
          have hd := h.symm.trans (document_eq_ok_iff.2 ⟨r', hr', hb'⟩)
          rw [ho, Except.ok.injEq] at hd
          have hlength := congrArg List.length hd
          simp only [List.length_append] at hlength
          have hzero : (before ++ after).length = 0 := by
            rw [List.length_append]
            omega
          exact List.length_eq_zero_iff.1 hzero
      · intro hn
        obtain ⟨rfl, rfl⟩ := List.append_eq_nil_iff.1 hn
        rw [List.nil_append, List.append_nil] at ho
        exact ⟨.inr ⟨r, hr, ho ▸ hb⟩, by simp [ho, hne, ending_of_ok h]⟩

end Session

/-! ## Runs -/

variable {limits : Limits} {t t' : FileTree} {env : Environment} {stamp : Log.Entry → Text}
  {argv : List Text} {a : Arguments} {file : Option LogFile} {s : Session}

theorem run_of_setUp (h : parse argv = .arguments a) (hs : setUp limits t env stamp a = .ok s) :
    run limits t env stamp argv = s.outcome := by
  simp only [run, h, hs]

theorem setUp_of_openLog (limits : Limits) (env : Environment)
    (hl : openLog t stamp a = .ok (t', file)) :
    setUp limits t env stamp a = match chooseThreshold a env with
      | .error cause => .error ⟨.uncaught (.badThreshold cause), [], [], t'⟩
      | .ok threshold => .ok ⟨limits, t', file, threshold, a, env⟩ := by
  unfold setUp
  cases chooseThreshold a env with
  | error cause => simp only [hl]
  | ok threshold => simp only [hl]

theorem setUp_eq_ok_iff : setUp limits t env stamp a = .ok s ↔ ∃ t' file threshold,
    openLog t stamp a = .ok (t', file) ∧ chooseThreshold a env = .ok threshold ∧
      s = ⟨limits, t', file, threshold, a, env⟩ := by
  cases hl : openLog t stamp a with
  | error e =>
      obtain ⟨path, cause⟩ := e
      cases cause <;> simp [setUp, hl]
  | ok p =>
      obtain ⟨t', file⟩ := p
      rw [setUp_of_openLog limits env hl]
      cases chooseThreshold a env with
      | error cause => simp
      | ok threshold => simp [eq_comm]

theorem setUp_error {o : Outcome} (h : setUp limits t env stamp a = .error o) :
    o.output = [] ∧ o.ending ≠ .exit 0 := by
  unfold setUp at h
  split at h
  · cases h
    exact ⟨rfl, by simp⟩
  · cases h
    exact ⟨rfl, by simp⟩
  · split at h
    · cases h
      exact ⟨rfl, by simp⟩
    · cases h

/-- A run whose log file can be opened is set up, or ends for the name of its threshold. Once it is
set up, it ends with an exit code unless it fails in a way that has none. The code is 1 if the
folder is not found or the first file at fault cannot be read, 2 if that file has a line that is
refused, and 0 if the document is made. -/
theorem run_ending (env : Environment) (h : parse argv = .arguments a)
    (hl : openLog t stamp a = .ok (t', file)) :
    ((∃ s, setUp limits t env stamp a = .ok s) ∨ ∃ cause, chooseThreshold a env = .error cause ∧
      (run limits t env stamp argv).ending = .uncaught (.badThreshold cause)) ∧
    ∀ s, setUp limits t env stamp a = .ok s →
      ((∃ code ≤ 2, (run limits t env stamp argv).ending = .exit code) ↔ ¬ s.Escapes) ∧
      ((run limits t env stamp argv).ending = .exit 1 ↔
        s.Undiscovered ∨ First (Opened.Whole limits.containers) Opened.Unreadable s.openedFiles) ∧
      ((run limits t env stamp argv).ending = .exit 2 ↔
        First (Opened.Whole limits.containers) (Opened.Refused limits.containers) s.openedFiles) ∧
      ((run limits t env stamp argv).ending = .exit 0 ↔
        ∃ r bytes, s.IsRegistry r ∧ a.format.encode r = .ok bytes) := by
  constructor
  · have hset := setUp_of_openLog limits env hl
    cases ht : chooseThreshold a env with
    | ok threshold =>
        rw [ht] at hset
        exact .inl ⟨_, hset⟩
    | error cause =>
        rw [ht] at hset
        exact .inr ⟨cause, rfl, by simp only [run, h, hset]⟩
  · intro s hs
    rw [run_of_setUp h hs]
    obtain ⟨t', file, threshold, -, -, rfl⟩ := setUp_eq_ok_iff.1 hs
    have ha := hasStrategy_of_parse h
    exact ⟨Session.ending_exit_iff ha, Session.ending_one_iff ha, Session.ending_two_iff ha,
      Session.ending_zero_iff ha⟩

/-- A file with a line that is no JSON. -/
theorem run_ending_malformed :
    (run ⟨990, 980⟩ (.single [120]) {} (fun _ => []) ["--index", "f"]).ending = .exit 2 := by
  have hp : parse ["--index", "f"] = .arguments { index := some (.text "f") } := by decide
  have hl : openLog (.single [120]) (fun _ => []) { index := some (.text "f") } =
    .ok (.single [120], none) := rfl
  refine ((run_ending {} hp hl).2 (.single [120]) rfl).2.2.1.2 ?_
  rw [Session.openedFiles_single]
  exact .head ⟨[120], "x", rfl, by decide, .head (.malformed (by decide) rfl)⟩

/-- A crate whose name is a surrogate, which no document can hold. -/
theorem run_ending_surrogate :
    ¬ ∃ code, (run ⟨990, 980⟩ (.single ((bareLine "\\ud800" "1").flatMap CodePoint.utf8)) {}
      (fun _ => []) ["--index", "f"]).ending = .exit code := by
  have hp : parse ["--index", "f"] = .arguments { index := some (.text "f") } := by decide
  have hr : Opened.registry 990 ⟨"f", .ok ((bareLine "\\ud800" "1").flatMap CodePoint.utf8)⟩ =
      .ok (.ofList [(registryName [⟨0xD800, by decide⟩], .ofList [("1", ∅)])]) :=
    toOption_eq_some.1 (by decide +kernel)
  have he : Format.messagePack.encode (Registry.merge .replace
      [.ofList [(registryName [⟨0xD800, by decide⟩], .ofList [("1", ∅)])]]).1 =
      .error ⟨5, [⟨0xD800, by decide⟩]⟩ := by decide +kernel
  obtain ⟨f, hf⟩ := Session.ending_of_escapes (hasStrategy_of_parse hp)
    (.unencodable (Session.isRegistry_single hr) he)
  rintro ⟨code, hc⟩
  rw [run_of_setUp (s := .single _) hp rfl] at hc
  cases hf.symm.trans hc

/-- A run that is set up leaves the whole document of the complete registry on standard output, or
nothing, just if no record is printed there, and none is unless the log is kept in that stream. A
run that is not set up leaves nothing there. -/
theorem run_output (h : parse argv = .arguments a) :
    (a.json = true ↔ ∃ w ∈ optionWords argv, w ∈ jsonWords) ∧
    (∀ o, setUp limits t env stamp a = .error o →
      (run limits t env stamp argv).output = [] ∧
        (run limits t env stamp argv).ending ≠ .exit 0) ∧
    ∀ s, setUp limits t env stamp a = .ok s →
      (s.AllOrNothing (run limits t env stamp argv) ↔ s.printed = []) ∧
      (s.stream? ≠ some .output → s.printed = []) ∧
      ∀ r bytes, s.IsRegistry r →
        (if a.json then Format.json else .messagePack).encode r = .ok bytes → s.printed = [] →
        (run limits t env stamp argv).output = bytes := by
  refine ⟨json_of_parse h, fun o ho => ?_, fun s hs => ?_⟩
  · have hrun : run limits t env stamp argv = o := by simp only [run, h, ho]
    rw [hrun]
    exact setUp_error ho
  · rw [run_of_setUp h hs]
    refine ⟨Session.allOrNothing_iff, Session.printed_of_stream, fun r bytes hr hb hp => ?_⟩
    obtain ⟨t', file, threshold, -, -, rfl⟩ := setUp_eq_ok_iff.1 hs
    rw [Session.output_of_unprinted hp, Session.document_of_registry hr hb]
    rfl

/-- The MessagePack document of one crate. -/
theorem run_output_bare :
    (run ⟨990, 980⟩ (.single ((bareLine "c" "1").flatMap CodePoint.utf8)) {} (fun _ => [])
      ["--index", "f"]).output =
      [0x81, 0xA6, 0x74, 0x65, 0x73, 0x74, 0x2F, 0x63, 0x81, 0xA1, 0x31, 0x80] := by
  have hp : parse ["--index", "f"] = .arguments { index := some (.text "f") } := by decide
  have hr : Opened.registry 990 ⟨"f", .ok ((bareLine "c" "1").flatMap CodePoint.utf8)⟩ =
      .ok (.ofList [("test/c", .ofList [("1", ∅)])]) := toOption_eq_some.1 (by decide +kernel)
  have hs : setUp ⟨990, 980⟩ (.single ((bareLine "c" "1").flatMap CodePoint.utf8)) {} (fun _ => [])
    { index := some (.text "f") } = .ok (.single ((bareLine "c" "1").flatMap CodePoint.utf8)) := rfl
  obtain ⟨-, hstream, hwhole⟩ := (run_output hp).2.2 _ hs
  have hp := hstream (by simp [Session.stream?, Session.single])
  exact hwhole _ _ (Session.isRegistry_single hr) (by decide +kernel) hp

/-- The log is kept on standard output. The index file is no JSON, and the record that says so
stands where no document does. -/
theorem run_output_logOnOutput :
    let o := run ⟨990, 980⟩ (FileTree.single [120]).addDevices {}
      (fun _ => "2024-01-01 00:00:00,000") ["--index", "f", "--logfile", "/dev/stdout"]
    o.ending = .exit 2 ∧ o.output = (Text.ofString
      "2024-01-01 00:00:00,000 ERROR root f:1: invalid JSON: Expecting value, aborting\n").flatMap
        CodePoint.utf8 := by
  constructor
  · cbv
  · cbv

end CrateIndex.CommandLine
