import CrateIndex.Proofs.CommandLine.Endings
import CrateIndex.Proofs.Index.Reading

/-!
# The log and the result

A log is kept beside the work. It changes how a run ends only by what an index file holds at its
turn: the log file can be one of them. It is then read with the records that were made before, if
any of them weigh enough to be kept. What a run writes is changed also by records that stand on
standard output.
-/

namespace CrateIndex.CommandLine

open Index Result FileTree

/-- The arguments ask for the same document. They may differ in what they say of the log. -/
structure Arguments.SameWork (a a' : Arguments) : Prop where
  json : a.json = a'.json
  index : a.index = a'.index
  mergeStrategy : a.mergeStrategy = a'.mergeStrategy

/-- The document of a tree whose files hold still, or why there is none. -/
def documentOf (limits : Limits) (t : FileTree) (env : Environment) (a : Arguments) :
    Except Failure (List UInt8) := do
  let strategy ← a.strategy
  let paths ← (Index.search limits.names t (choosePattern a env)).result
  let r ← (mergeFiles limits.containers (fun _ => t.read) strategy [] ∅ paths).result
  (a.format.encode r).mapError .unencodable

theorem documentOf_congr (limits : Limits) (t : FileTree) {a a' : Arguments}
    {env env' : Environment} (hw : a.SameWork a') (he : env.index = env'.index) :
    documentOf limits t env a = documentOf limits t env' a' := by
  have hpattern : choosePattern a env = choosePattern a' env' := by
    rw [choosePattern, choosePattern, hw.index, he]
  have hstrategy : a.strategy = a'.strategy := by
    rw [Arguments.strategy, Arguments.strategy, hw.mergeStrategy]
  have hformat : a.format = a'.format := by rw [Arguments.format, Arguments.format, hw.json]
  rw [documentOf, documentOf, hpattern, hstrategy, hformat]

/-- The log is opened in the tree as it is, or in a file that is made for it. -/
theorem openLog_cases {t t' : FileTree} {stamp : Log.Entry → Text} {a : Arguments}
    {file : Option LogFile} (h : openLog t stamp a = .ok (t', file)) :
    t' = t ∨ ∃ place, t.IsFree place ∧ t' = t.addEmpty place ∧ file = some ⟨place, stamp⟩ := by
  unfold openLog at h
  split at h
  · cases h
    exact .inl rfl
  · next path _ =>
      simp only at h
      split at h
      · next u place hp =>
          cases h
          rcases openToAppend_cases hp with rfl | ⟨hfree, rfl⟩
          · exact .inl rfl
          · exact .inr ⟨place, hfree, rfl, rfl⟩
      · cases h

theorem openLog_of_opened {t t' : FileTree} (stamp : Log.Entry → Text) {a : Arguments} {path : Text}
    {place : Place} (hg : given a.logFile = some path)
    (h : t.openToAppend (t.absolute path) = .ok (t', place)) :
    openLog t stamp a = .ok (t', some ⟨place, stamp⟩) := by
  simp only [openLog, hg, h]

namespace Session

variable {limits : Limits} {t : FileTree} {env : Environment} {stamp : Log.Entry → Text}
  {a : Arguments} {s : Session} {o : Opened}

/-- Each index file holds at its turn what it held in the tree before the run. One that was not
there holds nothing. -/
def Undisturbed (t : FileTree) (s : Session) : Prop := ∀ o ∈ s.openedFiles, o.bytes = t.held o.path

/-- No index file is the log file. -/
def IsApart (s : Session) : Prop :=
  ∀ file paths, s.log = some file → s.search.result = .ok paths →
    ∀ path ∈ paths, ¬ s.tree.LeadsTo path file.place

/-- What is made on the way to a registry weighs too little to be kept, and the log file may be
read. -/
structure IsQuiet (s : Session) : Prop where
  threshold : Log.Level.warning.severity < s.threshold
  readable : ∀ file, s.log = some file → (s.tree.rights file.place).read = true

theorem mem_openedFiles (h : o ∈ s.openedFiles) :
    ∃ paths before, s.search.result = .ok paths ∧ o.path ∈ paths ∧
      (∀ e ∈ before, Log.Entry.IsMild e) ∧ o.bytes = s.reader before o.path := by
  obtain ⟨strategy, paths, hs, hp⟩ := found_of_mem_openedFiles h
  rw [openedFiles_of_found hs hp] at h
  have hstart : ∀ e ∈ startEntry :: s.search.log ++ [Index.startEntry strategy paths.length],
      e.IsMild := by
    intro e he
    rcases List.mem_append.1 he with he | he
    · rcases List.mem_cons.1 he with rfl | he
      · exact .inl rfl
      · exact mild_search _ _ _ e he
    · obtain rfl := List.mem_singleton.1 he
      exact .inr (.inl rfl)
  obtain ⟨before, hb, hr⟩ := mem_opened_of_mild hstart h
  exact ⟨paths, before, hp, (mem_opened h).1, hb, hr⟩

theorem isFile_of_mem_openedFiles (h : o ∈ s.openedFiles) : s.tree.isFile o.path = true := by
  obtain ⟨paths, -, hp, hm, -, -⟩ := mem_openedFiles h
  exact isFile_of_search hp hm

/-! ## Logs that are read in no index file -/

theorem bytes_of_isQuiet (h : s.IsQuiet) (ho : o ∈ s.openedFiles) :
    o.bytes = s.tree.read o.path := by
  obtain ⟨-, before, -, -, hb, hr⟩ := mem_openedFiles ho
  have hshown : s.shown before = [] := by
    rw [shown, List.filter_eq_nil_iff]
    intro e he hs
    have hle := (hb e he).severity_le
    have hlt := h.threshold
    simp only [Log.Entry.isShown, decide_eq_true_eq] at hs
    omega
  have htree : withLog s.tree s.log [] = s.tree := by
    cases s.log with
    | none => rfl
    | some file => exact append_nil s.tree file.place
  rw [hr, reader, hshown, htree]

theorem bytes_of_isApart (h : s.IsApart) (ho : o ∈ s.openedFiles) :
    o.bytes = s.tree.read o.path := by
  obtain ⟨paths, before, hp, hmem, -, hr⟩ := mem_openedFiles ho
  rw [hr, reader]
  cases hl : s.log with
  | none => rfl
  | some file => exact read_append (isFile_of_search hp hmem) (h file paths hl hp o.path hmem) _

theorem undisturbed_of_isQuiet (hs : setUp limits t env stamp a = .ok s) (h : s.IsQuiet) :
    s.Undisturbed t := by
  intro o ho
  have hf := isFile_of_mem_openedFiles ho
  rw [bytes_of_isQuiet h ho]
  obtain ⟨t', file, threshold, hl, -, rfl⟩ := setUp_eq_ok_iff.1 hs
  rcases openLog_cases hl with rfl | ⟨place, hfree, rfl, rfl⟩
  · exact (if_pos hf).symm
  · exact hfree.read (h.readable _ rfl) hf

theorem undisturbed_of_isApart (hs : setUp limits t env stamp a = .ok s) (h : s.IsApart) :
    s.Undisturbed t := by
  intro o ho
  have hf := isFile_of_mem_openedFiles ho
  obtain ⟨paths, -, hp, hm, -, -⟩ := mem_openedFiles ho
  rw [bytes_of_isApart h ho]
  obtain ⟨t', file, threshold, hl, -, rfl⟩ := setUp_eq_ok_iff.1 hs
  rcases openLog_cases hl with rfl | ⟨place, hfree, rfl, rfl⟩
  · exact (if_pos hf).symm
  · exact hfree.read_of_not_leadsTo hf (h _ paths rfl hp o.path hm)

/-! ## The document without a log -/

/-- The registry of files that hold still is that of the files, read one after the other. -/
theorem registry_of_undisturbed {strategy : MergePolicy} {paths : List Text}
    (hs : s.arguments.strategy = .ok strategy) (hp : s.search.result = .ok paths)
    (hu : s.Undisturbed t) :
    s.registry = (mergeFiles s.depth (fun _ => t.read) strategy [] ∅
      (paths.filter t.isFile)).result := by
  rw [Undisturbed, openedFiles_of_found hs hp] at hu
  rw [registry_of_found hs hp, result_mergeFiles_of_still [] hu, result_mergeFiles_held]

theorem filter_search (limit : Nat) (t : FileTree) (pattern : Option Text) :
    (fun paths => paths.filter t.isFile) <$> (Index.search limit t pattern).result =
      (Index.search limit t pattern).result := by
  cases h : (Index.search limit t pattern).result with
  | error f => rfl
  | ok paths => exact congrArg Except.ok (List.filter_eq_self.2 fun _ => isFile_of_search h)

theorem search_of_setUp (hs : setUp limits t env stamp a = .ok s) :
    (fun paths => paths.filter t.isFile) <$> s.search.result =
      (Index.search limits.names t (choosePattern a env)).result := by
  obtain ⟨t', file, threshold, hl, -, rfl⟩ := setUp_eq_ok_iff.1 hs
  rcases openLog_cases hl with rfl | ⟨place, hfree, rfl, rfl⟩
  · exact filter_search _ _ _
  · exact search_addEmpty _ hfree _

/-- The document does not hang on a log whose records are read in no index file. -/
theorem document_of_undisturbed (hs : setUp limits t env stamp a = .ok s)
    (hu : s.Undisturbed t) : s.document = documentOf limits t env a := by
  have hsearch := search_of_setUp hs
  obtain ⟨hd, ha⟩ : s.limits = limits ∧ s.arguments = a := by
    obtain ⟨t', file, threshold, -, -, rfl⟩ := setUp_eq_ok_iff.1 hs
    exact ⟨rfl, rfl⟩
  rw [document, documentOf, ← hsearch, ← ha, ← hd]
  cases hst : s.arguments.strategy with
  | error f => simp only [registry, hst, error_bind]
  | ok strategy =>
      cases hp : s.search.result with
      | error f => simp only [registry, hst, hp, ok_bind, error_bind]; rfl
      | ok paths => rw [registry_of_undisturbed hst hp hu]; rfl

end Session

/-! ## A log that is kept in the index file -/

/-- The arguments of a run that keeps its log in a file. -/
def loggedArguments (index logFile level : Text) : Arguments where
  index := some (.text index)
  logLevel := some (.text level)
  logFile := some (.text logFile)

/-- A run over the one file of a tree, in which the log is kept. -/
def Session.logged (content : List UInt8) (stamp : Log.Entry → Text) (level : Text)
    (threshold : Nat) : Session where
  limits := ⟨990, 980⟩
  tree := .single content
  log := some ⟨["f"], stamp⟩
  threshold := threshold
  arguments := loggedArguments "f" "f" level
  environment := {}

/-- The one index file is the log file, and holds the records made until it is opened. -/
theorem Session.openedFiles_logged (content : List UInt8) (stamp : Log.Entry → Text)
    (level : Text) (threshold : Nat) :
    (logged content stamp level threshold).openedFiles =
      [⟨"f", .ok (content ++ LogFile.bytes ⟨["f"], stamp⟩
        ((startEntry :: searchEntries "f" ["f"] ++ [Index.startEntry .replace 1]).filter
          (Log.Entry.isShown threshold)))⟩] := by
  have hs : (logged content stamp level threshold).search =
      ⟨searchEntries "f" ["f"], .ok ["f"]⟩ := search_single_eq _ content
  have hr (made : List Log.Entry) : (logged content stamp level threshold).reader made "f" =
      .ok (content ++ LogFile.bytes ⟨["f"], stamp⟩
        (made.filter (Log.Entry.isShown threshold))) := by
    show ((FileTree.single content).append ["f"] _).read "f" = _
    rw [append_single]
    exact read_single _
  rw [openedFiles_of_found rfl (congrArg Logged.result hs), opened_singleton, hr, hs,
    List.length_singleton]

/-! ## Two runs -/

variable {limits : Limits} {t : FileTree} {env env' : Environment} {stamp stamp' : Log.Entry → Text}
  {argv argv' : List Text} {a a' : Arguments} {s s' : Session}

/-- Two runs on one tree that are asked for the same document and differ in what they are told of
the log end alike, unless an index file holds records of a log when its turn comes. None does if the
threshold is above warnings, or if no index file is the log file. They write the same unless records
stand on standard output, and none do unless the log is kept in that stream. -/
theorem run_ignoresLogging (h : parse argv = .arguments a) (h' : parse argv' = .arguments a')
    (hw : a.SameWork a') (he : env.index = env'.index)
    (hs : setUp limits t env stamp a = .ok s) (hs' : setUp limits t env' stamp' a' = .ok s') :
    (s.Undisturbed t → s'.Undisturbed t →
      (run limits t env stamp argv).ending = (run limits t env' stamp' argv').ending ∧
      (s.printed = [] → s'.printed = [] →
        (run limits t env stamp argv).output = (run limits t env' stamp' argv').output)) ∧
    (s.IsQuiet ∨ s.IsApart → s.Undisturbed t) ∧
    (s.stream? ≠ some .output → s.printed = []) := by
  refine ⟨fun hu hu' => ?_, ?_, Session.printed_of_stream⟩
  · have hd : s.document = s'.document := by
      rw [Session.document_of_undisturbed hs hu, Session.document_of_undisturbed hs' hu',
        documentOf_congr limits t hw he]
    rw [run_of_setUp h hs, run_of_setUp h' hs', Session.ending_eq, Session.ending_eq, hd]
    refine ⟨rfl, fun hp hp' => ?_⟩
    rw [Session.output_of_unprinted hp, Session.output_of_unprinted hp', hd]
  · rintro (hq | ha)
    · exact Session.undisturbed_of_isQuiet hs hq
    · exact Session.undisturbed_of_isApart hs ha

/-- A log file is made in the folder that is searched, and found there with the index file. -/
theorem run_ignoresLogging_newFile :
    (run ⟨990, 980⟩ (.single ((bareLine "c" "1").flatMap CodePoint.utf8)) {} (fun _ => [])
      ["--index", "*"]).ending =
      (run ⟨990, 980⟩ (.single ((bareLine "c" "1").flatMap CodePoint.utf8)) {} (fun _ => [])
        ["--index", "*", "--logfile", "g", "--loglevel", "error"]).ending ∧
    (run ⟨990, 980⟩ (.single ((bareLine "c" "1").flatMap CodePoint.utf8)) {} (fun _ => [])
      ["--index", "*"]).output =
      (run ⟨990, 980⟩ (.single ((bareLine "c" "1").flatMap CodePoint.utf8)) {} (fun _ => [])
        ["--index", "*", "--logfile", "g", "--loglevel", "error"]).output := by
  have hp : parse ["--index", "*"] = .arguments { index := some (.text "*") } := by decide
  have hp' : parse ["--index", "*", "--logfile", "g", "--loglevel", "error"] =
      .arguments (loggedArguments "*" "g" "ERROR") := by decide
  have hs : setUp ⟨990, 980⟩ (.single ((bareLine "c" "1").flatMap CodePoint.utf8)) {} (fun _ => [])
    { index := some (.text "*") } = .ok ⟨_, _, none, Log.defaultThreshold, _, _⟩ := rfl
  have hl := openLog_of_opened (fun _ => []) (a := loggedArguments "*" "g" "ERROR") rfl
    (openToAppend_single_new ((bareLine "c" "1").flatMap CodePoint.utf8))
  have hs' : setUp ⟨990, 980⟩ (.single ((bareLine "c" "1").flatMap CodePoint.utf8)) {} (fun _ => [])
      (loggedArguments "*" "g" "ERROR") = .ok ⟨_, _, _, 40, _, _⟩ :=
    setUp_eq_ok_iff.2 ⟨_, _, 40, hl, by decide, rfl⟩
  obtain ⟨hsame, -, hprinted⟩ := run_ignoresLogging hp hp' ⟨rfl, rfl, rfl⟩ rfl hs hs'
  have hapart := Session.undisturbed_of_isApart hs fun _ _ h => by cases h
  have hquiet := Session.undisturbed_of_isQuiet hs' ⟨by decide, fun _ _ => rfl⟩
  obtain ⟨hending, houtput⟩ := hsame hapart hquiet
  exact ⟨hending, houtput (hprinted (by simp [Session.stream?])) (Session.printed_of_stream
    (by simp [Session.stream?, addEmpty, OrderedMap.get?_insert]))⟩

/-- An empty index file, in which the log is kept, is read with the records that were made before
its turn, and these are no lines of an index. -/
theorem run_ending_logInIndex :
    (run ⟨990, 980⟩ (.single []) {} (fun _ => "2024-01-01 00:00:00,000") ["--index", "f"]).ending =
      .exit 0 ∧
    (run ⟨990, 980⟩ (.single []) {} (fun _ => "2024-01-01 00:00:00,000")
      ["--index", "f", "--logfile", "f", "--loglevel", "info"]).ending = .exit 2 := by
  have hp : parse ["--index", "f"] = .arguments { index := some (.text "f") } := by decide
  have hp' : parse ["--index", "f", "--logfile", "f", "--loglevel", "info"] =
      .arguments (loggedArguments "f" "f" "INFO") := by decide
  constructor
  · rw [run_of_setUp (s := .single []) hp rfl]
    exact Session.ending_of_registry (Session.isRegistry_single (registry_of_empty "f")) rfl
  · have hl := openLog_of_opened (fun _ => "2024-01-01 00:00:00,000")
      (a := loggedArguments "f" "f" "INFO") rfl (openToAppend_single [])
    have hs : setUp ⟨990, 980⟩ (.single []) {} (fun _ => "2024-01-01 00:00:00,000")
        (loggedArguments "f" "f" "INFO") = .ok (.logged [] _ "INFO" 20) :=
      setUp_eq_ok_iff.2 ⟨_, _, 20, hl, by decide, rfl⟩
    rw [run_of_setUp hp' hs]
    refine Session.ending_of_coded (Session.document_fails_of_first (fun _ hf => hf) ?_)
    rw [Session.openedFiles_logged]
    exact .head (by decide +kernel)

end CrateIndex.CommandLine
