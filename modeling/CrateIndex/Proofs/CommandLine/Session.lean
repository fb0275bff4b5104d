import CrateIndex.Proofs.CommandLine.Arguments
import CrateIndex.Proofs.Files.Tree
import CrateIndex.Proofs.Index.Faults

/-!
# What a run comes to

A run with its log set up searches, opens files one after the other, and makes a registry. The
registry is that of all files that were found, or the first file at fault decides how the run ends.
-/

namespace CrateIndex.CommandLine

open Index Result

namespace Session

/-- The index files that are opened, each with what it holds at its turn. -/
def openedFiles (s : Session) : List Opened :=
  match s.arguments.strategy, s.search.result with
  | .ok strategy, .ok paths =>
    opened s.depth s.reader strategy
      (startEntry :: s.search.log ++ [Index.startEntry strategy paths.length]) ∅ paths
  | _, _ => []

/-- The folder in which the pattern starts is none, or cannot be listed and entered, and this is
found out. -/
def Undiscovered (s : Session) : Prop :=
  s.arguments.mergeStrategy ≠ .nothing ∧
  ∃ pattern, fullPattern? s.tree (choosePattern s.arguments s.environment) = some pattern ∧
    s.tree.isOpen (Glob.root pattern) = false

/-- The complete registry: every file that is found is opened and has a registry, and these are
merged in the order of the paths. -/
def IsRegistry (s : Session) (r : Registry) : Prop :=
  ∃ strategy paths partials,
    s.arguments.strategy = .ok strategy ∧ s.search.result = .ok paths ∧
    s.openedFiles.map Opened.path = paths ∧
    List.Forall₂ (fun o p => Opened.registry s.depth o = .ok p) s.openedFiles partials ∧
    r = (Registry.merge strategy partials).1

/-- The registry of a run, or why there is none. -/
def registry (s : Session) : Except Failure Registry := do
  let strategy ← s.arguments.strategy
  let paths ← s.search.result
  (ofFiles s.depth s.reader strategy (startEntry :: s.search.log) paths).result

variable {s : Session} {strategy : MergePolicy} {paths : List Text} {r : Registry}

theorem openedFiles_of_found (hs : s.arguments.strategy = .ok strategy)
    (hp : s.search.result = .ok paths) :
    s.openedFiles = opened s.depth s.reader strategy
      (startEntry :: s.search.log ++ [Index.startEntry strategy paths.length]) ∅ paths := by
  simp only [openedFiles, hs, hp]

theorem registry_of_found (hs : s.arguments.strategy = .ok strategy)
    (hp : s.search.result = .ok paths) :
    s.registry = (mergeFiles s.depth s.reader strategy
      (startEntry :: s.search.log ++ [Index.startEntry strategy paths.length]) ∅ paths).result := by
  rw [registry, hs, ok_bind, hp, ok_bind, ofFiles, Logged.result_bind, Logged.result_note, ok_bind]

theorem found_of_registry (h : s.registry = .ok r) :
    ∃ strategy paths, s.arguments.strategy = .ok strategy ∧ s.search.result = .ok paths := by
  unfold registry at h
  cases hs : s.arguments.strategy with
  | error f =>
      rw [hs] at h
      cases h
  | ok strategy =>
      cases hp : s.search.result with
      | error f =>
          rw [hs, hp] at h
          cases h
      | ok paths => exact ⟨strategy, paths, rfl, rfl⟩

theorem found_of_mem_openedFiles {o : Opened} (h : o ∈ s.openedFiles) :
    ∃ strategy paths, s.arguments.strategy = .ok strategy ∧ s.search.result = .ok paths := by
  unfold openedFiles at h
  split at h
  · next strategy paths hs hp => exact ⟨strategy, paths, hs, hp⟩
  · cases h

theorem toOption_registry (hs : s.arguments.strategy = .ok strategy)
    (hp : s.search.result = .ok paths) :
    s.registry.toOption =
      (s.openedFiles.mapM fun o : Opened => (o.registry s.depth).toOption).map
        fun rs => (Registry.merge strategy rs).1 := by
  rw [registry_of_found hs hp, openedFiles_of_found hs hp, toOption_mergeFiles]
  rfl

theorem registry_of_forall₂ {partials : List Registry} (hs : s.arguments.strategy = .ok strategy)
    (hp : s.search.result = .ok paths)
    (h : List.Forall₂ (fun o p => Opened.registry s.depth o = .ok p) s.openedFiles partials) :
    s.registry = .ok (Registry.merge strategy partials).1 := by
  have hm : (s.openedFiles.mapM fun o : Opened => (o.registry s.depth).toOption) =
      some partials := by
    simpa only [mapM_eq_some_iff, toOption_eq_some] using h
  rw [← toOption_eq_some, toOption_registry hs hp, hm]
  rfl

theorem registry_eq_ok_iff : s.registry = .ok r ↔ s.IsRegistry r := by
  constructor
  · intro h
    obtain ⟨strategy, paths, hs, hp⟩ := found_of_registry h
    have ho := toOption_registry hs hp
    rw [h, toOption_ok, eq_comm, Option.map_eq_some_iff] at ho
    obtain ⟨partials, hm, hr⟩ := ho
    have hf : List.Forall₂ (fun o p => Opened.registry s.depth o = .ok p) s.openedFiles
        partials := by
      simpa only [mapM_eq_some_iff, toOption_eq_some] using hm
    refine ⟨strategy, paths, partials, hs, hp, ?_, hf, hr.symm⟩
    rw [openedFiles_of_found hs hp] at hf ⊢
    exact map_path_opened hf
  · rintro ⟨strategy, paths, partials, hs, hp, -, hf, rfl⟩
    exact registry_of_forall₂ hs hp hf

theorem exists_isRegistry (hs : s.arguments.strategy = .ok strategy)
    (hp : s.search.result = .ok paths) (h : ∀ o ∈ s.openedFiles, o.Whole s.depth) :
    ∃ r, s.IsRegistry r := by
  obtain ⟨partials, hf⟩ := exists_forall₂ fun o ho => Opened.registry_of_whole (h o ho)
  exact ⟨_, registry_eq_ok_iff.1 (registry_of_forall₂ hs hp hf)⟩

/-- The first file at fault gives the failure. -/
theorem registry_fails_of_first {P : Failure → Prop} {bad : Opened → Prop}
    (hbad : ∀ o, bad o → Fails P (Opened.registry s.depth o))
    (h : First (Opened.Whole s.depth) bad s.openedFiles) : Fails P s.registry := by
  obtain ⟨pre, o, post, he, hpre, ho⟩ := h
  obtain ⟨strategy, paths, hs, hp⟩ :=
    found_of_mem_openedFiles (o := o) (by rw [he]; exact List.mem_append_right _ List.mem_cons_self)
  rw [registry_of_found hs hp]
  rw [openedFiles_of_found hs hp] at he
  exact mergeFiles_fails
    ⟨pre, o, post, he, fun o h => Opened.registry_of_whole (hpre o h), hbad o ho⟩

theorem bytes_ne_holdsNul {o : Opened} (h : o ∈ s.openedFiles) : o.bytes ≠ .error .holdsNul := by
  obtain ⟨strategy, paths, hs, hp⟩ := found_of_mem_openedFiles h
  rw [openedFiles_of_found hs hp] at h
  obtain ⟨ho, before, hb⟩ := mem_opened h
  intro hn
  -- The search takes only files, and a path to a file does not hold the code point zero.
  have hf : s.tree.isFile o.path = true := isFile_of_search hp ho
  rw [hb] at hn
  exact FileTree.not_holdsNul_of_isFile hf (FileTree.holdsNul_of_read hn)

/-- A run over the one file of a tree. -/
def single (content : List UInt8) : Session where
  limits := ⟨990, 980⟩
  tree := .single content
  log := none
  threshold := Log.defaultThreshold
  arguments := { index := some (.text "f") }
  environment := {}

theorem openedFiles_single (content : List UInt8) :
    (single content).openedFiles = [⟨"f", .ok content⟩] := by
  have hp : (single content).search.result = .ok ["f"] := search_single _ content
  have hr (before : List Log.Entry) : (single content).reader before "f" = .ok content :=
    FileTree.read_single content
  rw [openedFiles_of_found rfl hp, opened_singleton, hr]

theorem isRegistry_single {content : List UInt8} {r : Registry}
    (h : Opened.registry 990 ⟨"f", .ok content⟩ = .ok r) :
    (single content).IsRegistry (Registry.merge .replace [r]).1 := by
  have hp : (single content).search.result = .ok ["f"] := search_single _ content
  refine registry_eq_ok_iff.1 (registry_of_forall₂ rfl hp ?_)
  rw [openedFiles_single]
  exact .cons h .nil

end Session

end CrateIndex.CommandLine
