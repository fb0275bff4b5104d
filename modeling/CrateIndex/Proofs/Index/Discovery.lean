import CrateIndex.Proofs.Files.Reordering
import CrateIndex.Proofs.Files.Root
import CrateIndex.Proofs.Index.Search
import Mathlib

/-!
# What a search finds

A search finds those files whose names match the pattern's, each once and in the order of their
paths, in whatever order the folders list their names, and sees them where it can list the folders.
It fails exactly if the folder in which the pattern starts is not open to it.
-/

namespace CrateIndex.Index

open FileTree NamePattern

variable {limit : Nat} {t t' : FileTree} {pattern : Option Text} {p q : Text} {paths : List Text}

/-- The path is that of an index file that the pattern is for. -/
structure IsIndexFile (t : FileTree) (p q : Text) : Prop where
  names : Glob.NamesMatch p q
  listed : Glob.FoldersListed t p q
  isFile : t.isFile q = true
  notConfig : Path.base q ≠ "config.json"
  notVersionControl : (".git" : Text) ∉ Path.names q

theorem isRecordFile_iff : isRecordFile t q = true ↔
    t.isFile q = true ∧ Path.base q ≠ "config.json" ∧ (".git" : Text) ∉ Path.names q := by
  simp [isRecordFile, and_assoc]

theorem mem_filesOf_iff (ht : t.Proper) (h : ∀ n ∈ Glob.below p, Path.IsEntryName n) :
    q ∈ filesOf t p ↔ IsIndexFile t p q := by
  rw [filesOf, List.mem_mergeSort, List.mem_filter, isRecordFile_iff]
  constructor
  · rintro ⟨hm, hf, hc, hg⟩
    obtain ⟨hn, hl⟩ := (Glob.mem_expand_iff ht h hf).1 hm
    exact ⟨hn, hl, hf, hc, hg⟩
  · rintro ⟨hn, hl, hf, hc, hg⟩
    exact ⟨(Glob.mem_expand_iff ht h hf).2 ⟨hn, hl⟩, hf, hc, hg⟩

/-- The texts are in order, and no two are the same. -/
def Increasing (paths : List Text) : Prop :=
  paths.Pairwise fun s s' => Text.le s s' = true ∧ s ≠ s'

theorem increasing_filesOf (ht : t.Proper) (h : ∀ n ∈ Glob.below p, Path.IsEntryName n) :
    Increasing (filesOf t p) := by
  have hnodup : (filesOf t p).Nodup :=
    (List.mergeSort_perm _ _).nodup_iff.2 ((Glob.nodup_expand ht h).filter _)
  exact (Text.pairwise_sorted _).and hnodup

/-- Texts in order are told by which they are. -/
theorem Increasing.eq_of_mem_iff {paths' : List Text} (h : Increasing paths)
    (h' : Increasing paths') (hmem : ∀ q, q ∈ paths ↔ q ∈ paths') : paths = paths' := by
  have hperm : paths.Perm paths' :=
    (List.perm_ext_iff_of_nodup (h.imp And.right) (h'.imp And.right)).2 hmem
  refine hperm.eq_of_pairwise ?_ (h.imp And.left) (h'.imp And.left)
  intro s s' _ _
  exact Text.le_antisymm

theorem search_eq_error_iff (hp : fullPattern? t pattern = some p) {f : Failure} :
    (search limit t pattern).result = .error f ↔
      f = .noLocation (Glob.root p) ∧ t.isFolder (Glob.root p) = false ∨
      f = .unreadableLocation (Glob.root p) ∧ t.isFolder (Glob.root p) = true ∧
        t.isOpen (Glob.root p) = false ∨
      f = .tooManyNames ∧ t.isOpen (Glob.root p) = true ∧ limit < Glob.innerNames p := by
  cases ho : t.isOpen (Glob.root p) with
  | true =>
      have hf := isFolder_of_isListed (isListed_of_isOpen ho)
      by_cases hi : limit < Glob.innerNames p
      · rw [search_of_deep hp ho hi]
        simp [Logged.fail, hf, hi, eq_comm]
      · rw [search_of_open hp ho (Nat.le_of_not_lt hi)]
        simp [hf, hi]
  | false =>
      cases hf : t.isFolder (Glob.root p) with
      | false =>
          rw [search_of_not_folder hp hf]
          simp [Logged.fail, eq_comm]
      | true =>
          rw [search_of_not_open hp hf ho]
          simp [Logged.fail, eq_comm]

theorem IsIndexFile.reorders (h : t.Reorders t') (hq : IsIndexFile t p q) : IsIndexFile t' p q where
  names := hq.names
  listed := fun i c hi hc => (h.isListed _).trans (hq.listed i c hi hc)
  isFile := (h.isFile q).trans hq.isFile
  notConfig := hq.notConfig
  notVersionControl := hq.notVersionControl

theorem fullPattern?_reorders (h : t.Reorders t') (pattern : Option Text) :
    fullPattern? t' pattern = fullPattern? t pattern := by
  have hhome : t'.expandHome? = t.expandHome? := funext h.expandHome?
  unfold fullPattern? defaultPattern?
  rw [hhome]

theorem search_reorders (h : t.Reorders t') (ht : t.Proper)
    (hp : fullPattern? t pattern = some p) (hbelow : ∀ n ∈ Glob.below p, Path.IsEntryName n) :
    search limit t' pattern = search limit t pattern := by
  have ht' : t'.Proper := fun place hplace => ht place (h.mem_keys_iff.1 hplace)
  have hp' : fullPattern? t' pattern = some p := (fullPattern?_reorders h pattern).trans hp
  have hfiles : filesOf t' p = filesOf t p := by
    refine (increasing_filesOf ht' hbelow).eq_of_mem_iff (increasing_filesOf ht hbelow) fun q => ?_
    rw [mem_filesOf_iff ht' hbelow, mem_filesOf_iff ht hbelow]
    exact ⟨fun hq => hq.reorders h.symm, fun hq => hq.reorders h⟩
  simp only [search, hp, hp', h.isFolder, h.isOpen, hfiles]

/-- The folder in which a wild pattern starts is listed for each file that the pattern is for. -/
theorem IsIndexFile.isListed_root (hq : IsIndexFile t p q) (hw : hasWild p = true) :
    t.isListed (Glob.root p) = true := by
  obtain ⟨pre, c, post, hnames, hpre, hc, hroot⟩ := Glob.root_eq_folderOf p
  have hwild : hasWild c = true := by
    refine hc.elim id ?_
    rintro rfl
    have hp := Path.eq_ended_append (List.cons_ne_nil c []) hnames
    have hplain : pre.any hasWild = false := List.any_eq_false.2 (by simpa using hpre)
    rw [hp, Glob.hasWild_append, Path.hasWild_ended, hplain, Bool.false_or] at hw
    simpa [Text.join] using hw
  have hmatch := hq.names
  rw [Glob.NamesMatch, hnames] at hmatch
  obtain ⟨front, rest, hfront, -, hqnames⟩ := forall₂_append_left_iff.1 hmatch
  obtain rfl := (Glob.standsFor_iff_eq hpre).1 hfront
  have hl := hq.listed front.length c (by simp [hnames]) hwild
  rwa [hqnames, List.take_left, List.nil_append, ← hroot] at hl

/-- A search finds the index files that its pattern is for and nothing else, in order and each once,
and listing the tree in another order changes nothing. It fails only if the pattern's root is no
folder, or one that cannot be both listed and entered, or if the pattern has too many names. Where
the root is at fault there are no such files, unless the pattern is the path of one in a folder that
cannot be listed. -/
theorem search_exact (limit : Nat) (ht : t.Proper) (hp : fullPattern? t pattern = some p)
    (hbelow : ∀ n ∈ Glob.below p, Path.IsEntryName n) :
    (∀ paths, (search limit t pattern).result = .ok paths →
      Increasing paths ∧ ∀ q, q ∈ paths ↔ IsIndexFile t p q) ∧
    (∀ t', t.Reorders t' → search limit t' pattern = search limit t pattern) ∧
    (∀ f, (search limit t pattern).result = .error f ↔
      f = .noLocation (Glob.root p) ∧ t.isFolder (Glob.root p) = false ∨
      f = .unreadableLocation (Glob.root p) ∧ t.isFolder (Glob.root p) = true ∧
        t.isOpen (Glob.root p) = false ∨
      f = .tooManyNames ∧ t.isOpen (Glob.root p) = true ∧ limit < Glob.innerNames p) ∧
    (t.isOpen (Glob.root p) = false → ∀ q, IsIndexFile t p q →
      hasWild p = false ∧ q = p ∧ t.isFolder (Glob.root p) = true ∧
        t.isListed (Glob.root p) = false) := by
  refine ⟨?_, fun t' h => search_reorders h ht hp hbelow, fun f => search_eq_error_iff hp, ?_⟩
  · intro paths hr
    obtain rfl := paths_of_search hp hr
    exact ⟨increasing_filesOf ht hbelow, fun q => mem_filesOf_iff ht hbelow⟩
  · intro ho q hq
    have hentered := Glob.enterable_root hbelow hq.names hq.isFile
    have hl : t.isListed (Glob.root p) = false := by
      by_contra hl
      rw [isOpen_of_enterable hentered (by simpa using hl)] at ho
      cases ho
    have hw : hasWild p = false := by
      by_contra hw
      rw [hq.isListed_root (by simpa using hw)] at hl
      cases hl
    exact ⟨hw, hq.names.eq_of_not_wild hw, hentered.isFolder, hl⟩

/-- A tree with a folder `ab` of an index, a link to it and one that leads nowhere. What no search
finds is in the folder too. -/
def mirror : FileTree where
  nodes := .ofList
    [(["i"], .folder), (["i", "ln"], .link "ab"), (["i", "dead"], .link "gone"),
      (["i", ".git"], .folder), (["i", ".git", "g"], .file []), (["i", "ab"], .folder),
      (["i", "ab", "g"], .file []), (["i", "ab", "f"], .file []),
      (["i", "ab", "config.json"], .file []), (["i", "ab", ".h"], .file [])]
  current := []
  home := "/"

theorem search_exact_mirror : mirror.Proper ∧
    fullPattern? mirror (some "i/*/[!a]*") = some "i/*/[!a]*" ∧
    (∀ n ∈ Glob.below "i/*/[!a]*", Path.IsEntryName n) ∧
    (search 980 mirror (some "i/*/[!a]*")).result = .ok ["i/ab/f", "i/ab/g", "i/ln/f", "i/ln/g"] ∧
    ∀ q, q ∈ [("i/ab/f" : Text), "i/ab/g", "i/ln/f", "i/ln/g"] ↔
      IsIndexFile mirror "i/*/[!a]*" q := by
  have ht : mirror.Proper := by decide +kernel
  have hp : fullPattern? mirror (some "i/*/[!a]*") = some "i/*/[!a]*" := by cbv
  have hbelow : ∀ n ∈ Glob.below "i/*/[!a]*", Path.IsEntryName n := by decide +kernel
  have hr : (search 980 mirror (some "i/*/[!a]*")).result =
      .ok ["i/ab/f", "i/ab/g", "i/ln/f", "i/ln/g"] := by cbv
  exact ⟨ht, hp, hbelow, hr, ((search_exact 980 ht hp hbelow).1 _ hr).2⟩

/-- The tree in which the folder `ab` cannot be listed. -/
def lockedMirror : FileTree :=
  { mirror with rights := fun place => { read := place != ["i", "ab"] } }

/-- The path matches the pattern name by name, and leads to a file that an index does not keep for
itself. -/
structure Fits (t : FileTree) (p q : Text) : Prop where
  names : List.Forall₂ (fun c n => if hasWild c = true then Matches c n else n = c)
    (Path.names p) (Path.names q)
  isFile : t.isFile q = true
  notConfig : Path.base q ≠ "config.json"
  notVersionControl : (".git" : Text) ∉ Path.names q

/-- A dot matches `.*` and leads on, but no folder lists it, so it is not found. Neither is a file
in a folder that cannot be listed. If the search starts in that folder, it fails, even if the
pattern is the path of a file there. -/
theorem search_mirror_misses :
    (mirror.Proper ∧ fullPattern? mirror (some "i/ab/.*/f") = some "i/ab/.*/f" ∧
      (∀ n ∈ Glob.below "i/ab/.*/f", Path.IsEntryName n) ∧
      Fits mirror "i/ab/.*/f" "i/ab/./f" ∧
      (search 980 mirror (some "i/ab/.*/f")).result = .ok []) ∧
    lockedMirror.Proper ∧
    (fullPattern? lockedMirror (some "i/*/[f]") = some "i/*/[f]" ∧
      (∀ n ∈ Glob.below "i/*/[f]", Path.IsEntryName n) ∧
      Fits lockedMirror "i/*/[f]" "i/ab/f" ∧
      (search 980 lockedMirror (some "i/*/[f]")).result = .ok []) ∧
    fullPattern? lockedMirror (some "i/ab/f") = some "i/ab/f" ∧
      (∀ n ∈ Glob.below "i/ab/f", Path.IsEntryName n) ∧
      lockedMirror.isFolder (Glob.root "i/ab/f") = true ∧
      IsIndexFile lockedMirror "i/ab/f" "i/ab/f" ∧
      (search 980 lockedMirror (some "i/ab/f")).result = .error (.unreadableLocation "i/ab") := by
  have hdot : Matches ".*" "." := takes_iff.1 (by decide +kernel)
  have hstar : Matches "*" "ab" := takes_iff.1 (by decide +kernel)
  have hset : Matches "[f]" "f" := takes_iff.1 (by decide +kernel)
  have hp : Path.names "i/ab/.*/f" = [("i" : Text), "ab", ".*", "f"] := by decide +kernel
  have hq : Path.names "i/ab/./f" = [("i" : Text), "ab", ".", "f"] := by decide +kernel
  have hp' : Path.names "i/*/[f]" = [("i" : Text), "*", "[f]"] := by decide +kernel
  have hq' : Path.names "i/ab/f" = [("i" : Text), "ab", "f"] := by decide +kernel
  have hplain : ∀ c ∈ Path.names "i/ab/f", hasWild c = false := by decide +kernel
  refine ⟨⟨by decide +kernel, by cbv, by decide +kernel, ⟨?_, by cbv, by decide +kernel,
    by decide +kernel⟩, by cbv⟩, by decide +kernel, ⟨by cbv, by decide +kernel, ⟨?_, by cbv,
    by decide +kernel, by decide +kernel⟩, by cbv⟩, by cbv, by decide +kernel, by cbv,
    ⟨(Glob.standsFor_iff_eq hplain).2 rfl, Glob.listed_of_not_wild _ _ hplain, by cbv,
    by decide +kernel, by decide +kernel⟩, by cbv⟩
  · rw [hp, hq]
    exact .cons rfl (.cons rfl (.cons hdot (.cons rfl .nil)))
  · rw [hp', hq']
    exact .cons rfl (.cons hstar (.cons hset .nil))

end CrateIndex.Index
