import CrateIndex.Index.Files
import CrateIndex.Proofs.Result

/-!
# The files that are opened

Files are opened one after the other, each with the log records made until then, and none behind a
file that fails. What they come to hangs on what each of them held at its turn, and on nothing
else.
-/

namespace CrateIndex.Index

open Result

/-- A path that was opened, and the bytes behind it at that time. -/
structure Opened where
  path : Text
  bytes : Except PathError (List UInt8)

/-- The registry of a file that was opened. -/
def Opened.registry (depth : Nat) (o : Opened) : Except Failure Registry :=
  (ofFile depth o.path o.bytes).result

/-- The files that are opened. The first that fails is the last of them. -/
def opened (depth : Nat) (read : Reader) (strategy : MergePolicy) (before : List Log.Entry)
    (merged : Registry) : List Text → List Opened
  | [] => []
  | path :: paths =>
    let step := mergeFile depth strategy merged path (read before path)
    ⟨path, read before path⟩ ::
      match step.result with
      | .ok merged => opened depth read strategy (before ++ step.log) merged paths
      | .error _ => []

variable {depth : Nat} {read : Reader} {strategy : MergePolicy} {before : List Log.Entry}
  {merged r : Registry} {path : Text} {paths : List Text}

theorem result_mergeFile (depth : Nat) (strategy : MergePolicy) (merged : Registry) (o : Opened) :
    (mergeFile depth strategy merged o.path o.bytes).result =
      (fun r : Registry => (Registry.mergeEntries strategy merged r.entries).1) <$>
        o.registry depth := by
  simp only [mergeFile, Logged.result_bind, Opened.registry]
  rfl

theorem opened_cons_of_ok (h : Opened.registry depth ⟨path, read before path⟩ = .ok r) :
    opened depth read strategy before merged (path :: paths) =
      ⟨path, read before path⟩ ::
        opened depth read strategy
          (before ++ (mergeFile depth strategy merged path (read before path)).log)
          (Registry.mergeEntries strategy merged r.entries).1 paths := by
  have hm := result_mergeFile depth strategy merged ⟨path, read before path⟩
  rw [h] at hm
  simp only [opened, hm]
  rfl

theorem opened_cons_of_error {f : Failure}
    (h : Opened.registry depth ⟨path, read before path⟩ = .error f) :
    opened depth read strategy before merged (path :: paths) = [⟨path, read before path⟩] := by
  have hm := result_mergeFile depth strategy merged ⟨path, read before path⟩
  rw [h] at hm
  simp only [opened, hm]
  rfl

theorem opened_singleton :
    opened depth read strategy before merged [path] = [⟨path, read before path⟩] := by
  cases h : Opened.registry depth ⟨path, read before path⟩ with
  | error f => rw [opened_cons_of_error h]
  | ok r => rw [opened_cons_of_ok h, opened]

theorem result_mergeFiles_cons :
    (mergeFiles depth read strategy before merged (path :: paths)).result =
      Opened.registry depth ⟨path, read before path⟩ >>= fun r =>
        (mergeFiles depth read strategy
          (before ++ (mergeFile depth strategy merged path (read before path)).log)
          (Registry.mergeEntries strategy merged r.entries).1 paths).result := by
  rw [mergeFiles, Logged.result_bind,
    result_mergeFile depth strategy merged ⟨path, read before path⟩]
  cases Opened.registry depth ⟨path, read before path⟩ with
  | error f => rfl
  | ok r => rfl

/-- The files merged are those that were opened; with one that fails there is no registry. -/
theorem toOption_mergeFiles (read : Reader) (strategy : MergePolicy) (before : List Log.Entry)
    (merged : Registry) (paths : List Text) :
    (mergeFiles depth read strategy before merged paths).result.toOption =
      ((opened depth read strategy before merged paths).mapM
        fun o : Opened => (o.registry depth).toOption).map
          fun rs => (Registry.mergeInto strategy merged rs).1 := by
  -- What was merged and logged before is general: both grow from file to file.
  induction paths generalizing before merged with
  | nil => rfl
  | cons path paths ih =>
      rw [result_mergeFiles_cons]
      cases h : Opened.registry depth ⟨path, read before path⟩ with
      | error f =>
          rw [opened_cons_of_error h, List.mapM_cons, h]
          rfl
      | ok r =>
          rw [opened_cons_of_ok h, List.mapM_cons, h, Result.ok_bind, ih]
          simp only [toOption_ok, Option.bind_eq_bind, Option.bind_some, Option.pure_def,
            Option.map_bind]
          exact Option.map_eq_bind

/-- Files that do not change while the others are read could as well be read all at once. -/
theorem mapM_opened_const (contents : Text → Except PathError (List UInt8))
    (strategy : MergePolicy) (before : List Log.Entry) (merged : Registry) (paths : List Text) :
    ((opened depth (fun _ => contents) strategy before merged paths).mapM
        fun o : Opened => (o.registry depth).toOption) =
      (paths.map fun path => ⟨path, contents path⟩).mapM
        fun o : Opened => (o.registry depth).toOption := by
  induction paths generalizing before merged with
  | nil => rfl
  | cons path paths ih =>
      cases h : Opened.registry depth ⟨path, contents path⟩ with
      | error f =>
          -- Nothing is opened behind the file, and nothing behind it counts.
          rw [opened_cons_of_error h, List.map_cons, List.mapM_cons, List.mapM_cons, h]
          rfl
      | ok r => rw [opened_cons_of_ok h, List.map_cons, List.mapM_cons, List.mapM_cons, ih]

theorem map_path_opened {rs : List Registry}
    (h : List.Forall₂ (fun o r => Opened.registry depth o = .ok r)
      (opened depth read strategy before merged paths) rs) :
    (opened depth read strategy before merged paths).map Opened.path = paths := by
  induction paths generalizing before merged rs with
  | nil => rfl
  | cons path paths ih =>
      cases hr : Opened.registry depth ⟨path, read before path⟩ with
      | error f =>
          rw [opened_cons_of_error hr] at h
          obtain ⟨r, -, ho, -, -⟩ := List.forall₂_cons_left_iff.1 h
          rw [hr] at ho
          cases ho
      | ok r =>
          rw [opened_cons_of_ok hr] at h ⊢
          obtain ⟨-, rs, -, h, -⟩ := List.forall₂_cons_left_iff.1 h
          rw [List.map_cons, ih h]

theorem mem_opened {o : Opened} (h : o ∈ opened depth read strategy before merged paths) :
    o.path ∈ paths ∧ ∃ before, o.bytes = read before o.path := by
  induction paths generalizing before merged with
  | nil => cases h
  | cons path paths ih =>
      cases hr : Opened.registry depth ⟨path, read before path⟩ with
      | error f =>
          rw [opened_cons_of_error hr, List.mem_singleton] at h
          subst h
          exact ⟨List.mem_cons_self, before, rfl⟩
      | ok r =>
          rw [opened_cons_of_ok hr] at h
          rcases List.mem_cons.1 h with rfl | h
          · exact ⟨List.mem_cons_self, before, rfl⟩
          · obtain ⟨hp, hb⟩ := ih h
            exact ⟨List.mem_cons_of_mem _ hp, hb⟩

theorem mergeFiles_fails {P : Failure → Prop}
    (h : First (fun o : Opened => Succeeds (o.registry depth))
      (fun o => Fails P (o.registry depth))
      (opened depth read strategy before merged paths)) :
    Fails P (mergeFiles depth read strategy before merged paths).result := by
  induction paths generalizing before merged with
  | nil => exact absurd h First.not_nil
  | cons path paths ih =>
      rw [result_mergeFiles_cons]
      cases hr : Opened.registry depth ⟨path, read before path⟩ with
      | error f =>
          rw [opened_cons_of_error hr] at h
          rcases h.cons_cases with hf | ⟨-, h⟩
          · rw [hr] at hf
            exact hf.bind
          · exact absurd h First.not_nil
      | ok r =>
          rw [opened_cons_of_ok hr] at h
          rcases h.cons_cases with ⟨f, hf, -⟩ | ⟨-, h⟩
          · rw [hr] at hf
            cases hf
          · exact ih h

end CrateIndex.Index
