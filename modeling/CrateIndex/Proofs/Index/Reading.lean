import CrateIndex.Proofs.Files.Tree
import CrateIndex.Proofs.Index.Files

/-!
# Files that hold still

Where each file holds at its turn what it always holds, the registry does not hang on the records
made meanwhile, and files that say nothing can be left out. No record made on the way to a registry
weighs more than a warning.
-/

namespace CrateIndex

/-! ## The weight of records -/

/-- The record is at most a warning. -/
def Log.Entry.IsMild (e : Log.Entry) : Prop :=
  e.level = .debug ∨ e.level = .info ∨ e.level = .warning

theorem Log.Entry.IsMild.severity_le {e : Log.Entry} (h : e.IsMild) :
    e.level.severity ≤ Log.Level.warning.severity := by
  rcases h with h | h | h <;> rw [h] <;> decide

namespace Logged

variable {ε ε' α β : Type} {x : Logged ε α} {f : α → Logged ε β}

/-- All records made are at most warnings. -/
def Mild (x : Logged ε α) : Prop := ∀ e ∈ x.log, e.IsMild

theorem Mild.bind (hx : x.Mild) (hf : ∀ a, (f a).Mild) : (x >>= f).Mild := by
  intro e he
  cases hr : x.result with
  | error err =>
      rw [bind_error hr] at he
      exact hx e he
  | ok a =>
      rw [bind_ok hr] at he
      rcases List.mem_append.1 he with he | he
      · exact hx e he
      · exact hf a e he

theorem Mild.mapError (hx : x.Mild) (g : ε → ε') : (x.mapError g).Mild := hx

theorem mild_pure (a : α) : (pure a : Logged ε α).Mild := by
  intro e he
  cases he

theorem mild_ofExcept (r : Except ε α) : (ofExcept r).Mild := by
  intro e he
  cases he

theorem mild_note {e : Log.Entry} (h : e.IsMild) : (note e : Logged ε Unit).Mild := by
  intro e' he
  obtain rfl := List.mem_singleton.1 he
  exact h

end Logged

open Logged

theorem Requirement.mild_toRange (expr : Text) : (toRange expr).Mild := by
  refine (mild_ofExcept _).bind fun d => (mild_note ?_).bind fun _ => mild_pure _
  unfold entry
  split
  · exact .inl rfl
  · exact .inl rfl

theorem Record.mild_rangesFrom (ranges : Dependencies) (ds : List Dependency) :
    (rangesFrom ranges ds).Mild := by
  induction ds generalizing ranges with
  | nil => exact mild_pure ranges
  | cons d ds ih => exact (Requirement.mild_toRange _).bind fun _ => ih _

theorem Registry.mild_mergeNext {ε : Type} (strategy : MergePolicy) (merged next : Registry) :
    (mergeNext strategy merged next : Logged ε Registry).Mild := by
  intro e he
  obtain ⟨r, -, rfl⟩ := List.mem_map.1 he
  exact .inr (.inr rfl)

namespace Index

open Result

variable {depth : Nat} {read : Reader} {strategy : MergePolicy} {before : List Log.Entry}
  {merged : Registry} {paths : List Text} {o : Opened}

theorem mild_readLines (depth : Nat) (source : Option Text) (line : Nat) (registry : Registry)
    (lines : List Text) : (readLines depth source line registry lines).Mild := by
  induction lines generalizing line registry with
  | nil => exact mild_pure registry
  | cons s lines ih =>
      refine Mild.bind ?_ fun registry => ih (line + 1) registry
      unfold readLine
      split
      · exact mild_pure registry
      · exact (mild_ofExcept _).bind fun record =>
          ((Record.mild_rangesFrom ∅ record.needed).mapError _).bind fun _ => mild_pure _

theorem mild_mergeFile (depth : Nat) (strategy : MergePolicy) (merged : Registry) (path : Text)
    (bytes : Except PathError (List UInt8)) :
    (mergeFile depth strategy merged path bytes).Mild := by
  refine Mild.bind ?_ fun registry => Registry.mild_mergeNext strategy merged registry
  refine (mild_ofExcept _).bind fun text => ?_
  refine (mild_readLines depth (some path) 1 ∅ text.lines).bind fun registry => ?_
  exact (mild_note (.inl rfl)).bind fun _ => mild_pure registry

theorem mild_search (limit : Nat) (t : FileTree) (pattern : Option Text) :
    (search limit t pattern).Mild := by
  rcases search_cases limit t pattern with ⟨f, hs⟩ | ⟨p, -, hs⟩
  · rw [hs]
    exact mild_ofExcept _
  · rw [hs]
    intro e he
    simp only [searchEntries, List.mem_append, List.mem_singleton, List.mem_map] at he
    rcases he with (rfl | ⟨path, -, rfl⟩) | he
    · exact .inr (.inl rfl)
    · exact .inl rfl
    · split at he
      · obtain rfl := List.mem_singleton.1 he
        exact .inr (.inr rfl)
      · cases he

/-- A file is opened when at most warnings were made, if those made before are no more. -/
theorem mem_opened_of_mild (hb : ∀ e ∈ before, e.IsMild)
    (h : o ∈ opened depth read strategy before merged paths) :
    ∃ before, (∀ e ∈ before, Log.Entry.IsMild e) ∧ o.bytes = read before o.path := by
  induction paths generalizing before merged with
  | nil => cases h
  | cons path paths ih =>
      cases hr : Opened.registry depth ⟨path, read before path⟩ with
      | error f =>
          rw [opened_cons_of_error hr, List.mem_singleton] at h
          exact ⟨before, hb, by rw [h]⟩
      | ok r =>
          rw [opened_cons_of_ok hr] at h
          rcases List.mem_cons.1 h with rfl | h
          · exact ⟨before, hb, rfl⟩
          · refine ih (fun e he => ?_) h
            rcases List.mem_append.1 he with he | he
            · exact hb e he
            · exact mild_mergeFile depth strategy merged path _ e he

/-! ## Files that hold still -/

variable {contents : Text → Except PathError (List UInt8)}

/-- Files that hold at their turn what they always hold could as well be read without a log. -/
theorem result_mergeFiles_of_still (before' : List Log.Entry)
    (h : ∀ o ∈ opened depth read strategy before merged paths, o.bytes = contents o.path) :
    (mergeFiles depth read strategy before merged paths).result =
      (mergeFiles depth (fun _ => contents) strategy before' merged paths).result := by
  induction paths generalizing before before' merged with
  | nil => rfl
  | cons path paths ih =>
      rw [result_mergeFiles_cons, result_mergeFiles_cons]
      cases hr : Opened.registry depth ⟨path, read before path⟩ with
      | error f =>
          rw [opened_cons_of_error hr] at h
          rw [← h _ List.mem_cons_self, hr]
          rfl
      | ok r =>
          rw [opened_cons_of_ok hr] at h
          rw [← h _ List.mem_cons_self, hr]
          exact ih _ fun o ho => h o (List.mem_cons_of_mem _ ho)

theorem result_mergeFiles_congr {contents' : Text → Except PathError (List UInt8)}
    (before' : List Log.Entry) (h : ∀ path ∈ paths, contents path = contents' path) :
    (mergeFiles depth (fun _ => contents) strategy before merged paths).result =
      (mergeFiles depth (fun _ => contents') strategy before' merged paths).result := by
  refine result_mergeFiles_of_still before' fun o ho => ?_
  obtain ⟨hp, -, hb⟩ := mem_opened ho
  rw [hb, h o.path hp]

theorem registry_of_empty (path : Text) : Opened.registry depth ⟨path, .ok []⟩ = .ok ∅ := rfl

/-- Empty files can be left out. -/
theorem result_mergeFiles_filter (before before' : List Log.Entry) (keep : Text → Bool)
    (h : ∀ path ∈ paths, keep path = false → contents path = .ok []) :
    (mergeFiles depth (fun _ => contents) strategy before merged (paths.filter keep)).result =
      (mergeFiles depth (fun _ => contents) strategy before' merged paths).result := by
  induction paths generalizing before before' merged with
  | nil => rfl
  | cons path paths ih =>
      have htail : ∀ p ∈ paths, keep p = false → contents p = .ok [] :=
        fun p hp => h p (List.mem_cons_of_mem path hp)
      rw [result_mergeFiles_cons]
      cases hk : keep path with
      | false =>
          rw [List.filter_cons_of_neg (by simp [hk]), h path List.mem_cons_self hk,
            registry_of_empty]
          exact ih _ _ htail
      | true =>
          rw [List.filter_cons_of_pos hk, result_mergeFiles_cons]
          cases Opened.registry depth ⟨path, contents path⟩ with
          | error f => rfl
          | ok r => exact ih _ _ htail

end Index

end CrateIndex
