import CrateIndex.Proofs.Decimal.Canonical
import CrateIndex.Proofs.Registry.Merging
import Mathlib.Algebra.GroupWithZero.Nat
import Mathlib.Data.Finset.Card
import Mathlib.Data.List.DropRight

/-!
# What replacing loses

The policy that replaces packages is compared with the one that keeps all versions. It never has
anything else, and a version that it lacks was counted in a warning when it went.
-/

namespace CrateIndex.Registry

open OrderedMap

variable {p v : Text} {ranges : Dependencies} {rs : List Registry}

theorem version?_merge_union_of_replace
    (h : version? (merge .replace rs).1 p v = some ranges) :
    version? (merge .union rs).1 p v = some ranges := by
  obtain ⟨pkg, hp, hv⟩ := Option.bind_eq_some_iff.1 h
  obtain ⟨r, ⟨pre, post, rfl, -, hpost⟩, hr⟩ := get?_merge_replace.1 hp
  have hrv : version? r p v = some ranges := by rw [version?, hr, Option.bind_some, hv]
  -- A registry that lacks the package lacks its versions.
  refine version?_merge_union.2 ⟨r, ⟨pre, post, rfl, by simp [hrv], ?_⟩, hrv⟩
  intro q hq hqv
  exact hpost q hq (mem_keys_of_version? hqv)

/-! ## One package -/

/-- The versions of the first registry that the second one lacks. -/
def missing (u m : Registry) : Finset (Text × Text) := u.versionNames \ m.versionNames

theorem mem_missing {u m : Registry} :
    (p, v) ∈ missing u m ↔ (u.version? p v).isSome ∧ m.version? p v = none := by
  rw [missing, Finset.mem_sdiff, mem_versionNames, mem_versionNames, Bool.not_eq_true,
    Option.isSome_eq_false_iff, Option.isNone_iff_eq_none]

/-- The versions of `old`, under the name of its package, that `new` lacks. -/
def lostNames (name : Text) (old new : Package) : Finset (Text × Text) :=
  ((old.keys.filter fun v => !new.contains v).map fun v => (name, v)).toFinset

theorem card_lostNames_le (name : Text) (old new : Package) :
    (lostNames name old new).card ≤ lostCount old new := by
  refine (List.toFinset_card_le _).trans ?_
  rw [List.length_map, lostCount]

/-- The counts in the warnings of replaced packages, added up. -/
def lostTotal (lost : List Replacement) : Nat := (lost.map Replacement.lost).sum

theorem lostTotal_mergeEntry (m : Registry) (e : Text × Package) :
    lostTotal (mergeEntry .replace m e).2 = lostCount ((m.get? e.1).getD ∅) e.2 := by
  unfold mergeEntry
  cases m.get? e.1 with
  | none => rfl
  | some old =>
      simp only [replacements, Option.getD_some]
      split
      · rename_i h
        rw [h]
        rfl
      · exact Nat.add_zero _

/-- What is missing after a package arrived was missing before, or it is lost now. -/
theorem missing_mergeEntry_subset (u m : Registry) (e : Text × Package) :
    missing (mergeEntry .union u e).1 (mergeEntry .replace m e).1 ⊆
      missing u m ∪ lostNames e.1 ((m.get? e.1).getD ∅) e.2 := by
  obtain ⟨name, new⟩ := e
  rintro ⟨p, v⟩ h
  rw [mem_missing, mergeEntry_union, mergeEntry_replace, graft, version?_insert,
    version?_insert] at h
  rw [Finset.mem_union, mem_missing]
  obtain ⟨hu, hm⟩ := h
  by_cases hp : p = name
  · -- The new package lacks the version, so the old one decides whether it goes now.
    subst hp
    rw [if_pos rfl, get?_insertAll_entries] at hu
    rw [if_pos rfl] at hm
    rw [hm, Option.none_or, ← version?_eq] at hu
    cases hv : m.version? p v with
    | none => exact .inl ⟨hu, rfl⟩
    | some ranges =>
        right
        have hold : v ∈ ((m.get? p).getD ∅).keys := by
          rw [mem_keys_iff, ← version?_eq, hv]
          rfl
        simp [lostNames, hold, contains, hm]
  · rw [if_neg hp] at hu hm
    exact .inl ⟨hu, hm⟩

theorem card_missing_mergeEntry (u m : Registry) (e : Text × Package) :
    (missing (mergeEntry .union u e).1 (mergeEntry .replace m e).1).card ≤
      (missing u m).card + lostTotal (mergeEntry .replace m e).2 := by
  calc (missing (mergeEntry .union u e).1 (mergeEntry .replace m e).1).card
    _ ≤ (missing u m ∪ lostNames e.1 ((m.get? e.1).getD ∅) e.2).card :=
      Finset.card_le_card (missing_mergeEntry_subset u m e)
    _ ≤ (missing u m).card + (lostNames e.1 ((m.get? e.1).getD ∅) e.2).card :=
      Finset.card_union_le _ _
    _ ≤ (missing u m).card + lostTotal (mergeEntry .replace m e).2 := by
      rw [lostTotal_mergeEntry]
      exact Nat.add_le_add_left (card_lostNames_le _ _ _) _

/-! ## A whole run -/

theorem lostTotal_append (xs ys : List Replacement) :
    lostTotal (xs ++ ys) = lostTotal xs + lostTotal ys := by
  rw [lostTotal, List.map_append, List.sum_append]
  rfl

theorem card_missing_mergeEntries (u m : Registry) (es : List (Text × Package)) :
    (missing (mergeEntries .union u es).1 (mergeEntries .replace m es).1).card ≤
      (missing u m).card + lostTotal (mergeEntries .replace m es).2 := by
  induction es generalizing u m with
  | nil => exact Nat.le_add_right _ _
  | cons e es ih =>
      have hstep := card_missing_mergeEntry u m e
      have hrest := ih (mergeEntry .union u e).1 (mergeEntry .replace m e).1
      simp only [mergeEntries, lostTotal_append]
      omega

theorem card_missing_mergeInto (u m : Registry) (rs : List Registry) :
    (missing (mergeInto .union u rs).1 (mergeInto .replace m rs).1).card ≤
      (missing u m).card + lostTotal (mergeInto .replace m rs).2 := by
  induction rs generalizing u m with
  | nil => exact Nat.le_add_right _ _
  | cons r rs ih =>
      have hstep := card_missing_mergeEntries u m r.entries
      have hrest := ih (mergeEntries .union u r.entries).1 (mergeEntries .replace m r.entries).1
      simp only [mergeInto, lostTotal_append]
      omega

theorem card_missing_merge (rs : List Registry) :
    (missing (merge .union rs).1 (merge .replace rs).1).card ≤
      lostTotal (merge .replace rs).2 := by
  have h := card_missing_mergeInto ∅ ∅ rs
  have h0 : missing ∅ ∅ = ∅ := rfl
  rwa [h0, Finset.card_empty, Nat.zero_add] at h

theorem sameContent_of_missing (h : missing (merge .union rs).1 (merge .replace rs).1 = ∅) :
    SameContent (merge .replace rs).1 (merge .union rs).1 where
  packages p := by rw [mem_keys_merge, mem_keys_merge]
  versions p v := by
    cases hr : version? (merge .replace rs).1 p v with
    | some ranges => exact (version?_merge_union_of_replace hr).symm
    | none =>
        cases hu : version? (merge .union rs).1 p v with
        | none => rfl
        | some ranges =>
            have hm : (p, v) ∈ missing (merge .union rs).1 (merge .replace rs).1 :=
              mem_missing.2 ⟨by rw [hu]; rfl, hr⟩
            rw [h] at hm
            exact absurd hm (Finset.notMem_empty _)

/-! ## What the warnings say -/

/-- What stands behind the count in a warning about lost versions. -/
def lossWords : Text := " earlier version(s)"

/-- The count that a record states: the digits in front of those words at its end. -/
def statedLoss (e : Log.Entry) : Nat :=
  if lossWords.isSuffixOf e.message then
    Decimal.value ((e.message.rdrop lossWords.length).rtakeWhile CodePoint.isDigit)
  else 0

theorem rtakeWhile_append_of_all {f : CodePoint → Bool} {front digits : Text} {c : CodePoint}
    (hc : ¬ f c = true) (h : ∀ d ∈ digits, f d = true) :
    (front ++ [c] ++ digits).rtakeWhile f = digits := by
  induction digits using List.reverseRecOn with
  | nil => rw [List.append_nil, List.rtakeWhile_concat_neg _ _ _ hc]
  | append_singleton digits d ih =>
      rw [List.forall_mem_append, List.forall_mem_singleton] at h
      rw [← List.append_assoc, List.rtakeWhile_concat_pos _ _ _ h.2, ih h.1]

theorem statedLoss_entry (r : Replacement) : statedLoss r.entry = r.lost := by
  -- A blank stands in front of the count.
  have hblank : (" appears in more than one index file; replacing " : Text) =
      " appears in more than one index file; replacing" ++ [CodePoint.ofChar ' '] := by
    decide +kernel
  obtain ⟨front, hm⟩ : ∃ front : Text,
      r.entry.message = front ++ [CodePoint.ofChar ' '] ++ Decimal.text r.lost ++ lossWords :=
    ⟨"Package " ++ r.package ++ " appears in more than one index file; replacing", by
      simp only [Replacement.entry, hblank, lossWords, List.append_assoc]⟩
  have hs : lossWords.isSuffixOf r.entry.message = true := by
    rw [hm, List.isSuffixOf_iff_suffix]
    exact List.suffix_append _ _
  rw [statedLoss, if_pos hs, hm, List.rdrop_append_length,
    rtakeWhile_append_of_all (by decide) (Decimal.isDigit_text r.lost), Decimal.value_text]

/-- The warnings of a log. -/
def warnings (log : List Log.Entry) : List Log.Entry := log.filter fun e => e.level = .warning

theorem statedLoss_warnings (lost : List Replacement) :
    ((warnings (lost.map Replacement.entry)).map statedLoss).sum = lostTotal lost := by
  have hw : warnings (lost.map Replacement.entry) = lost.map Replacement.entry := by
    rw [warnings, List.filter_eq_self]
    rintro _ he
    obtain ⟨r, -, rfl⟩ := List.mem_map.1 he
    rfl
  rw [hw, List.map_map, lostTotal]
  exact congrArg List.sum (List.map_congr_left fun r _ => statedLoss_entry r)

/-- Replacing keeps no version that keeping all would not have, with the same dependencies. What it
lacks is no more than its warnings state, added up, and without a warning it lacks nothing. -/
theorem merge_losses (rs : List Registry) :
    (∀ p v ranges, version? (merge .replace rs).1 p v = some ranges →
      version? (merge .union rs).1 p v = some ranges) ∧
    ((merge .union rs).1.versionNames \ (merge .replace rs).1.versionNames).card ≤
      ((warnings (mergeAll .replace rs : Logged Failure Registry).log).map statedLoss).sum ∧
    (warnings (mergeAll .replace rs : Logged Failure Registry).log = [] →
      SameContent (merge .replace rs).1 (merge .union rs).1) := by
  have hstated : ((warnings (mergeAll .replace rs : Logged Failure Registry).log).map
      statedLoss).sum = lostTotal (merge .replace rs).2 := statedLoss_warnings _
  have hcard := card_missing_merge rs
  rw [← hstated] at hcard
  refine ⟨fun p v ranges => version?_merge_union_of_replace, ?_, fun hlog => ?_⟩
  · rwa [missing] at hcard
  · rw [hlog, List.map_nil, List.sum_nil] at hcard
    exact sameContent_of_missing (Finset.card_eq_zero.1 (Nat.le_zero.1 hcard))

/-- A package that loses one of two versions, and says so, and keeps the other with its new
dependencies; and one that gains a version. -/
theorem merge_losses_crabs :
    version? (merge .union [.ofList [("a", .ofList [("1", ∅), ("2", ∅)])],
        .ofList [("a", .ofList [("2", .ofList [("b", "^1")])])]]).1 "a" "2" =
      some (.ofList [("b", "^1")]) ∧
    ((merge .union [.ofList [("a", .ofList [("1", ∅), ("2", ∅)])],
        .ofList [("a", .ofList [("2", .ofList [("b", "^1")])])]]).1.versionNames \
      (merge .replace [.ofList [("a", .ofList [("1", ∅), ("2", ∅)])],
        .ofList [("a", .ofList [("2", .ofList [("b", "^1")])])]]).1.versionNames).card ≤ 1 ∧
    SameContent (merge .replace [.ofList [("a", .ofList [("1", ∅)])], ∅,
        .ofList [("a", .ofList [("1", ∅), ("2", ∅)])]]).1
      (merge .union [.ofList [("a", .ofList [("1", ∅)])], ∅,
        .ofList [("a", .ofList [("1", ∅), ("2", ∅)])]]).1 := by
  refine ⟨(merge_losses _).1 "a" "2" _ (by decide +kernel), ?_,
    (merge_losses _).2.2 (by decide +kernel)⟩
  refine (merge_losses _).2.1.trans (Nat.le_of_eq ?_)
  decide +kernel

end CrateIndex.Registry
