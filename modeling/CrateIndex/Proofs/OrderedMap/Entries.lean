import CrateIndex.Proofs.OrderedMap
import Mathlib.Data.List.Basic

/-!
# Ordered maps of entries

A map made of entries has their keys in the order of their first appearance, and of each key the
value of its last entry. So has each map inside a map of maps, of the entries with its key.
-/

namespace CrateIndex

/-- Of the list, `x` is the last item with the property `p`. -/
def Last {α : Type} (p : α → Prop) (x : α) (xs : List α) : Prop :=
  ∃ pre post, xs = pre ++ x :: post ∧ p x ∧ ∀ y ∈ post, ¬ p y

namespace Last

variable {α β : Type} {p : α → Prop} {x y : α} {xs : List α}

theorem not_nil : ¬ Last p x [] := by
  rintro ⟨pre, post, h, -⟩
  simp at h

theorem mem (h : Last p x xs) : x ∈ xs := by
  obtain ⟨pre, post, rfl, -⟩ := h
  simp

theorem holds (h : Last p x xs) : p x := by
  obtain ⟨pre, post, -, hx, -⟩ := h
  exact hx

theorem concat_iff : Last p x (xs ++ [y]) ↔ x = y ∧ p y ∨ ¬ p y ∧ Last p x xs := by
  constructor
  · rintro ⟨pre, post, h, hx, hpost⟩
    rcases List.eq_nil_or_concat post with rfl | ⟨post, z, rfl⟩
    · obtain ⟨-, h⟩ := List.append_inj' h rfl
      rw [List.singleton_inj] at h
      subst h
      exact .inl ⟨rfl, hx⟩
    · rw [List.concat_eq_append, ← List.cons_append, ← List.append_assoc] at h
      obtain ⟨hxs, h⟩ := List.append_inj' h rfl
      rw [List.singleton_inj] at h
      subst h
      exact .inr ⟨hpost y (by simp), pre, post, hxs, hx, fun z hz => hpost z (by simp [hz])⟩
  · rintro (⟨rfl, hy⟩ | ⟨hy, pre, post, rfl, hx, hpost⟩)
    · exact ⟨xs, [], rfl, hy, by simp⟩
    · refine ⟨pre, post ++ [y], by simp, hx, ?_⟩
      intro z hz
      rcases List.mem_append.1 hz with hz | hz
      · exact hpost z hz
      · exact List.mem_singleton.1 hz ▸ hy

theorem exists_iff : (∃ x, Last p x xs) ↔ ∃ x ∈ xs, p x := by
  constructor
  · rintro ⟨x, h⟩
    exact ⟨x, h.mem, h.holds⟩
  · intro h
    induction xs using List.reverseRecOn with
    | nil => simp at h
    | append_singleton xs y ih =>
        by_cases hy : p y
        · exact ⟨y, concat_iff.2 (.inl ⟨rfl, hy⟩)⟩
        · obtain ⟨x, hx⟩ := ih (by simpa [hy, or_and_right, exists_or] using h)
          exact ⟨x, concat_iff.2 (.inr ⟨hy, hx⟩)⟩

theorem map_iff {f : β → α} {ys : List β} :
    Last p x (ys.map f) ↔ ∃ y, f y = x ∧ Last (fun y => p (f y)) y ys := by
  constructor
  · rintro ⟨pre, post, h, hx, hpost⟩
    obtain ⟨pre, ys', rfl, -, h⟩ := List.map_eq_append_iff.1 h
    obtain ⟨y, post, rfl, rfl, rfl⟩ := List.map_eq_cons_iff.1 h
    exact ⟨y, rfl, pre, post, rfl, hx, fun z hz => hpost (f z) (List.mem_map_of_mem hz)⟩
  · rintro ⟨y, rfl, pre, post, rfl, hy, hpost⟩
    refine ⟨pre.map f, post.map f, by simp, hy, ?_⟩
    intro z hz
    obtain ⟨w, hw, rfl⟩ := List.mem_map.1 hz
    exact hpost w hw

theorem filter_iff {r : α → Bool} :
    Last p x (xs.filter r) ↔ Last (fun y => r y = true ∧ p y) x xs := by
  induction xs using List.reverseRecOn with
  | nil => exact ⟨fun h => (not_nil h).elim, fun h => (not_nil h).elim⟩
  | append_singleton xs y ih =>
      cases hy : r y <;> simp [List.filter_append, hy, concat_iff, ih]

/-- What a fold keeps of the items that have something is what the last of them has. -/
theorem fold_eq_some_iff {f : α → Option β} {g : List α → Option β} {b : β}
    (hnil : g [] = none) (hconcat : ∀ xs x, g (xs ++ [x]) = (f x).or (g xs)) :
    g xs = some b ↔ ∃ x, Last (fun x => (f x).isSome) x xs ∧ f x = some b := by
  induction xs using List.reverseRecOn with
  | nil => simp [hnil, not_nil]
  | append_singleton xs x ih =>
      rw [hconcat]
      cases hx : f x with
      | none => simp [hx, ih, concat_iff]
      | some a => simp [hx, concat_iff]

theorem isSome_fold_iff {f : α → Option β} {g : List α → Option β}
    (hnil : g [] = none) (hconcat : ∀ xs x, g (xs ++ [x]) = (f x).or (g xs)) :
    (g xs).isSome ↔ ∃ x ∈ xs, (f x).isSome := by
  rw [Option.isSome_iff_exists, ← Last.exists_iff]
  constructor
  · rintro ⟨b, hb⟩
    obtain ⟨x, hx, -⟩ := (fold_eq_some_iff hnil hconcat).1 hb
    exact ⟨x, hx⟩
  · rintro ⟨x, hx⟩
    obtain ⟨b, hb⟩ := Option.isSome_iff_exists.1 hx.holds
    exact ⟨b, (fold_eq_some_iff hnil hconcat).2 ⟨x, hx, hb⟩⟩

end Last

namespace OrderedMap

variable {κ κ' ν : Type} [DecidableEq κ] [DecidableEq κ']

/-- The keys are those of the list, each once, in the order of their first appearance. -/
structure ByAppearance (ks ls : List κ) : Prop where
  nodup : ks.Nodup
  mem_iff : ∀ k, k ∈ ks ↔ k ∈ ls
  order : ks.Pairwise fun k l => ls.idxOf k < ls.idxOf l

theorem byAppearance_distinct (ls : List κ) : ByAppearance (distinct ls) ls where
  nodup := nodup_distinct ls
  mem_iff _ := mem_distinct
  order := by
    induction ls using List.reverseRecOn with
    | nil => exact .nil
    | append_singleton ls l ih =>
        have hold : (distinct ls).Pairwise
            fun k m => (ls ++ [l]).idxOf k < (ls ++ [l]).idxOf m := by
          refine ih.imp_of_mem ?_
          intro k m hk hm hlt
          rwa [List.idxOf_append_of_mem (mem_distinct.1 hk),
            List.idxOf_append_of_mem (mem_distinct.1 hm)]
        rw [distinct_concat]
        split
        · exact hold
        · rename_i hl
          refine List.pairwise_append.2 ⟨hold, List.pairwise_singleton _ _, ?_⟩
          intro k hk m hm
          rw [List.mem_singleton.1 hm, List.idxOf_append_of_mem (mem_distinct.1 hk),
            List.idxOf_append_of_notMem hl]
          exact Nat.lt_add_right _ (List.idxOf_lt_length_of_mem (mem_distinct.1 hk))

/-- What a fold adds to the keys at hand comes after them, as far as it is new. -/
theorem fold_eq_distinct {α : Type} {f : α → List κ} {g : List α → List κ} (hnil : g [] = [])
    (hconcat : ∀ xs x, g (xs ++ [x]) = distinct (g xs ++ f x)) (xs : List α) :
    g xs = distinct (xs.flatMap f) := by
  induction xs using List.reverseRecOn with
  | nil => exact hnil
  | append_singleton xs x ih =>
      rw [hconcat, ih, distinct_distinct_append, List.flatMap_append, List.flatMap_singleton]

theorem keys_ofList (es : List (κ × ν)) : (ofList es).keys = distinct (es.map Prod.fst) :=
  keys_insertAll ∅ es

theorem ofList_concat (es : List (κ × ν)) (e : κ × ν) :
    ofList (es ++ [e]) = (ofList es).insert e.1 e.2 := by
  simp [ofList, insertAll]

theorem get?_ofList (es : List (κ × ν)) (k : κ) (v : ν) :
    (ofList es).get? k = some v ↔ Last (fun e => e.1 = k) (k, v) es := by
  induction es using List.reverseRecOn with
  | nil => simp [ofList, insertAll, Last.not_nil]
  | append_singleton es e ih =>
      obtain ⟨a, b⟩ := e
      rw [ofList_concat, get?_insert, Last.concat_iff]
      by_cases h : k = a
      · simp [h, eq_comm]
      · simp [h, Ne.symm h, ih]

/-- All keys have the property `P` and all values the property `Q`. -/
def Forall (P : κ → Prop) (Q : ν → Prop) (m : OrderedMap κ ν) : Prop :=
  ∀ e ∈ m.entries, P e.1 ∧ Q e.2

instance {P : κ → Prop} {Q : ν → Prop} [DecidablePred P] [DecidablePred Q] :
    DecidablePred (Forall P Q) := fun m =>
  inferInstanceAs (Decidable (∀ e ∈ m.entries, P e.1 ∧ Q e.2))

@[simp] theorem ofList_entries (m : OrderedMap κ ν) : ofList m.entries = m := insertAll_empty m

theorem entries_ofList_map {ν' : Type} (f : ν → ν') (m : OrderedMap κ ν) :
    (ofList (m.entries.map fun (k, v) => (k, f v))).entries =
      m.entries.map fun (k, v) => (k, f v) := by
  have hnodup : ((m.entries.map fun (k, v) => (k, f v)).map Prod.fst).Nodup := by
    simpa [Function.comp_def] using m.nodup
  exact congrArg entries (ofList_entries ⟨_, hnodup⟩)

/-! ## Maps of maps -/

/-- The map of maps of a list of entries, each with the two keys under which it stands. -/
def graftAll (es : List (κ × κ' × ν)) : OrderedMap κ (OrderedMap κ' ν) :=
  es.foldl (fun m e => m.graft e.1 [e.2]) ∅

theorem graftAll_concat (es : List (κ × κ' × ν)) (e : κ × κ' × ν) :
    graftAll (es ++ [e]) = (graftAll es).graft e.1 [e.2] := by
  simp [graftAll]

theorem keys_graftAll (es : List (κ × κ' × ν)) :
    (graftAll es).keys = distinct (es.map Prod.fst) := by
  induction es using List.reverseRecOn with
  | nil => rfl
  | append_singleton es e ih =>
      rw [graftAll_concat, keys_graft, ih, distinct_distinct_append, List.map_append]
      rfl

theorem getD_get?_graftAll (es : List (κ × κ' × ν)) (k : κ) :
    ((graftAll es).get? k).getD ∅ = ofList ((es.filter fun e => e.1 = k).map Prod.snd) := by
  induction es using List.reverseRecOn with
  | nil => rfl
  | append_singleton es e ih =>
      rw [graftAll_concat, get?_graft]
      by_cases h : k = e.1
      · subst h
        simp [ih, ofList_concat, insertAll]
      · simp [h, Ne.symm h, ih]

theorem get?_get?_graftAll (es : List (κ × κ' × ν)) (k : κ) (k' : κ') (v : ν) :
    (((graftAll es).get? k).getD ∅).get? k' = some v ↔
      Last (fun e => e.1 = k ∧ e.2.1 = k') (k, k', v) es := by
  rw [getD_get?_graftAll, get?_ofList, Last.map_iff]
  constructor
  · rintro ⟨⟨a, e⟩, rfl, h⟩
    obtain ⟨ha, -⟩ := (Last.filter_iff.1 h).holds
    obtain rfl : a = k := by simpa using ha
    simpa [Last.filter_iff] using h
  · intro h
    exact ⟨(k, k', v), rfl, by simpa [Last.filter_iff] using h⟩

end OrderedMap

end CrateIndex
