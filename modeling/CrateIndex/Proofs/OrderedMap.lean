import CrateIndex.OrderedMap
import Mathlib.Data.List.Induction

/-!
# Ordered maps by their keys and values

An ordered map is told by its keys, in order, and the value of each. What setting entries does is
said for these two: the keys are those of both sides, each at its first appearance, and the later
value of a key counts. Maps of maps are united key by key.
-/

namespace CrateIndex.OrderedMap

variable {κ κ' ν : Type} [DecidableEq κ] [DecidableEq κ']

/-! ## Lookup -/

theorem lookup_eq_none_iff {es : List (κ × ν)} {k : κ} :
    es.lookup k = none ↔ k ∉ es.map Prod.fst := by
  induction es with
  | nil => simp
  | cons e es ih =>
      obtain ⟨a, b⟩ := e
      by_cases h : k = a
      · simp [h]
      · have hb : (k == a) = false := by simpa using h
        simp [List.lookup_cons, hb, h, ih]

theorem mem_keys_iff {m : OrderedMap κ ν} {k : κ} : k ∈ m.keys ↔ (m.get? k).isSome := by
  rw [Option.isSome_iff_ne_none, get?, Ne, lookup_eq_none_iff, not_not]
  rfl

theorem lookup_eq_some_iff {es : List (κ × ν)} (hn : (es.map Prod.fst).Nodup) {k : κ} {v : ν} :
    es.lookup k = some v ↔ (k, v) ∈ es := by
  induction es with
  | nil => simp
  | cons e es ih =>
      obtain ⟨a, b⟩ := e
      obtain ⟨ha, hes⟩ := List.nodup_cons.1 hn
      by_cases h : k = a
      · -- No later entry has the key of the first one.
        have hk (w : ν) : (a, w) ∉ es := fun hm => ha (List.mem_map.2 ⟨(a, w), hm, rfl⟩)
        simp [h, hk, eq_comm]
      · have hb : (k == a) = false := by simpa using h
        simp [List.lookup_cons, hb, h, ih hes]

theorem eq_of_lookup {es fs : List (κ × ν)} (hn : (es.map Prod.fst).Nodup)
    (hk : es.map Prod.fst = fs.map Prod.fst) (hl : ∀ k, es.lookup k = fs.lookup k) : es = fs := by
  induction es generalizing fs with
  | nil => exact (List.map_eq_nil_iff.1 hk.symm).symm
  | cons e es ih =>
      cases fs with
      | nil => cases hk
      | cons f fs =>
          obtain ⟨a, b⟩ := e
          obtain ⟨a', b'⟩ := f
          simp only [List.map_cons, List.cons.injEq] at hk
          obtain ⟨rfl, hk⟩ := hk
          have hb : b = b' := by simpa using hl a
          have hna : a ∉ es.map Prod.fst := (List.nodup_cons.1 hn).1
          have htail : es = fs := by
            refine ih (List.nodup_cons.1 hn).2 hk ?_
            intro k
            by_cases h : k = a
            · -- The key of the head is in neither tail.
              rw [h, lookup_eq_none_iff.2 hna, lookup_eq_none_iff.2 (hk ▸ hna)]
            · have hne : (k == a) = false := by simpa using h
              simpa [List.lookup_cons, hne] using hl k
          rw [hb, htail]

/-- Two maps with the same keys in the same order and the same values are equal. -/
theorem ext_get? {m n : OrderedMap κ ν} (hk : m.keys = n.keys) (hg : ∀ k, m.get? k = n.get? k) :
    m = n :=
  ext (eq_of_lookup m.nodup hk hg)

theorem insert_of_get? {m : OrderedMap κ ν} {k : κ} {v : ν} (h : m.get? k = some v) :
    m.insert k v = m := by
  refine ext_get? ?_ fun j => ?_
  · rw [keys_insert, if_pos (mem_keys_iff.2 (by simp [h]))]
  · rw [get?_insert]
    split
    · next hj => rw [hj, h]
    · rfl

theorem keys_insert_of_get? {m : OrderedMap κ ν} {k : κ} (h : m.get? k = none) (v : ν) :
    (m.insert k v).keys = m.keys ++ [k] := by
  rw [keys_insert, if_neg (by simp [mem_keys_iff, h])]

/-! ## Order of first appearance -/

/-- The keys of a list, each at its first appearance. -/
def distinct (ks : List κ) : List κ := ks.eraseDups

theorem mem_distinct {ks : List κ} {k : κ} : k ∈ distinct ks ↔ k ∈ ks := List.mem_eraseDups

theorem distinct_concat (ks : List κ) (k : κ) :
    distinct (ks ++ [k]) = if k ∈ ks then distinct ks else distinct ks ++ [k] := by
  rw [distinct, List.eraseDups_append]
  by_cases h : k ∈ ks <;> simp [distinct, List.removeAll, List.eraseDups_cons, h]

theorem nodup_distinct (ks : List κ) : (distinct ks).Nodup := by
  induction ks using List.reverseRecOn with
  | nil => exact List.nodup_nil
  | append_singleton ks k ih =>
      rw [distinct_concat]
      split
      · exact ih
      · rename_i hk
        refine List.nodup_append.2 ⟨ih, by simp, ?_⟩
        rintro a ha b hb rfl
        rw [List.mem_singleton] at hb
        exact hk (mem_distinct.1 (hb ▸ ha))

theorem distinct_of_nodup {ks : List κ} (h : ks.Nodup) : distinct ks = ks := by
  induction ks using List.reverseRecOn with
  | nil => rfl
  | append_singleton ks k ih =>
      obtain ⟨hks, -, hd⟩ := List.nodup_append.1 h
      have hk : k ∉ ks := fun hk => hd k hk k (List.mem_singleton_self k) rfl
      rw [distinct_concat, if_neg hk, ih hks]

@[simp] theorem distinct_keys (m : OrderedMap κ ν) : distinct m.keys = m.keys :=
  distinct_of_nodup m.nodup

theorem distinct_append_of_subset {ks ls : List κ} (h : ls ⊆ ks) :
    distinct (ks ++ ls) = distinct ks := by
  induction ls using List.reverseRecOn with
  | nil => rw [List.append_nil]
  | append_singleton ls l ih =>
      obtain ⟨hls, hl⟩ := List.append_subset.1 h
      rw [← List.append_assoc, distinct_concat, if_pos, ih hls]
      exact List.mem_append_left ls (hl (List.mem_singleton_self l))

@[simp] theorem distinct_append_distinct (ks ls : List κ) :
    distinct (ks ++ distinct ls) = distinct (ks ++ ls) := by
  induction ls using List.reverseRecOn with
  | nil => rfl
  | append_singleton ls l ih =>
      rw [distinct_concat, ← List.append_assoc, distinct_concat]
      by_cases hl : l ∈ ls
      · simp [hl, ih]
      · rw [if_neg hl, ← List.append_assoc, distinct_concat, ih]
        simp [mem_distinct]

@[simp] theorem distinct_distinct_append (ks ls : List κ) :
    distinct (distinct ks ++ ls) = distinct (ks ++ ls) := by
  induction ls using List.reverseRecOn with
  | nil => rw [List.append_nil, List.append_nil, distinct_of_nodup (nodup_distinct ks)]
  | append_singleton ls l ih =>
      rw [← List.append_assoc, ← List.append_assoc, distinct_concat, distinct_concat, ih]
      simp [mem_distinct]

/-! ## Setting entries -/

theorem keys_insert_eq_distinct (m : OrderedMap κ ν) (k : κ) (v : ν) :
    (m.insert k v).keys = distinct (m.keys ++ [k]) := by
  rw [keys_insert, distinct_concat, distinct_keys]

theorem keys_insertAll (m : OrderedMap κ ν) (es : List (κ × ν)) :
    (m.insertAll es).keys = distinct (m.keys ++ es.map Prod.fst) := by
  induction es generalizing m with
  | nil => simp [insertAll]
  | cons e es ih =>
      have hfold : m.insertAll (e :: es) = (m.insert e.1 e.2).insertAll es := rfl
      rw [hfold, ih, keys_insert_eq_distinct, distinct_distinct_append, List.append_assoc]
      rfl

theorem get?_insertAll_of_nodup {es : List (κ × ν)} (hn : (es.map Prod.fst).Nodup)
    (m : OrderedMap κ ν) (k : κ) : (m.insertAll es).get? k = (es.lookup k).or (m.get? k) := by
  induction es generalizing m with
  | nil => rfl
  | cons e es ih =>
      obtain ⟨a, b⟩ := e
      obtain ⟨ha, hes⟩ := List.nodup_cons.1 hn
      have hfold : m.insertAll ((a, b) :: es) = (m.insert a b).insertAll es := rfl
      rw [hfold, ih hes, get?_insert]
      by_cases h : k = a
      · -- No later entry has the key of the first one.
        rw [h, lookup_eq_none_iff.2 ha]
        simp
      · have hb : (k == a) = false := by simpa using h
        simp [List.lookup_cons, hb, h]

theorem get?_insertAll_entries (m q : OrderedMap κ ν) (k : κ) :
    (m.insertAll q.entries).get? k = (q.get? k).or (m.get? k) :=
  get?_insertAll_of_nodup q.nodup m k

theorem keys_insertAll_entries (m q : OrderedMap κ ν) :
    (m.insertAll q.entries).keys = distinct (m.keys ++ q.keys) := keys_insertAll m q.entries

@[simp] theorem insertAll_empty (q : OrderedMap κ ν) : insertAll ∅ q.entries = q := by
  refine ext_get? ?_ ?_
  · rw [keys_insertAll_entries]
    exact distinct_keys q
  · intro k
    rw [get?_insertAll_entries, get?_empty, Option.or_none]

@[simp] theorem insertAll_self (m : OrderedMap κ ν) : m.insertAll m.entries = m := by
  refine ext_get? ?_ ?_
  · rw [keys_insertAll_entries, distinct_append_of_subset (List.Subset.refl _), distinct_keys]
  · intro k
    rw [get?_insertAll_entries, Option.or_self]

theorem insertAll_insert (m q : OrderedMap κ ν) (k : κ) (v : ν) :
    m.insertAll (q.insert k v).entries = (m.insertAll q.entries).insert k v := by
  refine ext_get? ?_ ?_
  · simp [keys_insertAll_entries, keys_insert_eq_distinct, List.append_assoc]
  · intro k'
    rw [get?_insertAll_entries, get?_insert, get?_insert, get?_insertAll_entries]
    by_cases h : k' = k <;> simp [h]

theorem insertAll_insertAll (m q : OrderedMap κ ν) (es : List (κ × ν)) :
    m.insertAll (q.insertAll es).entries = (m.insertAll q.entries).insertAll es := by
  induction es generalizing q with
  | nil => rfl
  | cons e es ih =>
      calc m.insertAll ((q.insert e.1 e.2).insertAll es).entries
        _ = (m.insertAll (q.insert e.1 e.2).entries).insertAll es := ih (q.insert e.1 e.2)
        _ = ((m.insertAll q.entries).insert e.1 e.2).insertAll es := by rw [insertAll_insert]

/-! ## Maps of maps -/

/-- The map with entries set in what it has for a key, be it nothing. -/
def graft (m : OrderedMap κ (OrderedMap κ' ν)) (k : κ) (es : List (κ' × ν)) :
    OrderedMap κ (OrderedMap κ' ν) :=
  m.insert k (((m.get? k).getD ∅).insertAll es)

/-- The map with the maps of a later one grafted on it. -/
def unite (m r : OrderedMap κ (OrderedMap κ' ν)) : OrderedMap κ (OrderedMap κ' ν) :=
  r.entries.foldl (fun m e => m.graft e.1 e.2.entries) m

theorem keys_graft (m : OrderedMap κ (OrderedMap κ' ν)) (k : κ) (es : List (κ' × ν)) :
    (m.graft k es).keys = distinct (m.keys ++ [k]) := keys_insert_eq_distinct m k _

theorem get?_graft (m : OrderedMap κ (OrderedMap κ' ν)) (k j : κ) (es : List (κ' × ν)) :
    (m.graft k es).get? j =
      if j = k then some (((m.get? k).getD ∅).insertAll es) else m.get? j :=
  get?_insert m k j _

theorem keys_unite (m r : OrderedMap κ (OrderedMap κ' ν)) :
    (unite m r).keys = distinct (m.keys ++ r.keys) := by
  have hfold (es : List (κ × OrderedMap κ' ν)) (m : OrderedMap κ (OrderedMap κ' ν)) :
      (es.foldl (fun m e => m.graft e.1 e.2.entries) m).keys =
        distinct (m.keys ++ es.map Prod.fst) := by
    induction es generalizing m with
    | nil => simp
    | cons e es ih =>
        rw [List.foldl_cons, ih, keys_graft, distinct_distinct_append, List.append_assoc]
        rfl
  exact hfold r.entries m

theorem get?_unite (m r : OrderedMap κ (OrderedMap κ' ν)) (k : κ) :
    (unite m r).get? k =
      match r.get? k with
      | none => m.get? k
      | some q => some (((m.get? k).getD ∅).insertAll q.entries) := by
  have hfold (es : List (κ × OrderedMap κ' ν)) (hn : (es.map Prod.fst).Nodup)
      (m : OrderedMap κ (OrderedMap κ' ν)) :
      (es.foldl (fun m e => m.graft e.1 e.2.entries) m).get? k =
        match es.lookup k with
        | none => m.get? k
        | some q => some (((m.get? k).getD ∅).insertAll q.entries) := by
    induction es generalizing m with
    | nil => rfl
    | cons e es ih =>
        obtain ⟨a, q⟩ := e
        obtain ⟨ha, hes⟩ := List.nodup_cons.1 hn
        rw [List.foldl_cons, ih hes, get?_graft]
        by_cases h : k = a
        · rw [h, lookup_eq_none_iff.2 ha]
          simp
        · have hb : (k == a) = false := by simpa using h
          simp [List.lookup_cons, hb, h]
  exact hfold r.entries r.nodup m

theorem getD_get?_unite (m r : OrderedMap κ (OrderedMap κ' ν)) (k : κ) :
    ((unite m r).get? k).getD ∅ =
      ((m.get? k).getD ∅).insertAll ((r.get? k).getD ∅).entries := by
  rw [get?_unite]
  cases r.get? k with
  | none => rfl
  | some q => rfl

@[simp] theorem unite_empty (m : OrderedMap κ (OrderedMap κ' ν)) : unite m ∅ = m := rfl

@[simp] theorem empty_unite (r : OrderedMap κ (OrderedMap κ' ν)) : unite ∅ r = r := by
  refine ext_get? ?_ ?_
  · rw [keys_unite]
    exact distinct_keys r
  · intro k
    rw [get?_unite]
    cases r.get? k with
    | none => rfl
    | some q => simp

@[simp] theorem unite_self (m : OrderedMap κ (OrderedMap κ' ν)) : unite m m = m := by
  refine ext_get? ?_ ?_
  · rw [keys_unite, distinct_append_of_subset (List.Subset.refl _), distinct_keys]
  · intro k
    rw [get?_unite]
    cases m.get? k with
    | none => rfl
    | some q => simp

/-- Grafting on the later map or on the united one is the same. -/
theorem unite_graft (m r : OrderedMap κ (OrderedMap κ' ν)) (k : κ) (es : List (κ' × ν)) :
    unite m (r.graft k es) = (unite m r).graft k es := by
  refine ext_get? ?_ ?_
  · simp [keys_unite, keys_graft, List.append_assoc]
  · intro j
    rw [get?_unite, get?_graft, get?_graft]
    by_cases h : j = k
    · simp only [h, ↓reduceIte, insertAll_insertAll, getD_get?_unite]
    · simp only [h, ↓reduceIte, get?_unite]

theorem unite_assoc (m q r : OrderedMap κ (OrderedMap κ' ν)) :
    unite (unite m q) r = unite m (unite q r) := by
  have hfold (es : List (κ × OrderedMap κ' ν)) (q : OrderedMap κ (OrderedMap κ' ν)) :
      es.foldl (fun m e => m.graft e.1 e.2.entries) (unite m q) =
        unite m (es.foldl (fun m e => m.graft e.1 e.2.entries) q) := by
    induction es generalizing q with
    | nil => rfl
    | cons e es ih => rw [List.foldl_cons, List.foldl_cons, ← ih, unite_graft]
  exact hfold r.entries q

end CrateIndex.OrderedMap
