/-!
# Ordered maps

A finite map that remembers the order in which its keys first came. Writing a key that is present
changes its value and not its place; a new key goes to the end.
-/

namespace CrateIndex

/-- A finite map with its entries in the order of their keys' first insertion. -/
structure OrderedMap (κ ν : Type) where
  entries : List (κ × ν)
  nodup : (entries.map Prod.fst).Nodup

namespace OrderedMap

variable {κ ν : Type}

@[ext] theorem ext {m n : OrderedMap κ ν} (h : m.entries = n.entries) : m = n := by
  cases m; cases n; cases h; rfl

instance [DecidableEq κ] [DecidableEq ν] : DecidableEq (OrderedMap κ ν) := fun m n =>
  if h : m.entries = n.entries then isTrue (ext h) else isFalse fun e => h (e ▸ rfl)

/-- The map without entries. -/
def empty : OrderedMap κ ν := ⟨[], List.nodup_nil⟩

instance : EmptyCollection (OrderedMap κ ν) := ⟨empty⟩

instance : Inhabited (OrderedMap κ ν) := ⟨empty⟩

def keys (m : OrderedMap κ ν) : List κ := m.entries.map Prod.fst

def size (m : OrderedMap κ ν) : Nat := m.entries.length

/-- The first `n` keys of a sequence without repetitions, each with its value. -/
def tabulate (n : Nat) (key : Nat → κ) (val : Nat → ν) (inj : ∀ i j, key i = key j → i = j) :
    OrderedMap κ ν where
  entries := (List.range n).map fun i => (key i, val i)
  nodup := by
    have h : ((List.range n).map fun i => (key i, val i)).map Prod.fst =
        (List.range n).map key := by
      simp [Function.comp_def]
    rw [h, List.Nodup, List.pairwise_map]
    exact List.nodup_range.imp fun hne he => hne (inj _ _ he)

variable [DecidableEq κ]

/-- The value of a key. -/
def get? (m : OrderedMap κ ν) (k : κ) : Option ν := m.entries.lookup k

def contains (m : OrderedMap κ ν) (k : κ) : Bool := (m.get? k).isSome

/-- Entries with the value of `k` set: in its place if it is there, else at the end. -/
def setEntry (k : κ) (v : ν) : List (κ × ν) → List (κ × ν)
  | [] => [(k, v)]
  | e :: es => if e.1 = k then (k, v) :: es else e :: setEntry k v es

theorem keys_setEntry (k : κ) (v : ν) (es : List (κ × ν)) :
    (setEntry k v es).map Prod.fst =
      if k ∈ es.map Prod.fst then es.map Prod.fst else es.map Prod.fst ++ [k] := by
  induction es with
  | nil => simp [setEntry]
  | cons e es ih =>
    simp only [setEntry]
    by_cases h : e.1 = k
    · simp [h]
    · have h' : ¬ k = e.1 := fun e => h e.symm
      simp only [h, ↓reduceIte, List.map_cons, ih, List.mem_cons, h', false_or]
      split <;> simp

/-- The map with the value of `k` set. -/
def insert (m : OrderedMap κ ν) (k : κ) (v : ν) : OrderedMap κ ν where
  entries := setEntry k v m.entries
  nodup := by
    rw [keys_setEntry]
    split
    · exact m.nodup
    · next h =>
      refine List.nodup_append.2 ⟨m.nodup, by simp, ?_⟩
      rintro a ha b hb rfl
      simp only [List.mem_singleton] at hb
      exact h (hb ▸ ha)

/-- The map with all of the entries set, first to last. -/
def insertAll (m : OrderedMap κ ν) (es : List (κ × ν)) : OrderedMap κ ν :=
  es.foldl (fun m e => m.insert e.1 e.2) m

/-- The map of a list of entries: the last value of a key, at the place of its first. -/
def ofList (es : List (κ × ν)) : OrderedMap κ ν := insertAll ∅ es

theorem keys_insert (m : OrderedMap κ ν) (k : κ) (v : ν) :
    (m.insert k v).keys = if k ∈ m.keys then m.keys else m.keys ++ [k] :=
  keys_setEntry k v m.entries

theorem lookup_setEntry (k k' : κ) (v : ν) (es : List (κ × ν)) :
    (setEntry k v es).lookup k' = if k' = k then some v else es.lookup k' := by
  have hb (a : κ) : (k' == a) = decide (k' = a) := rfl
  induction es with
  | nil => by_cases h : k' = k <;> simp [setEntry, List.lookup_cons, hb, h]
  | cons e es ih =>
    obtain ⟨a, b⟩ := e
    simp only [setEntry]
    by_cases h : a = k
    · subst h
      by_cases h' : k' = a <;> simp [List.lookup_cons, hb, h']
    · by_cases h' : k' = a
      · subst h'; simp [h]
      · simp [List.lookup_cons, hb, h, h', ih]

theorem get?_insert (m : OrderedMap κ ν) (k k' : κ) (v : ν) :
    (m.insert k v).get? k' = if k' = k then some v else m.get? k' :=
  lookup_setEntry k k' v m.entries

@[simp] theorem get?_empty (k : κ) : (∅ : OrderedMap κ ν).get? k = none := rfl

end OrderedMap

end CrateIndex
