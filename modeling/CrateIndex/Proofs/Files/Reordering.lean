import CrateIndex.Files.Home
import CrateIndex.Proofs.Files.Frame

/-!
# Trees that list the same in another order

What a path leads to depends on what stands at each place, not on the order in which a folder's
names are listed.
-/

namespace CrateIndex

theorem OrderedMap.get?_eq_of_perm {κ ν : Type} [DecidableEq κ] {m n : OrderedMap κ ν}
    (h : m.entries.Perm n.entries) (k : κ) : m.get? k = n.get? k := by
  ext v
  rw [get?, get?, lookup_eq_some_iff m.nodup, lookup_eq_some_iff n.nodup, h.mem_iff]

namespace FileTree

variable {t t' : FileTree}

/-- The trees hold the same, in whatever order each lists it. -/
structure Reorders (t t' : FileTree) : Prop where
  nodes : t'.nodes.entries.Perm t.nodes.entries
  rights : t'.rights = t.rights
  current : t'.current = t.current
  home : t'.home = t.home
  users : t'.users = t.users

namespace Reorders

variable (h : Reorders t t')

include h

theorem symm : Reorders t' t :=
  ⟨h.nodes.symm, h.rights.symm, h.current.symm, h.home.symm, h.users.symm⟩

theorem get? (place : Place) : t'.nodes.get? place = t.nodes.get? place :=
  OrderedMap.get?_eq_of_perm h.nodes place

theorem mem_keys_iff {place : Place} : place ∈ t'.nodes.keys ↔ place ∈ t.nodes.keys :=
  (h.nodes.map Prod.fst).mem_iff

theorem walk (aim : Aim) (links : Nat) (q : Place) (ns : List Text) :
    t'.walk aim links q ns = t.walk aim links q ns := by
  have hadmits := admits_congr h.rights
  induction links, q, ns using way_induction t with
  | nil links q => rw [FileTree.walk, FileTree.walk]
  | denied links q n ns ha => rw [walk_denied ha, walk_denied ((hadmits q n).trans ha)]
  | stays links q n ns ha hs ih => rwa [walk_stays ha hs, walk_stays ((hadmits q n).trans ha) hs]
  | up links q ns ha ih => rwa [walk_up ha, walk_up ((hadmits q _).trans ha)]
  | enter links q n ns ha hs hd ih ihl =>
      rw [walk_enter ha hs hd, walk_enter ((hadmits q n).trans ha) hs hd, h.get? (q ++ [n])]
      cases t.nodes.get? (q ++ [n]) with
      | none => rfl
      | some node =>
          cases node with
          | folder => simp only [ih]
          | link target =>
              cases links with
              | zero => rfl
              | succ links => simp only [ihl links (Nat.lt_succ_self links)]
          | file _ | null | stream _ => rfl

theorem find (aim : Aim) (path : Text) : t'.find aim path = t.find aim path := by
  rw [FileTree.find, FileTree.find, start, start, h.current, h.walk]

theorem resolve (path : Text) : t'.resolve path = t.resolve path := by
  rw [FileTree.resolve, FileTree.resolve, h.find]

theorem isFolder (path : Text) : t'.isFolder path = t.isFolder path := by
  rw [FileTree.isFolder, FileTree.isFolder, h.resolve]

theorem isListed (path : Text) : t'.isListed path = t.isListed path := by
  rw [FileTree.isListed, FileTree.isListed, h.resolve, h.rights]

theorem isOpen (path : Text) : t'.isOpen path = t.isOpen path := by
  rw [FileTree.isOpen, FileTree.isOpen, h.resolve, h.rights]

theorem isFile (path : Text) : t'.isFile path = t.isFile path := by
  rw [FileTree.isFile, FileTree.isFile, h.resolve]

theorem expandHome? (path : Text) : t'.expandHome? path = t.expandHome? path := by
  have hhome (user : Text) : t'.homeOf? user = t.homeOf? user := by
    rw [homeOf?, homeOf?, h.home, h.users]
  cases path with
  | nil => rfl
  | cons c rest => simp only [FileTree.expandHome?, hhome]

end Reorders

end FileTree

end CrateIndex
