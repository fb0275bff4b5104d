import CrateIndex.Files.Tree
import CrateIndex.Proofs.Files.Path

/-!
# Ways through a tree

A way goes on name by name. In two trees that differ in one file, or in there being that file, the
ways are the same but for those that lead to it.
-/

namespace CrateIndex.FileTree

variable {t t' : FileTree} {aim : Aim} {links : Nat} {place q : Place} {n : Text} {ns : List Text}
  {target : Target}

/-- The name leads to no other place than that where the way is: it is empty or one dot. -/
def Stays (n : Text) : Prop := n = "" ∨ n = "."

theorem stays_nil : Stays [] := .inl rfl

@[simp] theorem admits_nil (t : FileTree) (q : Place) : t.admits q [] = true := rfl

theorem walk_denied (h : t.admits q n = false) :
    t.walk aim links q (n :: ns) = .error .denied := by
  rw [walk, if_pos (by simp [h])]

theorem walk_stays (ha : t.admits q n = true) (h : Stays n) :
    t.walk aim links q (n :: ns) = t.walk aim links q ns := by
  unfold Stays at h
  rw [walk, if_neg (by simp [ha]), if_pos h]

theorem walk_up (ha : t.admits q ".." = true) :
    t.walk aim links q (".." :: ns) = t.walk aim links q.dropLast ns := by
  rw [walk, if_neg (by simp [ha]), if_neg (by decide), if_pos rfl]

/-- Induction over ways. A way may end because its folder cannot be entered. A name that stays or
goes up leaves the names behind it; one that goes on leaves them too, or has taken a link. -/
theorem way_induction (t : FileTree) {P : Nat → Place → List Text → Prop}
    (nil : ∀ links q, P links q [])
    (denied : ∀ links q n ns, t.admits q n = false → P links q (n :: ns))
    (stays : ∀ links q n ns, t.admits q n = true → Stays n → P links q ns → P links q (n :: ns))
    (up : ∀ links q ns, t.admits q ".." = true → P links q.dropLast ns → P links q (".." :: ns))
    (enter : ∀ links q n ns, t.admits q n = true → ¬ Stays n → n ≠ ↑".." → (∀ q, P links q ns) →
      (∀ fewer < links, ∀ q ns, P fewer q ns) → P links q (n :: ns))
    (links : Nat) (q : Place) (ns : List Text) : P links q ns := by
  induction links using Nat.strong_induction_on generalizing q ns with
  | h links ihl =>
      induction ns generalizing q with
      | nil => exact nil links q
      | cons n ns ih =>
          cases ha : t.admits q n with
          | false => exact denied links q n ns ha
          | true =>
              by_cases hs : Stays n
              · exact stays links q n ns ha hs (ih q)
              · by_cases hd : n = ↑".."
                · subst hd
                  exact up links q ns ha (ih q.dropLast)
                · exact enter links q n ns ha hs hd ih ihl

theorem walk_enter (ha : t.admits q n = true) (hs : ¬ Stays n) (hd : n ≠ ↑"..") :
    t.walk aim links q (n :: ns) =
      if aim = .newFile ∧ !ns.isEmpty ∧ ns.all List.isEmpty then .error .isFolder
      else if nameLimit < Utf8.size n then .error .nameTooLong
      else match t.nodes.get? (q ++ [n]) with
      | none => if ns.isEmpty then .ok (.absent (q ++ [n])) else .error .notFound
      | some .folder => t.walk aim links (q ++ [n]) ns
      | some (.link target) =>
        if ns.isEmpty ∧ aim = .lastName then .ok (.present (q ++ [n]) (.link target))
        else match links with
          | 0 => .error .tooManyLinks
          | links + 1 =>
            t.walk aim links (if Path.isAbsolute target then [] else q)
              (Path.names target ++ ns)
      | some node => if ns.isEmpty then .ok (.present (q ++ [n]) node) else .error .notFolder := by
  unfold Stays at hs
  rw [walk]
  exact (if_neg (by simp [ha])).trans ((if_neg hs).trans (if_neg hd))

/-- What a name that goes on leads to. -/
inductive Leads (t : FileTree) (aim : Aim) (links : Nat) (q : Place) (n : Text) (ns : List Text) :
    Target → Prop where
  | absent (h : t.nodes.get? (q ++ [n]) = none) : Leads t aim links q n ns (.absent (q ++ [n]))
  | present {node : Node} (h : t.nodes.get? (q ++ [n]) = some node) :
      Leads t aim links q n ns (.present (q ++ [n]) node)
  | folder {target : Target} (h : t.nodes.get? (q ++ [n]) = some .folder)
      (hw : t.walk aim links (q ++ [n]) ns = .ok target) : Leads t aim links q n ns target
  | link {target : Target} {path : Text} {fewer : Nat} {folder : Place}
      (h : t.nodes.get? (q ++ [n]) = some (.link path)) (hl : fewer < links)
      (hw : t.walk aim fewer folder (Path.names path ++ ns) = .ok target) :
      Leads t aim links q n ns target

theorem admits_of_walk (h : t.walk aim links q (n :: ns) = .ok target) : t.admits q n = true := by
  by_contra ha
  rw [walk_denied (by simpa using ha)] at h
  cases h

theorem leads_of_walk (hs : ¬ Stays n) (hd : n ≠ ↑"..")
    (h : t.walk aim links q (n :: ns) = .ok target) : t.Leads aim links q n ns target := by
  rw [walk_enter (admits_of_walk h) hs hd] at h
  split at h
  · cases h
  · split at h
    · cases h
    · cases hg : t.nodes.get? (q ++ [n]) with
      | none =>
          simp only [hg] at h
          split at h <;> cases h
          exact .absent hg
      | some node =>
          simp only [hg] at h
          cases node with
          | folder => exact .folder hg h
          | link path =>
              simp only at h
              split at h
              · cases h
                exact .present hg
              · cases links with
                | zero => cases h
                | succ links => exact .link hg (Nat.lt_succ_self links) h
          | file _ | null | stream _ =>
              simp only at h
              split at h <;> cases h
              exact .present hg

/-! ## What a way ends with -/

/-- Where nothing stands, a new file can be made, with a name that goes on and is one name. -/
theorem walk_absent (hn : ∀ n ∈ ns, Path.slash ∉ n)
    (h : t.walk aim links q ns = .ok (.absent place)) :
    t.nodes.get? place = none ∧
      ∃ folder n, place = folder ++ [n] ∧ ¬ Stays n ∧ n ≠ ↑".." ∧ Path.slash ∉ n := by
  induction links, q, ns using way_induction t with
  | nil links q =>
      rw [walk] at h
      cases h
  | denied links q n ns ha =>
      rw [walk_denied ha] at h
      cases h
  | stays links q n ns ha hs ih =>
      rw [walk_stays ha hs] at h
      exact ih (fun m hm => hn m (List.mem_cons_of_mem n hm)) h
  | up links q ns ha ih =>
      rw [walk_up ha] at h
      exact ih (fun m hm => hn m (List.mem_cons_of_mem _ hm)) h
  | enter links q n ns ha hs hd ih ihl =>
      have hns : ∀ m ∈ ns, Path.slash ∉ m := fun m hm => hn m (List.mem_cons_of_mem n hm)
      cases leads_of_walk hs hd h with
      | absent hg => exact ⟨hg, q, n, rfl, hs, hd, hn n List.mem_cons_self⟩
      | folder hg hw => exact ih _ hns hw
      | link hg hl hw =>
          refine ihl _ hl _ _ ?_ hw
          intro m hm
          rcases List.mem_append.1 hm with hm | hm
          · exact Path.slash_notMem_of_mem_names hm
          · exact hns m hm

theorem walk_file {content : List UInt8}
    (h : t.walk aim links q ns = .ok (.present place (.file content))) :
    t.nodes.get? place = some (.file content) := by
  induction links, q, ns using way_induction t with
  | nil links q =>
      rw [walk] at h
      cases h
  | denied links q n ns ha =>
      rw [walk_denied ha] at h
      cases h
  | stays links q n ns ha hs ih => exact ih (walk_stays ha hs ▸ h)
  | up links q ns ha ih => exact ih (walk_up ha ▸ h)
  | enter links q n ns ha hs hd ih ihl =>
      cases leads_of_walk hs hd h with
      | present hg => exact hg
      | folder hg hw => exact ih _ hw
      | link hg hl hw => exact ihl _ hl _ _ hw

/-- What the links at the end lead to is there only if the last name is. -/
theorem walk_lastName {node : Node} (h : t.walk .linkEnd links q ns = .ok (.present place node)) :
    ∃ q' node', t.walk .lastName links q ns = .ok (.present q' node') := by
  induction links, q, ns using way_induction t with
  | nil links q => exact ⟨q, .folder, by rw [walk]⟩
  | denied links q n ns ha =>
      rw [walk_denied ha] at h
      cases h
  | stays links q n ns ha hs ih =>
      rw [walk_stays ha hs] at h ⊢
      exact ih h
  | up links q ns ha ih =>
      rw [walk_up ha] at h ⊢
      exact ih h
  | enter links q n ns ha hs hd ih ihl =>
      simp only [walk_enter ha hs hd, reduceCtorEq, false_and, and_false, and_true,
        if_false] at h ⊢
      split at h
      · cases h
      · next hl =>
          rw [if_neg hl]
          cases hg : t.nodes.get? (q ++ [n]) with
          | none =>
              simp only [hg] at h
              split at h <;> cases h
          | some node =>
              simp only [hg] at h
              cases node with
              | folder => exact ih _ h
              | link target =>
                  simp only at h ⊢
                  split
                  · exact ⟨_, _, rfl⟩
                  · cases links with
                    | zero => cases h
                    | succ links => exact ihl links (Nat.lt_succ_self links) _ _ h
              | file _ | null | stream _ => exact ⟨_, _, h⟩

/-- The names lead to a folder from which any names behind them go on, or with a name behind them
they lead nowhere. -/
theorem walk_append (t : FileTree) (links : Nat) (q : Place) (ns : List Text) :
    (∃ fewer folder, ∀ ms, t.walk .linkEnd links q (ns ++ ms) = t.walk .linkEnd fewer folder ms) ∨
      ∀ ms, ms ≠ [] → ∃ e, t.walk .linkEnd links q (ns ++ ms) = .error e := by
  induction links, q, ns using way_induction t with
  | nil links q => exact .inl ⟨links, q, fun ms => rfl⟩
  | denied links q n ns ha => exact .inr fun ms _ => ⟨_, walk_denied ha⟩
  | stays links q n ns ha hs ih => simpa only [List.cons_append, walk_stays ha hs] using ih
  | up links q ns ha ih => simpa only [List.cons_append, walk_up ha] using ih
  | enter links q n ns ha hs hd ih ihl =>
      simp only [List.cons_append, walk_enter ha hs hd, reduceCtorEq, false_and, and_false,
        if_false]
      split
      · exact .inr fun ms _ => ⟨_, rfl⟩
      · cases t.nodes.get? (q ++ [n]) with
        | none => exact .inr fun ms hm => ⟨_, if_neg (by simp [hm])⟩
        | some node =>
            cases node with
            | folder => exact ih (q ++ [n])
            | link target =>
                cases links with
                | zero => exact .inr fun ms _ => ⟨_, rfl⟩
                | succ links =>
                    simpa only [List.append_assoc] using
                      ihl links (Nat.lt_succ_self links) (if Path.isAbsolute target then [] else q)
                        (Path.names target ++ ns)
            | file _ | null | stream _ => exact .inr fun ms hm => ⟨_, if_neg (by simp [hm])⟩

/-! ## Trees that differ in a file -/

/-- A file stands at the place, or nothing. -/
def MayHoldFile (t : FileTree) (place : Place) : Prop :=
  ∀ node, t.nodes.get? place = some node → ∃ content, node = .file content

/-- The trees hold the same but for the place, where each has a file or nothing, and in both the
rights are the same and paths start from the same folder. -/
structure AgreesBut (place : Place) (t t' : FileTree) : Prop where
  current : t'.current = t.current
  rights : t'.rights = t.rights
  elsewhere : ∀ q, q ≠ place → t'.nodes.get? q = t.nodes.get? q
  before : t.MayHoldFile place
  after : t'.MayHoldFile place

/-- The way fails, or it leads to the place and there is a file or nothing. -/
def EndsAt (place : Place) (r : Except PathError Target) : Prop :=
  ∀ target, r = .ok target →
    target = .absent place ∨ ∃ content, target = .present place (.file content)

theorem MayHoldFile.endsAt (h : t.MayHoldFile (q ++ [n])) (hs : ¬ Stays n) (hd : n ≠ ↑"..") :
    EndsAt (q ++ [n]) (t.walk aim links q (n :: ns)) := by
  intro target ht
  cases leads_of_walk hs hd ht with
  | absent hg => exact .inl rfl
  | @present node hg =>
      obtain ⟨content, rfl⟩ := h node hg
      exact .inr ⟨content, rfl⟩
  | folder hg hw =>
      obtain ⟨content, hc⟩ := h _ hg
      cases hc
  | link hg hl hw =>
      obtain ⟨content, hc⟩ := h _ hg
      cases hc

theorem admits_congr (h : t'.rights = t.rights) (q : Place) (n : Text) :
    t'.admits q n = t.admits q n := by
  rw [admits, admits, h]

/-- The way through both trees is one, unless it leads to the place or fails. -/
theorem AgreesBut.walk (h : AgreesBut place t t') (aim : Aim) (links : Nat) (q : Place)
    (ns : List Text) :
    t'.walk aim links q ns = t.walk aim links q ns ∨
      EndsAt place (t.walk aim links q ns) ∧ EndsAt place (t'.walk aim links q ns) := by
  have hadmits := admits_congr h.rights
  induction links, q, ns using way_induction t with
  | nil links q => exact .inl (by rw [FileTree.walk, FileTree.walk])
  | denied links q n ns ha =>
      exact .inl (by rw [walk_denied ha, walk_denied ((hadmits q n).trans ha)])
  | stays links q n ns ha hs ih =>
      rwa [walk_stays ha hs, walk_stays ((hadmits q n).trans ha) hs]
  | up links q ns ha ih => rwa [walk_up ha, walk_up ((hadmits q _).trans ha)]
  | enter links q n ns ha hs hd ih ihl =>
      by_cases hq : q ++ [n] = place
      · subst hq
        exact .inr ⟨h.before.endsAt hs hd, h.after.endsAt hs hd⟩
      · rw [walk_enter ha hs hd, walk_enter ((hadmits q n).trans ha) hs hd, h.elsewhere _ hq]
        split
        · exact .inl rfl
        · split
          · exact .inl rfl
          · cases t.nodes.get? (q ++ [n]) with
            | none => exact .inl rfl
            | some node =>
                cases node with
                | folder => exact ih (q ++ [n])
                | link target =>
                    simp only
                    split
                    · exact .inl rfl
                    · cases links with
                      | zero => exact .inl rfl
                      | succ links => exact ihl links (Nat.lt_succ_self links) _ _
                | file _ | null | stream _ => exact .inl rfl

end CrateIndex.FileTree
