import CrateIndex.Logged
import Mathlib.Data.List.Forall2

/-!
# Results

How results are put together, whether there is one, and which of several failures counts: that of
the first item that has one.
-/

namespace CrateIndex

namespace Result

variable {ε ε' α β : Type}

@[simp] theorem ok_bind (a : α) (f : α → Except ε β) : (Except.ok a >>= f) = f a := rfl

@[simp] theorem error_bind (e : ε) (f : α → Except ε β) :
    ((Except.error e : Except ε α) >>= f) = .error e := rfl

@[simp] theorem bind_ok (x : Except ε α) : (x >>= fun a => .ok a) = x := by
  cases x with
  | error e => rfl
  | ok a => rfl

theorem bind_eq_ok_iff {x : Except ε α} {f : α → Except ε β} {b : β} :
    (x >>= f) = .ok b ↔ ∃ a, x = .ok a ∧ f a = .ok b := by
  cases x with
  | error e => simp
  | ok a => simp

theorem bind_eq_error_iff {x : Except ε α} {f : α → Except ε β} {e : ε} :
    (x >>= f) = .error e ↔ x = .error e ∨ ∃ a, x = .ok a ∧ f a = .error e := by
  cases x with
  | error e => simp
  | ok a => simp

theorem map_eq_ok_iff {f : α → β} {x : Except ε α} {b : β} :
    f <$> x = .ok b ↔ ∃ a, x = .ok a ∧ f a = b := by
  cases x with
  | error e => simp [Functor.map, Except.map]
  | ok a => simp [Functor.map, Except.map]

theorem map_eq_error_iff {f : α → β} {x : Except ε α} {e : ε} :
    f <$> x = .error e ↔ x = .error e := by
  cases x with
  | error e => simp [Functor.map, Except.map]
  | ok a => simp [Functor.map, Except.map]

@[simp] theorem mapError_ok (f : ε → ε') (a : α) :
    (Except.ok a : Except ε α).mapError f = .ok a := rfl

theorem mapError_eq_ok_iff {f : ε → ε'} {x : Except ε α} {a : α} :
    x.mapError f = .ok a ↔ x = .ok a := by
  cases x with
  | error e => simp [Except.mapError]
  | ok b => simp [Except.mapError]

theorem mapError_eq_error_iff {f : ε → ε'} {x : Except ε α} {e' : ε'} :
    x.mapError f = .error e' ↔ ∃ e, x = .error e ∧ f e = e' := by
  cases x with
  | error e => simp [Except.mapError]
  | ok a => simp [Except.mapError]

@[simp] theorem toOption_ok (a : α) : (Except.ok a : Except ε α).toOption = some a := rfl

@[simp] theorem toOption_error (e : ε) : (Except.error e : Except ε α).toOption = none := rfl

theorem toOption_eq_some {x : Except ε α} {a : α} : x.toOption = some a ↔ x = .ok a := by
  cases x with
  | error e => simp
  | ok b => simp

@[simp] theorem toOption_bind (x : Except ε α) (f : α → Except ε β) :
    (x >>= f).toOption = x.toOption.bind fun a => (f a).toOption := by
  cases x with
  | error e => rfl
  | ok a => rfl

@[simp] theorem toOption_map (f : α → β) (x : Except ε α) :
    (f <$> x).toOption = x.toOption.map f := by
  cases x with
  | error e => rfl
  | ok a => rfl

@[simp] theorem toOption_mapError (f : ε → ε') (x : Except ε α) :
    (x.mapError f).toOption = x.toOption := by
  cases x with
  | error e => rfl
  | ok a => rfl

/-- There is a result. -/
def Succeeds (x : Except ε α) : Prop := ∃ a, x = .ok a

/-- There is a failure, and it is of the kind `P`. -/
def Fails (P : ε → Prop) (x : Except ε α) : Prop := ∃ e, x = .error e ∧ P e

instance (P : ε → Prop) [DecidablePred P] (x : Except ε α) : Decidable (Fails P x) :=
  match x with
  | .error e =>
    decidable_of_iff (P e) ⟨fun h => ⟨e, rfl, h⟩, fun ⟨_, h, hp⟩ => by cases h; exact hp⟩
  | .ok _ => isFalse fun ⟨_, h, _⟩ => by cases h

variable {P : ε → Prop} {x : Except ε α} {f : α → Except ε β}

theorem Fails.bind (h : Fails P x) : Fails P (x >>= f) := by
  obtain ⟨e, rfl, hp⟩ := h
  exact ⟨e, rfl, hp⟩

theorem mapM_eq_some_iff {g : α → Option β} {xs : List α} {ys : List β} :
    xs.mapM g = some ys ↔ List.Forall₂ (fun x y => g x = some y) xs ys := by
  induction xs generalizing ys with
  | nil => simp [eq_comm]
  | cons x xs ih =>
      rw [List.mapM_cons, List.forall₂_cons_left_iff]
      constructor
      · intro h
        simp only [Option.bind_eq_bind, Option.bind_eq_some_iff, Option.pure_def,
          Option.some.injEq] at h
        obtain ⟨y, hy, ys, hys, rfl⟩ := h
        exact ⟨y, ys, hy, ih.1 hys, rfl⟩
      · rintro ⟨y, ys, hy, hys, rfl⟩
        rw [hy, ih.2 hys]
        rfl

theorem succeeds_of_mapM {g : α → Except ε β} {xs : List α} {ys : List β} {x : α}
    (h : xs.mapM g = .ok ys) (hx : x ∈ xs) : Succeeds (g x) := by
  induction xs generalizing ys with
  | nil => cases hx
  | cons a xs ih =>
      rw [List.mapM_cons] at h
      obtain ⟨b, hb, h⟩ := bind_eq_ok_iff.1 h
      obtain ⟨bs, hbs, -⟩ := bind_eq_ok_iff.1 h
      rcases List.mem_cons.1 hx with rfl | hx
      · exact ⟨b, hb⟩
      · exact ih hbs hx

theorem mapM_eq_ok_iff {g : α → Except ε β} {xs : List α} {ys : List β} :
    xs.mapM g = .ok ys ↔ List.Forall₂ (fun x y => g x = .ok y) xs ys := by
  induction xs generalizing ys with
  | nil =>
      rw [List.forall₂_nil_left_iff]
      exact ⟨fun h => (Except.ok.inj h).symm, fun h => congrArg Except.ok h.symm⟩
  | cons x xs ih =>
      rw [List.mapM_cons, List.forall₂_cons_left_iff]
      constructor
      · intro h
        obtain ⟨y, hy, h⟩ := bind_eq_ok_iff.1 h
        obtain ⟨ys, hys, h⟩ := bind_eq_ok_iff.1 h
        exact ⟨y, ys, hy, ih.1 hys, (Except.ok.inj h).symm⟩
      · rintro ⟨y, ys, hy, hys, rfl⟩
        rw [hy, ok_bind, ih.2 hys]
        rfl

theorem exists_of_mem_of_mapM {g : α → Option β} {xs : List α} {ys : List β} {x : α}
    (h : xs.mapM g = some ys) (hx : x ∈ xs) : ∃ y, g x = some y := by
  induction mapM_eq_some_iff.1 h with
  | nil => cases hx
  | @cons z y xs ys hz hxs ih =>
      rcases List.mem_cons.1 hx with rfl | hx
      · exact ⟨y, hz⟩
      · exact ih (mapM_eq_some_iff.2 hxs) hx

theorem forM_eq_ok {g : α → Except ε Unit} {xs : List α} (h : ∀ x ∈ xs, g x = .ok ()) :
    xs.forM g = .ok () := by
  induction xs with
  | nil => rfl
  | cons x xs ih =>
      rw [List.forall_mem_cons] at h
      change (g x >>= fun _ => xs.forM g) = .ok ()
      rw [h.1, ok_bind, ih h.2]

/-- If all items pass or fail in the same way and one fails, the walk through them fails so. -/
theorem forM_fails {g : α → Except ε Unit} {xs : List α} {x : α}
    (h : ∀ y ∈ xs, g y = .ok () ∨ Fails P (g y)) (hx : x ∈ xs) (hf : Fails P (g x)) :
    Fails P (xs.forM g) := by
  induction xs with
  | nil => cases hx
  | cons y xs ih =>
      rw [List.forall_mem_cons] at h
      change Fails P (g y >>= fun _ => xs.forM g)
      rcases h.1 with hy | hy
      · rw [hy, ok_bind]
        rcases List.mem_cons.1 hx with rfl | hx
        · obtain ⟨e, he, -⟩ := hf
          rw [hy] at he
          cases he
        · exact ih h.2 hx
      · exact hy.bind

theorem exists_forall₂ {g : α → Except ε β} {xs : List α} (h : ∀ x ∈ xs, Succeeds (g x)) :
    ∃ ys, List.Forall₂ (fun x y => g x = .ok y) xs ys := by
  induction xs with
  | nil => exact ⟨[], .nil⟩
  | cons x xs ih =>
      obtain ⟨y, hy⟩ := h x List.mem_cons_self
      obtain ⟨ys, hys⟩ := ih fun x hx => h x (List.mem_cons_of_mem _ hx)
      exact ⟨y :: ys, .cons hy hys⟩

theorem succeeds_mapM_iff {g : α → Except ε β} {xs : List α} :
    Succeeds (xs.mapM g) ↔ ∀ x ∈ xs, Succeeds (g x) := by
  constructor
  · rintro ⟨ys, h⟩ x hx
    exact succeeds_of_mapM h hx
  · intro h
    obtain ⟨ys, hys⟩ := exists_forall₂ h
    exact ⟨ys, mapM_eq_ok_iff.2 hys⟩

end Result

/-- Of the list, `bad` is the first that is not `good`. -/
def First {α : Type} (good bad : α → Prop) (xs : List α) : Prop :=
  ∃ pre x post, xs = pre ++ x :: post ∧ (∀ y ∈ pre, good y) ∧ bad x

namespace First

variable {α : Type} {good bad bad' : α → Prop} {x : α} {xs : List α}

theorem head (h : bad x) : First good bad (x :: xs) := ⟨[], x, xs, rfl, by simp, h⟩

theorem cons (hx : good x) (h : First good bad xs) : First good bad (x :: xs) := by
  obtain ⟨pre, y, post, rfl, hpre, hy⟩ := h
  refine ⟨x :: pre, y, post, rfl, ?_, hy⟩
  intro z hz
  rcases List.mem_cons.1 hz with rfl | hz
  · exact hx
  · exact hpre z hz

theorem not_nil : ¬ First good bad [] := by
  rintro ⟨pre, x, post, h, -⟩
  simp at h

theorem cons_cases (h : First good bad (x :: xs)) : bad x ∨ good x ∧ First good bad xs := by
  obtain ⟨pre, y, post, he, hpre, hy⟩ := h
  cases pre with
  | nil =>
      cases he
      exact .inl hy
  | cons z pre =>
      simp only [List.cons_append, List.cons.injEq] at he
      obtain ⟨rfl, rfl⟩ := he
      exact .inr ⟨hpre x List.mem_cons_self,
        pre, y, post, rfl, fun w hw => hpre w (List.mem_cons_of_mem x hw), hy⟩

theorem cons_iff : First good bad (x :: xs) ↔ bad x ∨ good x ∧ First good bad xs :=
  ⟨cons_cases, fun h => h.elim head fun h => cons h.1 h.2⟩

theorem of_cases (h : ∀ x ∈ xs, good x ∨ bad x) : (∀ x ∈ xs, good x) ∨ First good bad xs := by
  induction xs with
  | nil => exact .inl (by simp)
  | cons x xs ih =>
      rcases h x List.mem_cons_self with hx | hx
      · rcases ih fun y hy => h y (List.mem_cons_of_mem x hy) with hxs | hxs
        · refine .inl fun y hy => ?_
          rcases List.mem_cons.1 hy with rfl | hy
          · exact hx
          · exact hxs y hy
        · exact .inr (hxs.cons hx)
      · exact .inr (head hx)

theorem or_cases (h : First good (fun x => bad x ∨ bad' x) xs) :
    First good bad xs ∨ First good bad' xs := by
  obtain ⟨pre, x, post, rfl, hpre, hx | hx⟩ := h
  · exact .inl ⟨pre, x, post, rfl, hpre, hx⟩
  · exact .inr ⟨pre, x, post, rfl, hpre, hx⟩

theorem append_iff {ys : List α} : First good bad (xs ++ ys) ↔
    First good bad xs ∨ (∀ x ∈ xs, good x) ∧ First good bad ys := by
  induction xs with
  | nil => simp [not_nil]
  | cons x xs ih =>
      rw [List.cons_append, cons_iff, cons_iff, ih, List.forall_mem_cons]
      tauto

/-- In a list of lists that are put together, the first is in the first list that has one. -/
theorem flatMap_iff {β : Type} {good bad : β → Prop} {f : α → List β} :
    First good bad (xs.flatMap f) ↔
      First (fun x => ∀ y ∈ f x, good y) (fun x => First good bad (f x)) xs := by
  induction xs with
  | nil => simp [not_nil]
  | cons x xs ih => rw [List.flatMap_cons, append_iff, cons_iff, ih]

/-- The failure of a walk through a list is that of the first item that has one. -/
theorem mapM_eq_error_iff {ε β : Type} {g : α → Except ε β} {e : ε} :
    xs.mapM g = .error e ↔ First (fun x => Result.Succeeds (g x)) (fun x => g x = .error e) xs := by
  induction xs with
  | nil => exact ⟨fun h => (by cases h), fun h => absurd h not_nil⟩
  | cons x xs ih =>
      have hpure (y : β) : (xs.mapM g >>= fun ys => pure (y :: ys)) = .error e ↔
          xs.mapM g = .error e := by
        cases xs.mapM g with
        | error e' => exact Iff.rfl
        | ok ys => exact ⟨fun h => (by cases h), fun h => (by cases h)⟩
      rw [List.mapM_cons, cons_iff, ← ih]
      cases g x with
      | error e' => simp [Result.Succeeds]
      | ok y =>
          simp only [Result.ok_bind, hpure, Result.Succeeds]
          simp

end First

end CrateIndex
