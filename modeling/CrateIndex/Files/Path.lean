import CrateIndex.Text.Basic

/-!
# Paths

Paths as text: names with slashes between them. Nothing here looks at files.
-/

namespace CrateIndex.Path

/-- The separator of names. -/
def slash : CodePoint := .ofChar '/'

def isSlash (c : CodePoint) : Bool := c = slash

/-- The text up to the last slash, that slash included. -/
def head (p : Text) : Text := (p.reverse.dropWhile fun c => !isSlash c).reverse

/-- The name after the last slash. -/
def base (p : Text) : Text := (p.reverse.takeWhile fun c => !isSlash c).reverse

/-- The path before the last name. The slashes at its end go, unless there is nothing else. -/
def parent (p : Text) : Text :=
  let h := head p
  if h.all isSlash then h else Text.dropRightWhile isSlash h

/-- The names of a path; an empty one stands at each slash with nothing between. -/
def names (p : Text) : List Text := Text.splitOn slash p

def isAbsolute (p : Text) : Bool := p.head? = some slash

/-- The path of `name` seen from `folder`. -/
def join (folder name : Text) : Text :=
  if isAbsolute name then name
  else match folder.getLast? with
    | none => name
    | some c => if isSlash c then folder ++ name else folder ++ [slash] ++ name

theorem head_append_base (p : Text) : head p ++ base p = p := by
  rw [head, base, ← List.reverse_append, List.takeWhile_append_dropWhile, List.reverse_reverse]

theorem length_head_le (p : Text) : (head p).length ≤ p.length := by
  have := congrArg List.length (head_append_base p)
  rw [List.length_append] at this
  omega

theorem length_dropWhile_lt {p : CodePoint → Bool} {c : CodePoint} {s : Text} (h : p c = true) :
    ((c :: s).dropWhile p).length < (c :: s).length := by
  rw [List.dropWhile_cons_of_pos h]
  exact Nat.lt_succ_of_le (List.dropWhile_sublist p).length_le

/-- A path that holds more than slashes is longer than its parent. -/
theorem length_parent_lt {p : Text} {c : CodePoint} (hc : c ∈ p) (hs : isSlash c = false) :
    (parent p).length < p.length := by
  have hle := length_head_le p
  simp only [parent]
  split
  · next hall =>
    refine Nat.lt_of_le_of_ne hle fun he => ?_
    have happ := head_append_base p
    have hb : base p = [] := by
      have := congrArg List.length happ
      rw [List.length_append] at this
      exact List.eq_nil_of_length_eq_zero (by omega)
    rw [hb, List.append_nil] at happ
    rw [happ, List.all_eq_true] at hall
    simp [hall c hc] at hs
  · next hall =>
    refine Nat.lt_of_lt_of_le ?_ hle
    rw [Text.dropRightWhile, List.length_reverse, head, List.reverse_reverse]
    cases hr : p.reverse.dropWhile fun c => !isSlash c with
    | nil => simp [head, hr] at hall
    | cons d rest =>
      have hd : isSlash d = true := by
        have := List.head_dropWhile_not (fun c => !isSlash c) (l := p.reverse) (by simp [hr])
        simpa [hr] using this
      rw [List.length_reverse]
      exact length_dropWhile_lt hd

/-- The names of an absolute path with `.` left out and each `..` taking back a name. -/
def simplify (ns : List Text) : List Text :=
  let step (done : List Text) (n : Text) : List Text :=
    if n = "" ∨ n = "." then done else if n = ".." then done.tail else n :: done
  (ns.foldl step []).reverse

/-- The absolute path of `p` seen from `current`, simplified as text. Two slashes at the start are
kept, more count as one. -/
def absolute (current p : Text) : Text :=
  let full := if isAbsolute p then p else join current p
  let root : Text :=
    if full.take 2 = [slash, slash] ∧ full.take 3 ≠ [slash, slash, slash] then [slash, slash]
    else [slash]
  root ++ Text.join [slash] (simplify (names full))

end CrateIndex.Path
