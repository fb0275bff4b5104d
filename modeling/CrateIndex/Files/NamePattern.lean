import CrateIndex.Text.Basic

/-!
# Patterns for names

A star takes any text, a question mark one code point, and brackets one code point of a set.
-/

namespace CrateIndex

/-- A set of code points as brackets write it. -/
structure NameSet where
  /-- The set is what the brackets do not name. -/
  negated : Bool
  singles : List CodePoint
  /-- Ends included. -/
  ranges : List (CodePoint × CodePoint)
deriving DecidableEq

def NameSet.holds (s : NameSet) (c : CodePoint) : Bool :=
  s.negated != (c ∈ s.singles || s.ranges.any fun (lo, hi) => lo.val ≤ c.val && c.val ≤ hi.val)

/-- One element of a pattern for names. -/
inductive NamePiece where
  | just (c : CodePoint)
  | any
  | star
  | oneOf (s : NameSet)
deriving DecidableEq

namespace NamePiece

def isStar : NamePiece → Bool
  | star => true
  | _ => false

/-- The code point is one of those that a piece stands for. -/
def holds : NamePiece → CodePoint → Bool
  | just c, x => x = c
  | any, _ | star, _ => true
  | oneOf s, x => s.holds x

end NamePiece

namespace NamePattern

/-- The code point makes a text a pattern. -/
def isWild (c : CodePoint) : Bool := c = '*' || c = '?' || c = '['

def hasWild (s : Text) : Bool := s.any isWild

/-- A name that starts with a dot. -/
def isHidden (s : Text) : Bool := s.head? = some (.ofChar '.')

/-! ## Brackets -/

/-- The inside of brackets and the text behind them. A bracket that closes right after the opening
one, or after the mark of negation, belongs to the inside. -/
def bracket? (s : Text) : Option (Text × Text) :=
  let (mark, s) : Text × Text := match s with
    | c :: r => if c = '!' then ([c], r) else ([], s)
    | [] => ([], [])
  let (first, s) : Text × Text := match s with
    | c :: r => if c = ']' then ([c], r) else ([], s)
    | [] => ([], [])
  (Text.cutAt? ']' s).map fun (inside, rest) => (mark ++ first ++ inside, rest)

/-- The inside of brackets cut at the hyphens that make ranges: the first that is not at the start
(`skip` code points are passed over), and from each of them on the first that is two further. -/
def chunks (skip : Nat) (current : Text) : Text → List Text
  | [] => [current.reverse]
  | c :: s =>
    if skip = 0 ∧ c = '-' then current.reverse :: chunks 2 [] s
    else chunks (skip - 1) (c :: current) s

/-- A hyphen at the end of the inside is one of the set. -/
def keepLastHyphen : List Text → List Text
  | [a, []] => [a ++ [CodePoint.ofChar '-']]
  | [] => []
  | a :: rest => a :: keepLastHyphen rest

/-- Two neighbours made one where their range would be empty, from the last to the first. -/
def dropEmptyRanges : List Text → List Text
  | [] => []
  | a :: rest =>
    match dropEmptyRanges rest with
    | [] => [a]
    | b :: rest =>
      match a.getLast?, b with
      | some hi, lo :: b' => if lo.val < hi.val then (a.dropLast ++ b') :: rest else a :: b :: rest
      | _, _ => a :: b :: rest

/-- The set of the chunks: from the last code point of each to the first of the next is a range,
and the others are taken singly. -/
def collect : List Text → List CodePoint × List (CodePoint × CodePoint)
  | [] => ([], [])
  | [a] => (a, [])
  | a :: b :: rest =>
    let (singles, ranges) := collect (b :: rest)
    match a.getLast?, b.head? with
    | some lo, some hi => (a ++ singles, (lo, hi) :: ranges)
    | _, _ => (a ++ singles, ranges)

/-- The set that the inside of brackets names. The mark of negation is looked for when the empty
ranges are gone; a hyphen right behind it makes no range and is one of the set. -/
def setOf (inside : Text) : NameSet :=
  let skip := if inside.head? = some (.ofChar '!') then 2 else 1
  let parts := dropEmptyRanges (keepLastHyphen (chunks skip [] inside))
  match parts with
  | (c :: first) :: rest =>
    if c = '!' then
      let (singles, ranges) := collect (first :: rest)
      let hyphen : Text := if first.isEmpty && !rest.isEmpty then "-" else []
      ⟨true, hyphen ++ singles, ranges⟩
    else
      let (singles, ranges) := collect parts
      ⟨false, singles, ranges⟩
  | _ =>
    let (singles, ranges) := collect parts
    ⟨false, singles, ranges⟩

theorem length_cutAt {c : CodePoint} {s l r : Text} (h : Text.cutAt? c s = some (l, r)) :
    r.length < s.length := by
  induction s generalizing l with
  | nil => simp [Text.cutAt?] at h
  | cons x s ih =>
    simp only [Text.cutAt?] at h
    split at h
    · simp only [Option.some.injEq, Prod.mk.injEq] at h
      obtain ⟨-, rfl⟩ := h
      simp
    · obtain ⟨p, hp, he⟩ := Option.map_eq_some_iff.1 h
      simp only [Prod.mk.injEq] at he
      obtain ⟨-, rfl⟩ := he
      have := ih hp
      simp only [List.length_cons]
      omega

theorem length_bracket {s inside rest : Text} (h : bracket? s = some (inside, rest)) :
    rest.length < s.length := by
  obtain ⟨⟨l, r⟩, hp, he⟩ := Option.map_eq_some_iff.1 h
  simp only [Prod.mk.injEq] at he
  obtain ⟨-, rfl⟩ := he
  have hlt := length_cutAt hp
  refine Nat.lt_of_lt_of_le hlt ?_
  have drop_le (c : CodePoint) (t : Text) :
      (match t with
        | a :: r => if a = c then (([a] : Text), r) else ([], t)
        | [] => ([], [])).2.length ≤ t.length := by
    cases t with
    | nil => simp
    | cons a r => simp only; split <;> simp
  exact Nat.le_trans (drop_le ']' _) (drop_le '!' s)

/-! ## Whole patterns -/

/-- The pieces of a pattern. A bracket that is never closed stands for itself. -/
def pieces (s : Text) : List NamePiece :=
  match s with
  | [] => []
  | c :: s =>
    if c = '*' then .star :: pieces s
    else if c = '?' then .any :: pieces s
    else if c = '[' then
      match _h : bracket? s with
      | some (inside, rest) => .oneOf (setOf inside) :: pieces rest
      | none => .just c :: pieces s
    else .just c :: pieces s
termination_by s.length
decreasing_by
  all_goals simp only [List.length_cons]
  any_goals omega
  have := length_bracket _h
  omega

/-- The pieces take the whole name. -/
def accepts : List NamePiece → Text → Bool
  | [], s => s.isEmpty
  | p :: ps, [] => p.isStar && accepts ps []
  | p :: ps, x :: s =>
    if p.isStar then accepts ps (x :: s) || accepts (p :: ps) s else p.holds x && accepts ps s
termination_by ps s => (ps.length, s.length)

/-! ## Names by table

Whether the pieces take a name is worked out from the end of the name on, for every end of the
pieces at once. So the work is the product of the two lengths, however many stars there are. -/

/-- Which ends of the pieces take the empty name, the longest first. -/
def emptyRow : List NamePiece → List Bool
  | [] => [true]
  | p :: ps =>
    let shorter := emptyRow ps
    (p.isStar && shorter.headD false) :: shorter

/-- Which ends of the pieces take a name that begins with `x`, by those that take its rest. -/
def nextRow (x : CodePoint) : List NamePiece → List Bool → List Bool
  | p :: ps, same :: below =>
    let shorter := nextRow x ps below
    (if p.isStar then shorter.headD false || same else p.holds x && below.headD false) :: shorter
  | _, _ => [false]

/-- Which ends of the pieces take a name. -/
def row (ps : List NamePiece) : Text → List Bool
  | [] => emptyRow ps
  | x :: s => nextRow x ps (row ps s)

theorem row_cons (p : NamePiece) (ps : List NamePiece) (s : Text) :
    row (p :: ps) s = (row (p :: ps) s).headD false :: row ps s := by
  induction s generalizing p ps with
  | nil => rfl
  | cons x s ih =>
    show nextRow x (p :: ps) (row (p :: ps) s) = _
    rw [ih p ps]
    simp only [nextRow, row]
    rw [ih p ps]
    simp [nextRow]

/-- The first of a row says whether all the pieces take the name. -/
theorem headD_row (ps : List NamePiece) (s : Text) : (row ps s).headD false = accepts ps s := by
  induction s generalizing ps with
  | nil =>
    induction ps with
    | nil => simp [row, emptyRow, accepts]
    | cons p ps ih =>
      simp only [row] at ih
      simp only [row, emptyRow, List.headD_cons, ih, accepts]
  | cons x s ihs =>
    induction ps with
    | nil => simp [row, nextRow, accepts]
    | cons p ps ih =>
      have hr : row (p :: ps) (x :: s) = nextRow x (p :: ps) (row (p :: ps) s) := rfl
      simp only [row] at ih
      rw [hr, row_cons, ihs]
      simp only [nextRow, List.headD_cons, ih, ihs]
      rw [accepts]

/-- A name that the pattern takes. Hidden names are taken only by patterns that start with the
dot. -/
def takes (pattern name : Text) : Bool :=
  (isHidden pattern || !isHidden name) && (row (pieces pattern) name).headD false

end NamePattern

end CrateIndex
