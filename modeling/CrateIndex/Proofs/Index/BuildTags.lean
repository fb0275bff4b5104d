import CrateIndex.Proofs.Index.FirstFault
import Mathlib.Data.List.TakeWhile

/-!
# Build tags of versions

A version loses the first plus sign that has a tag behind it, with the whole of that tag. So
versions that are the same but for a build tag are one version of the registry, and no others are.
-/

namespace CrateIndex

variable {v s a b t c p k p' k' : Text} {x : CodePoint}

/-- A plus sign of the text has a tag character right behind it. -/
def HasTag (v : Text) : Prop :=
  ∃ front y rest, v = front ++ CodePoint.ofChar '+' :: y :: rest ∧ CharClass.tag.holds y = true

/-- The first plus sign with a tag stands behind `a`, the whole tag is `t`, and `b` is the rest. -/
structure FirstTag (v a t b : Text) : Prop where
  eq : v = a ++ CodePoint.ofChar '+' :: (t ++ b)
  ne_nil : t ≠ []
  tag : ∀ y ∈ t, CharClass.tag.holds y = true
  whole : ∀ y ∈ b.head?, CharClass.tag.holds y = false
  first : ∀ front y rest, v = front ++ CodePoint.ofChar '+' :: y :: rest →
    CharClass.tag.holds y = true → a.length ≤ front.length

/-! ## The first tag -/

/-- The text goes on with a tag character. -/
def startsTag (s : Text) : Bool := s.head?.any CharClass.tag.holds

theorem startsTag_iff :
    startsTag s = true ↔ ∃ y rest, s = y :: rest ∧ CharClass.tag.holds y = true := by
  cases s with
  | nil => simp [startsTag]
  | cons y s => simp [startsTag]

theorem withoutBuildTag_cons (x : CodePoint) (v : Text) : withoutBuildTag (x :: v) =
    if x = CodePoint.ofChar '+' ∧ startsTag v = true then v.dropWhile CharClass.tag.holds
    else x :: withoutBuildTag v :=
  rfl

theorem hasTag_cons_iff : HasTag (x :: v) ↔
    x = CodePoint.ofChar '+' ∧ startsTag v = true ∨ HasTag v := by
  rw [startsTag_iff]
  constructor
  · rintro ⟨front, y, rest, he, hy⟩
    cases front with
    | nil =>
        obtain ⟨rfl, rfl⟩ := List.cons.inj he
        exact .inl ⟨rfl, y, rest, rfl, hy⟩
    | cons z front =>
        obtain ⟨rfl, rfl⟩ := List.cons.inj he
        exact .inr ⟨front, y, rest, rfl, hy⟩
  · rintro (⟨rfl, y, rest, rfl, hy⟩ | ⟨front, y, rest, rfl, hy⟩)
    · exact ⟨[], y, rest, rfl, hy⟩
    · exact ⟨x :: front, y, rest, rfl, hy⟩

theorem not_hasTag_of_notMem (h : CodePoint.ofChar '+' ∉ v) : ¬ HasTag v := by
  rintro ⟨front, y, rest, rfl, -⟩
  simp at h

theorem withoutBuildTag_of_not_hasTag (h : ¬ HasTag v) : withoutBuildTag v = v := by
  induction v with
  | nil => rfl
  | cons x v ih =>
      rw [hasTag_cons_iff, not_or] at h
      rw [withoutBuildTag_cons, if_neg h.1, ih h.2]

namespace FirstTag

theorem cons (hx : ¬ (x = CodePoint.ofChar '+' ∧ startsTag v = true)) (h : FirstTag v a t b) :
    FirstTag (x :: v) (x :: a) t b where
  eq := congrArg (x :: ·) h.eq
  ne_nil := h.ne_nil
  tag := h.tag
  whole := h.whole
  first := by
    intro front y rest he hy
    cases front with
    | nil =>
        obtain ⟨rfl, rfl⟩ := List.cons.inj he
        exact absurd ⟨rfl, startsTag_iff.2 ⟨y, rest, rfl, hy⟩⟩ hx
    | cons z front => exact Nat.succ_le_succ (h.first front y rest (List.cons.inj he).2 hy)

theorem tail (h : FirstTag v (x :: a) t b) :
    ∃ v', v = x :: v' ∧ ¬ (x = CodePoint.ofChar '+' ∧ startsTag v' = true) ∧
      FirstTag v' a t b := by
  refine ⟨a ++ CodePoint.ofChar '+' :: (t ++ b), h.eq, ?_, rfl, h.ne_nil, h.tag, h.whole, ?_⟩
  · rintro ⟨rfl, hs⟩
    obtain ⟨y, rest, he, hy⟩ := startsTag_iff.1 hs
    have hle := h.first [] y rest (h.eq.trans (congrArg _ he)) hy
    simp at hle
  · intro front y rest he hy
    exact Nat.le_of_succ_le_succ (h.first (x :: front) y rest (h.eq.trans (congrArg _ he)) hy)

theorem starts (h : FirstTag v a t b) : startsTag (t ++ b) = true := by
  obtain ⟨y, u, rfl⟩ := List.exists_cons_of_ne_nil h.ne_nil
  exact startsTag_iff.2 ⟨y, u ++ b, rfl, h.tag y List.mem_cons_self⟩

theorem withoutBuildTag_eq (h : FirstTag v a t b) : withoutBuildTag v = a ++ b := by
  induction a generalizing v with
  | nil =>
      have hb : b.dropWhile CharClass.tag.holds = b := by
        cases b with
        | nil => rfl
        | cons y b => exact List.dropWhile_cons_of_neg (by simp [h.whole y rfl])
      rw [h.eq, List.nil_append, withoutBuildTag_cons, if_pos ⟨rfl, h.starts⟩,
        List.dropWhile_append_of_pos h.tag, hb, List.nil_append]
  | cons x a ih =>
      obtain ⟨v', rfl, hx, h'⟩ := h.tail
      rw [withoutBuildTag_cons, if_neg hx, ih h', List.cons_append]

end FirstTag

theorem exists_firstTag (h : HasTag v) : ∃ a t b, FirstTag v a t b := by
  induction v with
  | nil => obtain ⟨front, y, rest, he, -⟩ := h; simp at he
  | cons x v ih =>
      by_cases hx : x = CodePoint.ofChar '+' ∧ startsTag v = true
      · obtain ⟨rfl, hs⟩ := hx
        obtain ⟨y, rest, rfl, hy⟩ := startsTag_iff.1 hs
        refine ⟨[], (y :: rest).takeWhile CharClass.tag.holds,
          (y :: rest).dropWhile CharClass.tag.holds, ?_, ?_, ?_, ?_, fun _ _ _ _ _ => Nat.zero_le _⟩
        · rw [List.takeWhile_append_dropWhile, List.nil_append]
        · rw [List.takeWhile_cons_of_pos hy]
          exact List.cons_ne_nil _ _
        · exact fun z hz => List.mem_takeWhile_imp hz
        · intro z hz
          have hnot := List.head?_dropWhile_not CharClass.tag.holds (y :: rest)
          rw [Option.mem_def.1 hz] at hnot
          simpa using hnot
      · obtain ⟨a, t, b, h⟩ := ih ((hasTag_cons_iff.1 h).resolve_left hx)
        exact ⟨x :: a, t, b, h.cons hx⟩

/-- With one plus sign a version has one tag at most, and loses it at once. -/
theorem withoutBuildTag_withoutBuildTag (h : v.count (CodePoint.ofChar '+') ≤ 1) :
    withoutBuildTag (withoutBuildTag v) = withoutBuildTag v := by
  by_cases ht : HasTag v
  · obtain ⟨a, t, b, ht⟩ := exists_firstTag ht
    rw [ht.withoutBuildTag_eq]
    refine withoutBuildTag_of_not_hasTag (not_hasTag_of_notMem ?_)
    rw [ht.eq] at h
    rw [← List.count_eq_zero]
    simp only [List.count_append, List.count_cons_self] at h ⊢
    omega
  · rw [withoutBuildTag_of_not_hasTag ht, withoutBuildTag_of_not_hasTag ht]

/-! ## Versions with a tag and without -/

/-- The text is the version `c`, perhaps with a build tag. -/
def IsBuildOf (c v : Text) : Prop :=
  v = c ∨ ∃ t, t ≠ [] ∧ (∀ y ∈ t, CharClass.tag.holds y = true) ∧
    v = c ++ CodePoint.ofChar '+' :: t

theorem withoutBuildTag_append (h : CodePoint.ofChar '+' ∉ c) (s : Text) :
    withoutBuildTag (c ++ s) = c ++ withoutBuildTag s := by
  induction c with
  | nil => rfl
  | cons x c ih =>
      rw [List.mem_cons, not_or] at h
      rw [List.cons_append, withoutBuildTag_cons, if_neg fun hx => h.1 hx.1.symm, ih h.2,
        List.cons_append]

theorem IsBuildOf.withoutBuildTag_eq (h : IsBuildOf c v) (hc : CodePoint.ofChar '+' ∉ c) :
    withoutBuildTag v = c := by
  rcases h with rfl | ⟨t, hne, ht, rfl⟩
  · exact withoutBuildTag_of_not_hasTag (not_hasTag_of_notMem hc)
  · have hfirst : FirstTag (CodePoint.ofChar '+' :: t) [] t [] :=
      ⟨by simp, hne, ht, by simp, fun _ _ _ _ _ => Nat.zero_le _⟩
    rw [withoutBuildTag_append hc, hfirst.withoutBuildTag_eq, List.append_nil, List.append_nil]

namespace Index

variable {depth : Nat} {r : Record}

/-- Behind any lines the line sets the version `k` of the package `p`, and nothing else. -/
def StoresAs (depth : Nat) (s p k : Text) : Prop :=
  ∃ ranges : Dependencies, ∀ (source : Option Text) (lines : List Text) (reg : Registry),
    (ofLines depth source lines).result = .ok reg →
    (ofLines depth source (lines ++ [s])).result =
      .ok (reg.insert p (((reg.get? p).getD ∅).insert k ranges))

theorem ranges_of_readable (hr : HoldsRecord depth s r) (h : Readable depth s) :
    ∃ ranges, r.ranges.result = .ok ranges := by
  obtain ⟨a, ha⟩ := contentOf_succeeds none 0 h
  rw [contentOf_of_holds none 0 hr] at ha
  obtain ⟨ranges, hranges, -⟩ := Result.map_eq_ok_iff.1 ha
  exact ⟨ranges, Result.mapError_eq_ok_iff.1 hranges⟩

theorem storesAs_of_holds (hr : HoldsRecord depth s r) (h : Readable depth s) :
    StoresAs depth s (registryName r.name) (withoutBuildTag r.version) := by
  obtain ⟨ranges, hranges⟩ := ranges_of_readable hr h
  refine ⟨ranges, fun source lines reg hreg => ?_⟩
  rw [result_ofLines] at hreg ⊢
  rw [result_readLines_append, hreg, Result.ok_bind, result_readLines_cons,
    contentOf_of_holds source _ hr, hranges]
  rfl

/-- A line sets one version of one package. -/
theorem StoresAs.unique (h : StoresAs depth s p k) (h' : StoresAs depth s p' k') :
    p = p' ∧ k = k' := by
  obtain ⟨ranges, h⟩ := h
  obtain ⟨ranges', h'⟩ := h'
  have he := (h none [] ∅ rfl).symm.trans (h' none [] ∅ rfl)
  have hentries := congrArg OrderedMap.entries (Except.ok.inj he)
  obtain ⟨rfl, hpackage⟩ := Prod.mk.inj (List.cons.inj hentries).1
  have hversions := congrArg OrderedMap.entries hpackage
  exact ⟨rfl, (Prod.mk.inj (List.cons.inj hversions).1).1⟩

/-- A version without a tag stays as it is; of any other the first plus sign with a tag goes, with
the whole tag. Where there is only one plus sign nothing is left to take away. Records are kept
under one version exactly if their versions are the same but for a tag. -/
theorem withoutBuildTag_takesFirst (depth : Nat) :
    (∀ v : Text, ¬ HasTag v → withoutBuildTag v = v) ∧
    (∀ v : Text, HasTag v → ∃ a t b, FirstTag v a t b ∧ withoutBuildTag v = a ++ b) ∧
    (∀ v : Text, v.count (CodePoint.ofChar '+') ≤ 1 →
      withoutBuildTag (withoutBuildTag v) = withoutBuildTag v) ∧
    ∀ (s s' : Text) (r r' : Record) (c c' : Text), HoldsRecord depth s r → HoldsRecord depth s' r' →
      Readable depth s → Readable depth s' → CodePoint.ofChar '+' ∉ c → CodePoint.ofChar '+' ∉ c' →
      IsBuildOf c r.version → IsBuildOf c' r'.version →
      StoresAs depth s (registryName r.name) c ∧ StoresAs depth s' (registryName r'.name) c' ∧
        ((∃ p p' k, StoresAs depth s p k ∧ StoresAs depth s' p' k) ↔ c = c') := by
  refine ⟨fun v => withoutBuildTag_of_not_hasTag, ?_, fun v => withoutBuildTag_withoutBuildTag, ?_⟩
  · intro v h
    obtain ⟨a, t, b, h⟩ := exists_firstTag h
    exact ⟨a, t, b, h, h.withoutBuildTag_eq⟩
  · intro s s' r r' c c' hr hr' hs hs' hc hc' hv hv'
    have h := storesAs_of_holds hr hs
    have h' := storesAs_of_holds hr' hs'
    rw [hv.withoutBuildTag_eq hc] at h
    rw [hv'.withoutBuildTag_eq hc'] at h'
    refine ⟨h, h', ?_, ?_⟩
    · rintro ⟨p, p', k, hk, hk'⟩
      exact (h.unique hk).2.trans (h'.unique hk').2.symm
    · rintro rfl
      exact ⟨_, _, c, h, h'⟩

/-- A plus sign without a tag, one in front of another that has one, and a version of two crates,
once with a tag. -/
theorem withoutBuildTag_takesFirst_plusSigns :
    withoutBuildTag "1+~" = "1+~" ∧
    (∃ a t b, FirstTag "1++a.b_c" a t b ∧ withoutBuildTag "1++a.b_c" = a ++ b) ∧
    withoutBuildTag (withoutBuildTag "1+a~") = withoutBuildTag "1+a~" ∧
    StoresAs 990 (bareLine "x" "1+a") "test/x" "1" ∧
    StoresAs 990 (bareLine "y" "1") "test/y" "1" ∧
    ∃ p p' k, StoresAs 990 (bareLine "x" "1+a") p k ∧ StoresAs 990 (bareLine "y" "1") p' k := by
  have hnone : ¬ HasTag "1+~" := by
    change ¬ HasTag [CodePoint.ofChar '1', CodePoint.ofChar '+', CodePoint.ofChar '~']
    rw [hasTag_cons_iff, hasTag_cons_iff]
    rintro (h | h | h)
    · exact absurd h (by decide)
    · exact absurd h (by decide)
    · exact not_hasTag_of_notMem (by decide) h
  have htag : HasTag "1++a.b_c" := ⟨"1+", 'a', ".b_c", by decide +kernel, by decide⟩
  have hreadx : readRecord 990 none 1 (bareLine "x" "1+a") = .ok ⟨"x", "1+a", []⟩ :=
    Result.toOption_eq_some.1 (by decide +kernel)
  have hready : readRecord 990 none 1 (bareLine "y" "1") = .ok ⟨"y", "1", []⟩ :=
    Result.toOption_eq_some.1 (by decide +kernel)
  have hx := holdsRecord_of_readRecord (by decide +kernel) hreadx
  have hy := holdsRecord_of_readRecord (by decide +kernel) hready
  have hstored := (withoutBuildTag_takesFirst 990).2.2.2 _ _ _ _ "1" "1" hx hy
    (.record hx (List.forall_mem_nil _)) (.record hy (List.forall_mem_nil _)) (by decide)
    (by decide) (.inr ⟨"a", by decide, by decide, by decide +kernel⟩) (.inl rfl)
  exact ⟨(withoutBuildTag_takesFirst 990).1 _ hnone, (withoutBuildTag_takesFirst 990).2.1 _ htag,
    (withoutBuildTag_takesFirst 990).2.2.1 "1+a~" (by decide +kernel), hstored.1, hstored.2.1,
    hstored.2.2.2 rfl⟩

end Index

end CrateIndex
