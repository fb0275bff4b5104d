import CrateIndex.Proofs.Document.JsonText

/-!
# Registries that no format can write

Both formats refuse a registry for a surrogate in one of its texts, and both find the first one in
the order of the document. MessagePack is written text by text, so the place that it tells is one
within a text; JSON is encoded as a whole, so the place is one behind all that was escaped and laid
out before.
-/

namespace CrateIndex

/-! ## The first run of a text -/

namespace Utf8

/-- The first surrogates of the text: adjacent, none before them, and none right behind them. -/
inductive FirstRun : Text → SurrogateRun → Prop where
  | mk {pre run post : Text} (hpre : pre.IsScalar) (hne : run ≠ [])
      (hrun : ∀ c ∈ run, c.isSurrogate = true) (hpost : ∀ c ∈ post.head?, c.isSurrogate = false) :
      FirstRun (pre ++ (run ++ post)) ⟨pre.length, run⟩

variable {s t : Text} {r : SurrogateRun}

theorem firstRun_of_surrogateRun? (h : surrogateRun? s = some r) : FirstRun s r := by
  unfold surrogateRun? at h
  split at h
  · cases h
  · rename_i c rest hdrop
    cases h
    have hs : s.takeWhile (fun c => !c.isSurrogate) ++ c :: rest = s := by
      rw [← hdrop, List.takeWhile_append_dropWhile]
    have hrest : rest.takeWhile (·.isSurrogate) ++ rest.dropWhile (·.isSurrogate) = rest :=
      List.takeWhile_append_dropWhile
    have hc : c.isSurrogate = true := by
      have h := List.head?_dropWhile_not (fun c => !CodePoint.isSurrogate c) s
      rw [hdrop] at h
      simpa using h
    have hpost : ∀ x ∈ (rest.dropWhile (·.isSurrogate)).head?, x.isSurrogate = false := by
      intro x hx
      have h := List.head?_dropWhile_not CodePoint.isSurrogate rest
      rw [Option.mem_def.1 hx] at h
      exact h
    have hpre : Text.IsScalar (s.takeWhile fun c => !c.isSurrogate) := fun x hx => by
      simpa using List.mem_takeWhile_imp hx
    have hrun : ∀ x ∈ c :: rest.takeWhile (·.isSurrogate), x.isSurrogate = true :=
      List.forall_mem_cons.2 ⟨hc, fun x hx => List.mem_takeWhile_imp hx⟩
    rw [← hrest, ← List.cons_append] at hs
    generalize s.takeWhile (fun c => !c.isSurrogate) = pre at hs hpre ⊢
    rw [← hs]
    exact .mk hpre (List.cons_ne_nil c _) hrun hpost

theorem FirstRun.surrogateRun?_eq (h : FirstRun s r) : surrogateRun? s = some r := by
  obtain @⟨pre, run, post, hpre, hne, hrun, hpost⟩ := h
  obtain ⟨c, run, rfl⟩ := List.exists_cons_of_ne_nil hne
  obtain ⟨hc, hrun⟩ := List.forall_mem_cons.1 hrun
  have hpre : ∀ x ∈ pre, (!x.isSurrogate) = true := fun x hx => by simp [hpre x hx]
  have hend : post.takeWhile (·.isSurrogate) = [] := by
    cases post with
    | nil => rfl
    | cons x post => simp [hpost x rfl]
  rw [surrogateRun?, List.dropWhile_append_of_pos hpre, List.takeWhile_append_of_pos hpre]
  simp [hc, List.takeWhile_append_of_pos hrun, hend]

theorem surrogateRun?_eq_some_iff : surrogateRun? s = some r ↔ FirstRun s r :=
  ⟨firstRun_of_surrogateRun?, FirstRun.surrogateRun?_eq⟩

theorem FirstRun.not_isScalar (h : FirstRun s r) : ¬ s.IsScalar := by
  intro hs
  have hnone := surrogateRun?_of_isScalar hs
  rw [h.surrogateRun?_eq] at hnone
  cases hnone

theorem surrogateRun?_eq_none_iff : surrogateRun? s = none ↔ s.IsScalar := by
  refine ⟨fun h x hx => ?_, surrogateRun?_of_isScalar⟩
  unfold surrogateRun? at h
  split at h
  · rename_i hdrop
    simpa using List.dropWhile_eq_nil_iff.1 hdrop x hx
  · cases h

theorem encode_eq_error_iff : encode s = .error r ↔ FirstRun s r := by
  rw [← surrogateRun?_eq_some_iff, encode]
  cases surrogateRun? s with
  | none => simp
  | some run => simp

end Utf8

/-! ## The texts of a registry -/

/-- The keys of a map, each before the texts of its value. -/
def OrderedMap.texts {ν : Type} (f : ν → List Text) (m : OrderedMap Text ν) : List Text :=
  m.entries.flatMap fun e => e.1 :: f e.2

/-- The texts of a registry in the order of the document: each package before its versions, each
version before its dependencies, each dependency before its range. -/
def Registry.texts : Registry → List Text :=
  OrderedMap.texts (OrderedMap.texts (OrderedMap.texts fun range => [range]))

open Utf8 (FirstRun SurrogateRun)

variable {ν : Type}

/-- Of some texts either none holds a surrogate, or there is a first run in the first that does. -/
theorem Text.isScalar_or_first (ss : List Text) :
    (∀ s ∈ ss, s.IsScalar) ∨ ∃ r, First Text.IsScalar (FirstRun · r) ss := by
  have hcases : ∀ s ∈ ss, s.IsScalar ∨ ∃ r, FirstRun s r := by
    intro s _
    cases h : Utf8.surrogateRun? s with
    | none => exact .inl (Utf8.surrogateRun?_eq_none_iff.1 h)
    | some r => exact .inr ⟨r, Utf8.firstRun_of_surrogateRun? h⟩
  refine (First.of_cases hcases).imp_right ?_
  rintro ⟨pre, s, post, he, hpre, r, hr⟩
  exact ⟨r, pre, s, post, he, hpre, hr⟩

theorem not_forall_isScalar {ss : List Text} {r : SurrogateRun}
    (h : First Text.IsScalar (FirstRun · r) ss) : ¬ ∀ s ∈ ss, s.IsScalar := by
  obtain ⟨pre, s, post, rfl, -, hs⟩ := h
  exact fun hall => hs.not_isScalar (hall s (by simp))

/-! ## Text by text -/

namespace MessagePack

/-- What is written is the texts in turn: the first of them that cannot be is the failure. -/
def WritesTexts (write : ν → Except SurrogateRun (List UInt8)) (texts : ν → List Text) : Prop :=
  ∀ v r, write v = .error r ↔ First Text.IsScalar (FirstRun · r) (texts v)

variable {write : ν → Except SurrogateRun (List UInt8)} {texts : ν → List Text}

theorem WritesTexts.succeeds_iff (h : WritesTexts write texts) (v : ν) :
    Result.Succeeds (write v) ↔ ∀ s ∈ texts v, s.IsScalar := by
  constructor
  · rintro ⟨bytes, hw⟩
    refine (Text.isScalar_or_first (texts v)).resolve_right ?_
    rintro ⟨r, hr⟩
    rw [(h v r).2 hr] at hw
    cases hw
  · intro hall
    cases hw : write v with
    | error r => exact absurd hall (not_forall_isScalar ((h v r).1 hw))
    | ok bytes => exact ⟨bytes, rfl⟩

theorem string_eq_error_iff (s : Text) (r : SurrogateRun) :
    string s = .error r ↔ FirstRun s r := by
  rw [← Utf8.encode_eq_error_iff, string]
  cases Utf8.encode s with
  | error r' => rfl
  | ok bytes => simp [pure, Except.pure]

theorem writesTexts_string : WritesTexts string fun s => [s] := by
  intro s r
  simp [string_eq_error_iff, First.cons_iff, First.not_nil]

/-- An entry is the text of its key, then those of its value. -/
theorem writesTexts_entry (h : WritesTexts write texts) :
    WritesTexts (fun (k, v) => do return (← string k) ++ (← write v)) fun e : Text × ν =>
      e.1 :: texts e.2 := by
  rintro ⟨k, v⟩ r
  have hk := writesTexts_string.succeeds_iff k
  rw [List.forall_mem_singleton] at hk
  rw [First.cons_iff, ← hk, ← h v r, ← string_eq_error_iff]
  change (string k >>= fun kb => write v >>= fun vb => pure (kb ++ vb)) = .error r ↔ _
  cases string k with
  | error r' => simp [Result.Succeeds]
  | ok kb =>
      cases write v with
      | error r' => simp [Result.Succeeds]
      | ok vb => simp [Result.Succeeds, pure, Except.pure]

theorem writesTexts_map (h : WritesTexts write texts) :
    WritesTexts (map write) (OrderedMap.texts texts) := by
  intro m r
  have he := writesTexts_entry h
  have hentries : (m.entries.mapM fun (k, v) => do return (← string k) ++ (← write v)) =
      .error r ↔ First Text.IsScalar (FirstRun · r) (m.texts texts) := by
    rw [First.mapM_eq_error_iff, OrderedMap.texts, First.flatMap_iff]
    simp only [he.succeeds_iff, he _ r]
  rw [← hentries, map]
  cases m.entries.mapM fun (k, v) => do return (← string k) ++ (← write v) with
  | error r' => simp
  | ok parts => simp [pure, Except.pure]

/-- The first text that holds a surrogate tells where. -/
theorem encode_eq_error_iff (reg : Registry) (r : SurrogateRun) :
    encode reg = .error r ↔ First Text.IsScalar (FirstRun · r) reg.texts :=
  writesTexts_map (writesTexts_map (writesTexts_map writesTexts_string)) reg r

end MessagePack

/-! ## The whole text -/

namespace JsonText

/-- The text is those texts as strings, in order, with no surrogate before, between or behind. -/
inductive Carries : List Text → Text → Prop where
  | nil {t : Text} (ht : t.IsScalar) : Carries [] t
  | cons {between s t : Text} {ss : List Text} (hb : between.IsScalar) (ht : Carries ss t) :
      Carries (s :: ss) (between ++ (string s ++ t))

variable {s t : Text} {ss ts : List Text}

theorem Carries.scalar_append {u : Text} (hu : u.IsScalar) (h : Carries ss t) :
    Carries ss (u ++ t) := by
  cases h with
  | nil ht => exact .nil (Text.isScalar_append.2 ⟨hu, ht⟩)
  | cons hb ht =>
      rw [← List.append_assoc]
      exact .cons (Text.isScalar_append.2 ⟨hu, hb⟩) ht

theorem Carries.append (hs : Carries ss s) (ht : Carries ts t) : Carries (ss ++ ts) (s ++ t) := by
  induction hs with
  | nil hs => exact ht.scalar_append hs
  | cons hb _ ih =>
      rw [List.append_assoc, List.append_assoc]
      exact .cons hb ih

theorem carries_string (s : Text) : Carries [s] (string s) := by
  have h : Carries [s] ([] ++ (string s ++ [])) :=
    .cons (List.forall_mem_nil _) (.nil (List.forall_mem_nil _))
  rwa [List.nil_append, List.append_nil] at h

variable {write : ν → Text} {texts : ν → List Text}

theorem carries_member (hwrite : ∀ v, Carries (texts v) (write v)) (e : Text × ν) {rest : Text}
    (hrest : Carries ss rest) :
    Carries (e.1 :: texts e.2 ++ ss) (string e.1 ++ ": " ++ write e.2 ++ rest) := by
  have hcolon : Text.IsScalar ": " := by decide
  have h := (carries_string e.1).append (((hwrite e.2).append hrest).scalar_append hcolon)
  simpa using h

theorem carries_block (hwrite : ∀ v, Carries (texts v) (write v)) (level : Nat)
    (es : List (Text × ν)) :
    Carries (es.flatMap fun e => e.1 :: texts e.2)
      (block level (es.map fun (k, v) => (k, write v))) := by
  induction es with
  | nil => exact .nil (List.forall_mem_nil _)
  | cons e es ih =>
      rw [List.flatMap_cons]
      cases es with
      | nil =>
          have hend : Text.IsScalar ("\n" ++ (indent level ++ "\x7d")) :=
            Text.isScalar_append.2
              ⟨by decide, Text.isScalar_append.2 ⟨isScalar_indent level, by decide⟩⟩
          have h := carries_member hwrite e (.nil hend)
          simpa [block] using h
      | cons e' es =>
          have hnext : Text.IsScalar (",\n" ++ indent (level + 1)) :=
            Text.isScalar_append.2 ⟨by decide, isScalar_indent (level + 1)⟩
          have h := carries_member hwrite e (ih.scalar_append hnext)
          simpa [block] using h

theorem carries_object (hwrite : ∀ v, Carries (texts v) (write v)) (level : Nat)
    (m : OrderedMap Text ν) :
    Carries (m.texts texts) (object level (m.entries.map fun (k, v) => (k, write v))) := by
  have hblock := carries_block hwrite level m.entries
  rw [OrderedMap.texts]
  cases hm : m.entries with
  | nil =>
      have hempty : Text.IsScalar "\x7b\x7d" := by decide
      exact .nil hempty
  | cons e es =>
      rw [hm] at hblock
      rw [List.map_cons, object_cons]
      exact hblock.scalar_append
        (Text.isScalar_append.2 ⟨by decide, isScalar_indent (level + 1)⟩)

theorem carries_render (r : Registry) : Carries r.texts (render r) :=
  have hd (d : Dependencies) : Carries (d.texts fun range => [range]) (dependencies d) :=
    carries_object carries_string 2 d
  have hp (p : Package) : Carries (p.texts (OrderedMap.texts fun range => [range])) (package p) :=
    carries_object hd 1 p
  carries_object hp 0 r

/-! ## Places in the whole text -/

theorem Carries.isScalar (h : Carries ss t) (hss : ∀ s ∈ ss, s.IsScalar) : t.IsScalar := by
  induction h with
  | nil ht => exact ht
  | cons hb _ ih =>
      obtain ⟨hs, hss⟩ := List.forall_mem_cons.1 hss
      exact Text.isScalar_append.2 ⟨hb, Text.isScalar_append.2 ⟨isScalar_string hs, ih hss⟩⟩

/-- A text of a document stands there behind the texts before it, and before those after it. -/
theorem Carries.split (h : Carries (ss ++ s :: ts) t) :
    ∃ before after, t = before ++ (string s ++ after) ∧ Carries ss before ∧ Carries ts after := by
  generalize hall : ss ++ s :: ts = us at h
  induction h generalizing ss with
  | nil => simp at hall
  | @cons between u t us hb ht ih =>
      cases ss with
      | nil =>
          obtain ⟨rfl, rfl⟩ := List.cons.inj hall
          exact ⟨between, t, rfl, .nil hb, ht⟩
      | cons v ss =>
          rw [List.cons_append, List.cons.injEq] at hall
          obtain ⟨rfl, hall⟩ := hall
          obtain ⟨before, after, rfl, hss, hts⟩ := ih hall
          exact ⟨between ++ (string v ++ before), after, by simp, .cons hb hss, hts⟩

theorem escape_of_isSurrogate {c : CodePoint} (hc : c.isSurrogate = true) : escape c = [c] := by
  have hval : 0xD800 ≤ c.val := by
    simp only [CodePoint.isSurrogate, Bool.and_eq_true, decide_eq_true_eq] at hc
    exact hc.1
  have hne (x : Char) (hx : x.toNat < 0xD800) : c ≠ x := by
    rintro rfl
    rw [CodePoint.val_ofChar] at hval
    omega
  unfold escape
  rw [if_neg (hne _ (by decide)), if_neg (hne _ (by decide)), if_neg (hne _ (by decide)),
    if_neg (hne _ (by decide)), if_neg (hne _ (by decide)), if_neg (by omega), if_neg (by omega),
    if_neg (by omega)]

/-- A surrogate stands for itself in a string. -/
theorem flatMap_escape_of_isSurrogate {run : Text} (h : ∀ c ∈ run, c.isSurrogate = true) :
    run.flatMap escape = run := by
  induction run with
  | nil => rfl
  | cons c run ih =>
      obtain ⟨hc, hrun⟩ := List.forall_mem_cons.1 h
      rw [List.flatMap_cons, ih hrun, escape_of_isSurrogate hc, List.singleton_append]

theorem escape_ne_nil (c : CodePoint) : escape c ≠ [] := by
  unfold escape
  split_ifs
  iterate 7 decide
  · exact List.append_ne_nil_of_left_ne_nil (by decide) _
  · exact List.cons_ne_nil c []

theorem head?_flatMap_escape (s after : Text) (hs : ∀ c ∈ s.head?, c.isSurrogate = false) :
    ∀ c ∈ (s.flatMap escape ++ quote :: after).head?, c.isSurrogate = false := by
  cases s with
  | nil =>
      intro c hc
      cases hc
      rfl
  | cons c s =>
      obtain ⟨d, ds, hd⟩ := List.exists_cons_of_ne_nil (escape_ne_nil c)
      have hscalar := isScalar_escape (hs c rfl)
      rw [hd] at hscalar
      intro x hx
      rw [List.flatMap_cons, hd] at hx
      cases hx
      exact hscalar d List.mem_cons_self

/-- The place within a string is behind the quote, and each code point takes its escape. -/
theorem firstRun_string {place : SurrogateRun} (h : FirstRun s place) {before : Text}
    (hbefore : before.IsScalar) (after : Text) :
    FirstRun (before ++ (string s ++ after))
      ⟨before.length + 1 + ((s.take place.position).flatMap escape).length, place.run⟩ := by
  obtain @⟨pre, run, post, hpre, hne, hrun, hpost⟩ := h
  have hquoted : Text.IsScalar (quote :: pre.flatMap escape) :=
    (Text.isScalar_append.1 (isScalar_string hpre)).1
  have hbefore : Text.IsScalar (before ++ quote :: pre.flatMap escape) :=
    Text.isScalar_append.2 ⟨hbefore, hquoted⟩
  have hs : before ++ (string (pre ++ (run ++ post)) ++ after) =
      before ++ quote :: pre.flatMap escape ++
        (run ++ (post.flatMap escape ++ quote :: after)) := by
    simp [string, flatMap_escape_of_isSurrogate hrun]
  have hlen : (before ++ quote :: pre.flatMap escape).length =
      before.length + 1 + (pre.flatMap escape).length := by
    simp
    omega
  rw [hs, List.take_left, ← hlen]
  exact .mk hbefore hne hrun (head?_flatMap_escape post after hpost)

/-- The document is refused at the first text that holds a surrogate. -/
theorem encode_of_first {r : Registry} {seen rest : List Text} {place : SurrogateRun}
    (hr : r.texts = seen ++ s :: rest) (hseen : ∀ u ∈ seen, u.IsScalar) (hs : FirstRun s place) :
    ∃ before after position, render r = before ++ (string s ++ after) ∧ Carries seen before ∧
      position = before.length + 1 + ((s.take place.position).flatMap escape).length ∧
      FirstRun (render r) ⟨position, place.run⟩ ∧ encode r = .error ⟨position, place.run⟩ := by
  obtain ⟨before, after, hrender, hbefore, -⟩ := (hr ▸ carries_render r).split
  have hrun := firstRun_string hs (hbefore.isScalar hseen) after
  rw [← hrender] at hrun
  exact ⟨before, after, _, hrender, hbefore, rfl, hrun, Utf8.encode_eq_error_iff.2 hrun⟩

end JsonText

/-! ## Both formats -/

namespace Format

theorem exists_error_iff (f : Format) (r : Registry) :
    (∃ place, f.encode r = .error place) ↔ ∃ s ∈ r.texts, ∃ c ∈ s, c.isSurrogate = true := by
  have hsurrogate : (∃ s ∈ r.texts, ∃ c ∈ s, c.isSurrogate = true) ↔
      ¬ ∀ s ∈ r.texts, s.IsScalar := by
    simp [Text.IsScalar]
  rw [hsurrogate]
  constructor
  · rintro ⟨place, h⟩ hall
    cases f with
    | messagePack => exact not_forall_isScalar ((MessagePack.encode_eq_error_iff r place).1 h) hall
    | json =>
        have hrun : FirstRun (JsonText.render r) place := Utf8.encode_eq_error_iff.1 h
        exact hrun.not_isScalar ((JsonText.carries_render r).isScalar hall)
  · intro h
    obtain ⟨place, hfirst⟩ := (Text.isScalar_or_first r.texts).resolve_left h
    cases f with
    | messagePack => exact ⟨place, (MessagePack.encode_eq_error_iff r place).2 hfirst⟩
    | json =>
        obtain ⟨seen, s, rest, hr, hseen, hs⟩ := hfirst
        obtain ⟨-, -, position, -, -, -, -, hjson⟩ := JsonText.encode_of_first hr hseen hs
        exact ⟨_, hjson⟩

/-- Both formats refuse the same registries, those with a surrogate in a text, for the same first
run of surrogates. MessagePack tells its place in its text; JSON the place in the document, where
that text stands as a string behind all texts before it. -/
theorem encode_refusals (r : Registry) :
    ((∃ place, json.encode r = .error place) ↔ ∃ s ∈ r.texts, ∃ c ∈ s, c.isSurrogate = true) ∧
    ((∃ place, messagePack.encode r = .error place) ↔
      ∃ s ∈ r.texts, ∃ c ∈ s, c.isSurrogate = true) ∧
    ∀ place, messagePack.encode r = .error place →
      ∃ seen s rest before after position,
        (r.texts = seen ++ s :: rest ∧ (∀ u ∈ seen, u.IsScalar) ∧ FirstRun s place) ∧
        (JsonText.render r = before ++ (JsonText.string s ++ after) ∧
          JsonText.Carries seen before ∧
          position =
            before.length + 1 + ((s.take place.position).flatMap JsonText.escape).length) ∧
        FirstRun (JsonText.render r) ⟨position, place.run⟩ ∧
        json.encode r = .error ⟨position, place.run⟩ := by
  refine ⟨exists_error_iff json r, exists_error_iff messagePack r, fun place h => ?_⟩
  obtain ⟨seen, s, rest, hr, hseen, hs⟩ := (MessagePack.encode_eq_error_iff r place).1 h
  obtain ⟨before, after, position, hrender, hbefore, hposition, hrun, hjson⟩ :=
    JsonText.encode_of_first hr hseen hs
  exact ⟨seen, s, rest, before, after, position, ⟨hr, hseen, hs⟩, ⟨hrender, hbefore, hposition⟩,
    hrun, hjson⟩

/-- The halves of a character the wrong way round, behind a backslash in a range, and one more in
the name of a later package. -/
def halves : Registry := .ofList
  [("a", .ofList [("1", .ofList [("d", ['\\', .ofNat 0xDC00, .ofNat 0xD800])])]),
    ([.ofNat 0xD801], ∅)]

example : messagePack.encode halves = .error ⟨1, [.ofNat 0xDC00, .ofNat 0xD800]⟩ ∧
    json.encode halves = .error ⟨36, [.ofNat 0xDC00, .ofNat 0xD800]⟩ := by
  decide +kernel

end Format

end CrateIndex
