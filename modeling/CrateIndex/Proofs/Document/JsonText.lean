import CrateIndex.Proofs.Document.MessagePack
import CrateIndex.Proofs.Json.Reader

/-!
# The JSON document reads back

The reader of index lines takes the document for the objects of the registry, whatever its texts
hold: what would end a string or break a line in it is escaped, and the layout is skipped.
-/

namespace CrateIndex

/-! ## Registries as JSON -/

variable {ν : Type}

namespace Json

/-- The object of a map whose values are written by `f`. -/
def ofMap (f : ν → Json) (m : OrderedMap Text ν) : Json :=
  .object (m.entries.map fun (k, v) => (k, f v))

/-- The map of an object whose values are read by `f`. -/
def map? (f : Json → Option ν) : Json → Option (OrderedMap Text ν)
  | .object members => (members.mapM fun e => (f e.2).map (e.1, ·)).map OrderedMap.ofList
  | _ => none

def text? : Json → Option Text
  | .string s => some s
  | _ => none

theorem mapM_entries {write : ν → Json} {read : Json → Option ν}
    (h : ∀ v, read (write v) = some v) (es : List (Text × ν)) :
    (es.map fun (k, v) => (k, write v)).mapM (fun e => (read e.2).map (e.1, ·)) = some es := by
  induction es with
  | nil => rfl
  | cons e es ih => simp [List.mapM_cons, h, ih]

theorem map?_ofMap {write : ν → Json} {read : Json → Option ν} (h : ∀ v, read (write v) = some v)
    (m : OrderedMap Text ν) : map? read (ofMap write m) = some m := by
  rw [ofMap, map?, mapM_entries h, Option.map_some, OrderedMap.ofList_entries]

end Json

/-- The registry as a JSON value. -/
def Registry.toJson : Registry → Json := Json.ofMap (Json.ofMap (Json.ofMap .string))

/-- The registry that a JSON value stands for. -/
def Registry.ofJson? : Json → Option Registry := Json.map? (Json.map? (Json.map? Json.text?))

theorem Registry.ofJson?_toJson (r : Registry) : ofJson? r.toJson = some r :=
  have ht (s : Text) : Json.text? (.string s) = some s := rfl
  Json.map?_ofMap (Json.map?_ofMap (Json.map?_ofMap ht)) r

namespace JsonText

open Json Json.Reader

/-! ## Strings -/

/-- What stands for a code point in a string is read as one unit of it. -/
theorem units_escape (c : CodePoint) {s : Text} (hs : s ≠ []) :
    ∃ numeric, (numeric = true → c.isHighSurrogate = false) ∧
      units (escape c ++ s) = mapResult (⟨numeric, c⟩ :: ·) (units s) := by
  have hsimple {e : CodePoint} (h : simpleEscape? e = some c) :
      ∃ numeric, (numeric = true → c.isHighSurrogate = false) ∧
        units ('\\' :: e :: s) = mapResult (⟨numeric, c⟩ :: ·) (units s) :=
    ⟨false, nofun, units_simple h⟩
  have heq {n : Nat} (h : c.val = n) : c = .ofNat n := CodePoint.ext_val <| by
    rw [h, CodePoint.val_ofNat (h ▸ c.isLt)]
  unfold escape
  iterate 5
    split
    · subst c
      exact hsimple rfl
  iterate 2
    split
    · rw [heq ‹_›] at hsimple ⊢
      exact hsimple rfl
  split
  · rename_i hc
    have hu := unit?_hexDigit (n := c.val) (by omega)
    rw [← heq rfl] at hu
    -- Only control characters are named by number, so never half of a pair.
    refine ⟨true, fun _ => ?_, units_numeric hu hs⟩
    simp [CodePoint.isHighSurrogate]
    omega
  · exact ⟨false, nofun, units_plain ‹_› ‹_› (Nat.not_lt.1 ‹_›)⟩

theorem units_flatMap_escape (s rest : Text) :
    ∃ us : List Reader.Unit, us.map (·.point) = s ∧
      (∀ u ∈ us, u.numeric = true → u.point.isHighSurrogate = false) ∧
      units (s.flatMap escape ++ quote :: rest) = .ok (us, rest) := by
  induction s with
  | nil => exact ⟨[], rfl, by simp, units_quote rest⟩
  | cons c s ih =>
      obtain ⟨us, hs, hus, hread⟩ := ih
      obtain ⟨numeric, hc, hunit⟩ := units_escape c
        (s := s.flatMap escape ++ quote :: rest) (by simp)
      refine ⟨⟨numeric, c⟩ :: us, by rw [List.map_cons, hs], ?_, ?_⟩
      · rw [List.forall_mem_cons]
        exact ⟨hc, hus⟩
      · rw [List.flatMap_cons, List.append_assoc, hunit, hread]
        rfl

/-- Between its quotes every text is read as it was. -/
theorem string_flatMap_escape (s rest : Text) :
    Reader.string (s.flatMap escape ++ quote :: rest) = .ok (s, rest) := by
  obtain ⟨us, hs, hus, hread⟩ := units_flatMap_escape s rest
  rw [Reader.string, hread, mapResult_ok, textOfUnits_eq_map hus, hs]

/-! ## Objects -/

variable {value : Text → Except ReadError (Json × Text)} {write : ν → Text} {json : ν → Json}
  {depth : Nat} {es : List (Text × ν)}

/-- The text starts with no space, and before whatever follows it is read as the value. -/
structure Reads (value : Text → Except ReadError (Json × Text)) (t : Text) (v : Json) : Prop where
  start : ∃ c s, t = c :: s ∧ isSpace c = false
  whole : ∀ rest, value (t ++ rest) = .ok (v, rest)

theorem Reads.skipSpace_eq {t : Text} {v : Json} (h : Reads value t v) (rest : Text) :
    skipSpace (t ++ rest) = t ++ rest := by
  obtain ⟨c, s, rfl, hc⟩ := h.start
  exact skipSpace_cons hc

theorem reads_string (depth : Nat) (s : Text) :
    Reads (Reader.value depth) (string s) (.string s) where
  start := ⟨quote, _, rfl, rfl⟩
  whole rest := by
    have ht : string s ++ rest = quote :: (s.flatMap escape ++ quote :: rest) := by simp [string]
    rw [ht, quote, value_quote, ← quote, string_flatMap_escape]
    rfl

/-- The members of an object from the first name on, and the closing brace. -/
def block (level : Nat) : List (Text × Text) → Text
  | [] => []
  | [m] => string m.1 ++ ": " ++ m.2 ++ "\n" ++ indent level ++ "\x7d"
  | m :: n :: ms =>
    string m.1 ++ ": " ++ m.2 ++ ",\n" ++ indent (level + 1) ++ block level (n :: ms)

theorem object_cons (level : Nat) (m : Text × Text) (ms : List (Text × Text)) :
    object level (m :: ms) = "\x7b\n" ++ indent (level + 1) ++ block level (m :: ms) := by
  induction ms generalizing m with
  | nil => simp [object, block, Text.join]
  | cons n ms ih =>
      have hn := ih n
      simp only [object, Text.join, List.isEmpty_cons, List.map_cons, List.append_assoc,
        Bool.false_eq_true, if_false, List.append_cancel_left_eq] at hn
      simp [object, block, Text.join, hn]

theorem block_last (level : Nat) (m : Text × Text) (rest : Text) :
    block level [m] ++ rest = string m.1 ++ ": " ++ m.2 ++
      .ofChar '\n' :: (indent level ++ .ofChar '\x7d' :: rest) := by
  simp [block, Text.ofString]

theorem block_cons (level : Nat) (m n : Text × Text) (ms : List (Text × Text)) (rest : Text) :
    block level (m :: n :: ms) ++ rest = string m.1 ++ ": " ++ m.2 ++
      .ofChar ',' :: .ofChar '\n' ::
        (indent (level + 1) ++ (block level (n :: ms) ++ rest)) := by
  simp [block, Text.ofString]

theorem exists_block (level : Nat) (m : Text × Text) (ms : List (Text × Text)) :
    ∃ s, block level (m :: ms) = .ofChar '"' :: s ∧ ms.length ≤ s.length := by
  induction ms generalizing m with
  | nil => exact ⟨_, rfl, Nat.zero_le _⟩
  | cons n ms ih =>
      obtain ⟨s, hs, hlen⟩ := ih n
      refine ⟨_, rfl, ?_⟩
      simp [hs]
      omega

theorem member_append (name t rest : Text) : string name ++ ": " ++ t ++ rest =
    .ofChar '"' ::
      (name.flatMap escape ++ quote :: .ofChar ':' :: (.ofChar ' ' :: (t ++ rest))) := by
  simp [string, quote, Text.ofString]

theorem skipSpace_lineFeed {c : CodePoint} (level : Nat) (s : Text) (hc : isSpace c = false) :
    skipSpace (.ofChar '\n' :: (indent level ++ c :: s)) = c :: s := by
  have h : ∀ x ∈ CodePoint.ofChar '\n' :: indent level, isSpace x = true := by
    intro x hx
    rcases List.mem_cons.1 hx with rfl | hx
    · rfl
    · rw [List.eq_of_mem_replicate hx]
      rfl
  have hskip := skipSpace_append (t := c :: s) h
  rw [skipSpace_cons hc] at hskip
  exact hskip

theorem Reads.value_space {t : Text} {v : Json} (h : Reads value t v) (rest : Text) :
    value (skipSpace (.ofChar ' ' :: (t ++ rest))) = .ok (v, rest) := by
  have hspace : ∀ c ∈ [CodePoint.ofChar ' '], isSpace c = true := by simp [isSpace]
  have hskip := skipSpace_append (t := t ++ rest) hspace
  rw [List.singleton_append] at hskip
  rw [hskip, h.skipSpace_eq, h.whole]

theorem members_block {fuel : Nat} (level : Nat) (hes : es ≠ []) (hfuel : es.length ≤ fuel)
    (h : ∀ e ∈ es, Reads value (write e.2) (json e.2)) (rest : Text) :
    Reader.members value fuel (block level (es.map fun (k, v) => (k, write v)) ++ rest) =
      .ok (es.map fun (k, v) => (k, json v), rest) := by
  induction es generalizing fuel with
  | nil => exact absurd rfl hes
  | cons e es ih =>
      obtain ⟨k, v⟩ := e
      obtain ⟨more, rfl⟩ := Nat.exists_eq_add_of_lt hfuel
      obtain ⟨hv, hes'⟩ := List.forall_mem_cons.1 h
      cases es with
      | nil =>
          rw [List.map_singleton, block_last, member_append]
          exact members_last (string_flatMap_escape k _) (hv.value_space _)
            (skipSpace_lineFeed level rest rfl)
      | cons e es =>
          have hms := ih (List.cons_ne_nil e es) (Nat.le_add_right _ more) hes'
          rw [List.map_cons, List.map_cons, block_cons, member_append]
          refine members_next (string_flatMap_escape k _) (hv.value_space _)
            (skipSpace_cons rfl) ?_
          obtain ⟨s, hs, -⟩ := exists_block level (e.1, write e.2)
            (es.map fun (k, v) => (k, write v))
          rw [List.map_cons, hs] at hms
          rw [hs, List.cons_append, skipSpace_lineFeed _ _ rfl]
          exact hms

/-- An object is read as its members, of which each name is there once. -/
theorem reads_object (level : Nat) (m : OrderedMap Text ν)
    (h : ∀ e ∈ m.entries, Reads (Reader.value depth) (write e.2) (json e.2)) :
    Reads (Reader.value (depth + 1))
      (object level (m.entries.map fun (k, v) => (k, write v))) (.ofMap json m) := by
  cases hm : m.entries with
  | nil =>
      refine ⟨⟨.ofChar '\x7b', _, rfl, rfl⟩, fun rest => ?_⟩
      have hbrace : skipSpace (.ofChar '\x7d' :: rest) = .ofChar '\x7d' :: rest :=
        skipSpace_cons rfl
      have ht : object level [] ++ rest = .ofChar '\x7b' :: (.ofChar '\x7d' :: rest) := rfl
      rw [List.map_nil, ht, value_brace, Json.ofMap, hm]
      simp [objectBody, hbrace]
  | cons e es =>
      obtain ⟨s, hs, hlen⟩ := exists_block level (e.1, write e.2)
        (es.map fun (k, v) => (k, write v))
      refine ⟨⟨.ofChar '\x7b', _, object_cons level _ _, rfl⟩, fun rest => ?_⟩
      have ht : object level ((e :: es).map fun (k, v) => (k, write v)) ++ rest =
          .ofChar '\x7b' ::
            (.ofChar '\n' :: (indent (level + 1) ++ .ofChar '"' :: (s ++ rest))) := by
        rw [List.map_cons, object_cons, hs]
        simp [Text.ofString]
      have hstart : skipSpace (.ofChar '\n' :: (indent (level + 1) ++ .ofChar '"' :: (s ++ rest))) =
          .ofChar '"' :: (s ++ rest) :=
        skipSpace_lineFeed _ _ rfl
      -- Each member takes at least a quote, so the length of the text is fuel enough.
      have hfuel : (e :: es).length ≤ (s ++ rest).length + 1 := by
        rw [List.length_map] at hlen
        rw [List.length_cons, List.length_append]
        omega
      have hms := members_block level (List.cons_ne_nil e es) hfuel (hm ▸ h) rest
      rw [List.map_cons, hs] at hms
      rw [ht, value_brace, objectBody_members hstart hms, ← hm,
        OrderedMap.entries_ofList_map, Json.ofMap]

/-! ## Surrogates -/

theorem isScalar_hexDigits (width n : Nat) : (hexDigits width n).IsScalar := by
  have hdigit : ∀ k < 16, Text.IsScalar [hexDigit k] := by decide
  induction width generalizing n with
  | zero => exact List.forall_mem_nil _
  | succ width ih =>
      rw [hexDigits, Text.isScalar_append]
      exact ⟨ih (n / 16), hdigit _ (Nat.mod_lt n (by decide))⟩

theorem isScalar_escape {c : CodePoint} (hc : c.isSurrogate = false) : (escape c).IsScalar := by
  have hnumeric : Text.IsScalar ("\\u" ++ hexDigits 4 c.val) :=
    Text.isScalar_append.2 ⟨by decide, isScalar_hexDigits 4 c.val⟩
  have hplain : Text.IsScalar [c] := List.forall_mem_singleton.2 hc
  unfold escape
  split_ifs
  iterate 7 decide
  · exact hnumeric
  · exact hplain

theorem isScalar_string {s : Text} (hs : s.IsScalar) : (string s).IsScalar := by
  have hquote : Text.IsScalar [quote] := by decide
  have hbody : Text.IsScalar (s.flatMap escape) := by
    intro x hx
    obtain ⟨c, hc, hx⟩ := List.mem_flatMap.1 hx
    exact isScalar_escape (hs c hc) x hx
  exact Text.isScalar_append.2 ⟨List.forall_mem_cons.2 ⟨rfl, hbody⟩, hquote⟩

theorem isScalar_indent (level : Nat) : (indent level).IsScalar := by
  intro x hx
  rw [List.eq_of_mem_replicate hx]
  rfl

theorem isScalar_member {m : Text × Text} (h : m.1.IsScalar ∧ m.2.IsScalar) :
    Text.IsScalar (string m.1 ++ ": " ++ m.2) := by
  simp only [Text.isScalar_append]
  exact ⟨⟨isScalar_string h.1, by decide⟩, h.2⟩

theorem isScalar_block (level : Nat) {ms : List (Text × Text)}
    (h : ∀ m ∈ ms, m.1.IsScalar ∧ m.2.IsScalar) : (block level ms).IsScalar := by
  fun_induction block level ms with
  | case1 => exact List.forall_mem_nil _
  | case2 m =>
      have hm := isScalar_member (h m List.mem_cons_self)
      simp only [Text.isScalar_append] at hm ⊢
      exact ⟨⟨⟨hm, by decide⟩, isScalar_indent level⟩, by decide⟩
  | case3 m n ms ih =>
      obtain ⟨hm, hms⟩ := List.forall_mem_cons.1 h
      have hm := isScalar_member hm
      simp only [Text.isScalar_append] at hm ⊢
      exact ⟨⟨⟨hm, by decide⟩, isScalar_indent _⟩, ih hms⟩

theorem isScalar_object (level : Nat) {P : ν → Prop} (hwrite : ∀ v, P v → (write v).IsScalar)
    {m : OrderedMap Text ν} (hm : m.Forall Text.IsScalar P) :
    (object level (m.entries.map fun (k, v) => (k, write v))).IsScalar := by
  have h : ∀ e ∈ m.entries.map (fun (k, v) => (k, write v)), e.1.IsScalar ∧ e.2.IsScalar := by
    rw [List.forall_mem_map]
    intro e he
    exact ⟨(hm e he).1, hwrite e.2 (hm e he).2⟩
  cases hes : m.entries.map (fun (k, v) => (k, write v)) with
  | nil =>
      have hempty : Text.IsScalar "\x7b\x7d" := by decide
      exact hempty
  | cons e es =>
      rw [object_cons]
      simp only [Text.isScalar_append]
      exact ⟨⟨by decide, isScalar_indent _⟩, isScalar_block level (hes ▸ h)⟩

/-! ## Documents -/

theorem head?_object (level : Nat) (ms : List (Text × Text)) :
    (object level ms).head? = some '\x7b' := by
  cases ms with
  | nil => rfl
  | cons m ms => rw [object_cons]; rfl

theorem isScalar_dependencies (d : Dependencies)
    (hd : d.Forall Text.IsScalar Text.IsScalar) : (dependencies d).IsScalar :=
  isScalar_object 2 (fun _ => isScalar_string) hd

theorem isScalar_package (p : Package)
    (hp : p.Forall Text.IsScalar (OrderedMap.Forall Text.IsScalar Text.IsScalar)) :
    (package p).IsScalar :=
  isScalar_object 1 isScalar_dependencies hp

theorem isScalar_render {r : Registry} (hr : r.IsScalar) : (render r).IsScalar :=
  isScalar_object 0 isScalar_package hr

theorem reads_render (r : Registry) (depth : Nat) :
    Reads (Reader.value (depth + 3)) (render r) r.toJson :=
  reads_object 0 r fun p _ => reads_object 1 p.2 fun d _ => reads_object 2 d.2 fun t _ =>
    reads_string depth t.2

theorem read_render (r : Registry) (depth : Nat) :
    Json.read (depth + 3) (render r) = .ok r.toJson := by
  have hr := reads_render r depth
  have hbom : (render r).head? ≠ some (.ofNat 0xFEFF) := by
    rw [render, head?_object]
    decide
  have hstart := hr.skipSpace_eq []
  have hwhole := hr.whole []
  rw [List.append_nil] at hstart hwhole
  rw [Json.read, if_neg hbom, hstart, hwhole]
  rfl

/-- The bytes of the document are those of a text, and index lines' reader, if it goes three
containers deep, takes the text for the registry with its order. The MessagePack document, where
there is one, is read as the same. -/
theorem encode_readsBack {r : Registry} (hr : r.IsScalar) :
    ∃ bytes text, Format.json.encode r = .ok bytes ∧ Utf8.decode bytes = .ok text ∧
      (∀ depth, Json.read (depth + 3) text = .ok r.toJson) ∧ Registry.ofJson? r.toJson = some r ∧
      (MessagePack.Fits r → ∃ packed, Format.messagePack.encode r = .ok packed ∧
        MessagePack.read packed = some (r, [])) := by
  have hs := isScalar_render hr
  refine ⟨_, render r, Utf8.encode_of_isScalar hs, Utf8.decode_of_isScalar hs, read_render r,
    r.ofJson?_toJson, fun hf => ?_⟩
  obtain ⟨packed, hw, hread⟩ := MessagePack.readsBack_registry hr hf
  have hwhole := hread []
  rw [List.append_nil] at hwhole
  exact ⟨packed, hw, hwhole⟩

/-- A registry whose names and ranges hold every code point below 64, a backslash, U+007F and text
beyond ASCII, with a version without dependencies and a package without versions. -/
def awkward : Registry := .ofList
  [((List.range 64).map .ofNat, .ofList
      [("\\", .ofList [("\"", .ofNat 0x7F :: "é日🦀"), ("", "")]), ("1.0.0", ∅)]),
    ("vide", ∅)]

theorem encode_awkward_readsBack : awkward.IsScalar ∧ MessagePack.Fits awkward ∧
    ∃ bytes text packed, Format.json.encode awkward = .ok bytes ∧ Utf8.decode bytes = .ok text ∧
      Json.read 3 text = .ok awkward.toJson ∧ Registry.ofJson? awkward.toJson = some awkward ∧
      Format.messagePack.encode awkward = .ok packed ∧
      MessagePack.read packed = some (awkward, []) := by
  have hr : awkward.IsScalar := by decide +kernel
  have hf : MessagePack.Fits awkward := by decide +kernel
  obtain ⟨bytes, text, hbytes, htext, hread, hjson, hpacked⟩ := encode_readsBack hr
  obtain ⟨packed, hpacked, hpread⟩ := hpacked hf
  exact ⟨hr, hf, bytes, text, packed, hbytes, htext, hread 0, hjson, hpacked,
    hpread⟩

end JsonText

end CrateIndex
