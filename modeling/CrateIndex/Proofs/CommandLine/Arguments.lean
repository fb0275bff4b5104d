import CrateIndex.CommandLine.Run
import CrateIndex.Proofs.Result
import Mathlib.Data.List.Infix

/-!
# What accepted arguments say

Arguments that are accepted name a merge strategy, or give two hyphens in its place. They ask for
JSON just if the option for it is among them, perhaps cut short.
-/

namespace CrateIndex.CommandLine

/-- The merge strategy is one that exists, or none was given. -/
def Arguments.HasStrategy (a : Arguments) : Prop :=
  a.mergeStrategy = .nothing ∨ ∃ m, a.strategy = .ok m

theorem operand_mergeStrategy {v : Text} {o : Operand}
    (h : Switch.mergeStrategy.operand v = .ok o) :
    o = .nothing ∨ o = .text "replace" ∨ o = .text "union" := by
  unfold Switch.operand at h
  split at h
  · cases h
    exact .inl rfl
  · simp only [Switch.choices] at h
    split at h
    · next hc =>
        cases h
        simp only [List.mem_cons, List.not_mem_nil, or_false] at hc
        rcases hc with hc | hc
        · exact .inr (.inl (congrArg Operand.text hc))
        · exact .inr (.inr (congrArg Operand.text hc))
    · cases h

namespace Arguments

variable {a : Arguments} {s : Switch} {v : Text} {o : Operand}

theorem HasStrategy.set (ha : a.HasStrategy) (h : s.operand v = .ok o) :
    (a.set s o).HasStrategy := by
  cases s with
  | mergeStrategy =>
      rcases operand_mergeStrategy h with rfl | rfl | rfl
      · exact .inl rfl
      · exact .inr ⟨.replace, rfl⟩
      · exact .inr ⟨.union, rfl⟩
  | _ => exact ha

end Arguments

/-- What holds of the arguments at the start, and stays when an option is set, holds of those that
are accepted. -/
theorem parse_induction {I : Arguments → Prop} (hstart : I {})
    (hset : ∀ a s v o, s.operand v = .ok o → I a → I (a.set s o))
    (hjson : ∀ a, I a → I { a with json := true }) {argv : List Text} {a : Arguments}
    (h : parse argv = .arguments a) : I a := by
  -- Of the ways to work off a token, those that go on keep the arguments or set an option.
  have hwork (a b : Arguments) (extra : List Text) (ts : List Token) (ha : I a)
      (h : workOff a extra ts = .arguments b) : I b := by
    fun_induction workOff a extra ts with
    | case1 =>
        cases h
        exact ha
    | case3 _ _ _ _ ih => exact ih ha h
    | case4 _ _ _ _ ih => exact ih ha h
    | case5 _ _ _ ih => exact ih ha h
    | case6 _ _ _ _ _ _ _ _ ho ih => exact ih (hset _ _ _ _ ho ha) h
    | case8 _ _ _ _ _ _ _ _ ho ih => exact ih (hset _ _ _ _ ho ha) h
    | case13 _ _ _ _ _ _ _ _ _ _ ih => exact ih (hjson _ ha) h
    | _ => cases h
  unfold parse at h
  split at h
  · cases h
  · exact hwork _ _ _ _ hstart h

theorem hasStrategy_of_parse {argv : List Text} {a : Arguments} (h : parse argv = .arguments a) :
    a.HasStrategy :=
  parse_induction (.inr ⟨.replace, rfl⟩) (fun _ _ _ _ ho ha => ha.set ho) (fun _ ha => ha) h

/-! ## The option for JSON -/

/-- The option for JSON, and what can be written for it. -/
def jsonWords : List Text := ["--j", "--js", "--jso", "--json"]

@[simp] theorem Arguments.set_json (a : Arguments) (s : Switch) (o : Operand) :
    (a.set s o).json = a.json := by
  cases s <;> rfl

theorem mem_of_strung {s : Switch} {short : Bool} {value : Text} {switches : List Switch}
    (h : strung s short value = .ok switches) : s ∈ switches := by
  unfold strung at h
  split at h
  · cases h
  · split at h
    · split at h
      · split at h
        · cases h
          exact List.mem_cons_self
        · obtain ⟨rest, -, rfl⟩ := Result.map_eq_ok_iff.1 h
          exact List.mem_cons_self
      · cases h
    · cases h

theorem strung_long (s : Switch) (value : Text) : ∃ e, strung s false value = .error e := by
  cases value <;> exact ⟨_, rfl⟩

/-- The token is an option in one of its spellings. Without a value, the argument is a beginning of
the spelling. -/
def Token.IsOption (w : Text) (s : Switch) (short : Bool) (value : Option Text) : Prop :=
  ∃ n, (n, s) ∈ spellings ∧ short = decide (n.length = 2) ∧ (value = none → w <+: n)

section Spellings

variable {w n : Text} {s : Switch} {short : Bool} {value : Option Text}

theorem isOption_of_spelled (h : spelled? w = some (.option s short value)) :
    Token.IsOption w s short value := by
  unfold spelled? at h
  split at h
  · next s hl =>
      cases h
      obtain ⟨pre, post, he, -⟩ := List.lookup_eq_some_iff.1 hl
      exact ⟨w, by simp [he], rfl, fun _ => List.prefix_refl w⟩
  · obtain ⟨⟨lead, v⟩, -, h⟩ := Option.bind_eq_some_iff.1 h
    obtain ⟨s, hl, h⟩ := Option.bind_eq_some_iff.1 h
    cases h
    obtain ⟨pre, post, he, -⟩ := List.lookup_eq_some_iff.1 hl
    exact ⟨lead, by simp [he], rfl, by simp⟩

theorem isOption_of_mem_candidates (h : (n, Token.option s short value) ∈ candidates w) :
    Token.IsOption w s short value := by
  unfold candidates at h
  split at h
  · simp only [List.mem_map, List.mem_filter] at h
    obtain ⟨⟨n, s⟩, ⟨hn, hp⟩, he⟩ := h
    cases hc : Text.cutAt? '=' w with
    | some cut =>
        rw [hc] at he
        cases he
        exact ⟨n, hn, rfl, by simp⟩
    | none =>
        rw [hc] at he hp
        cases he
        exact ⟨n, hn, rfl, fun _ => List.isPrefixOf_iff_prefix.1 hp⟩
  · simp only [List.mem_map, List.mem_filter] at h
    obtain ⟨⟨n, s⟩, ⟨hn, -⟩, he⟩ := h
    cases he
    exact ⟨n, hn, rfl, by simp⟩

theorem isOption_of_classify (h : classify w = .ok (.option s short value)) :
    Token.IsOption w s short value := by
  unfold classify at h
  split at h
  · cases h
  · split at h
    · next hs =>
        cases h
        exact isOption_of_spelled hs
    · split at h
      · cases h
      · split at h
        · next n token hc =>
            cases h
            have hm : (n, Token.option s short value) ∈ candidates w := by simp [hc]
            exact isOption_of_mem_candidates hm
        · cases h
        · split at h <;> cases h

theorem json_of_classify (h : classify w = .ok (.option .json short value)) :
    short = false ∧ (value = none → w <+: "--json") := by
  obtain ⟨n, hn, rfl, hp⟩ := isOption_of_classify h
  obtain rfl : n = "--json" := by simpa [spellings] using hn
  exact ⟨rfl, hp⟩

theorem classify_eq_json_iff :
    classify w = .ok (.option .json false none) ↔ w ∈ jsonWords := by
  constructor
  · intro h
    have hall : ∀ w ∈ ("--json" : Text).inits,
        classify w = .ok (.option .json false none) → w ∈ jsonWords := by decide
    exact hall w ((List.mem_inits _ _).2 ((json_of_classify h).2 rfl)) h
  · intro h
    have hall : ∀ w ∈ jsonWords, classify w = .ok (.option .json false none) := by decide
    exact hall w h

end Spellings

/-- The words in front of the two hyphens that end the options. -/
def optionWords (argv : List Text) : List Text := argv.takeWhile (· ≠ "--")

theorem mem_tokens_iff {argv : List Text} {ts : List Token} (h : tokens argv = .ok ts)
    {token : Token} (ht : ∀ w, token ≠ .operand w) (hs : token ≠ .separator) :
    token ∈ ts ↔ ∃ w ∈ optionWords argv, classify w = .ok token := by
  fun_induction tokens argv generalizing ts with
  | case1 =>
      cases h
      simp [optionWords]
  | case2 rest =>
      cases h
      have hmap : token ∉ rest.map Token.operand := by
        rw [List.mem_map]
        rintro ⟨w, -, hw⟩
        exact ht w hw.symm
      have hnil : optionWords ([hyphen, hyphen] :: rest) = [] := rfl
      simp [hs, hmap, hnil]
  | case3 w rest hw ih =>
      obtain ⟨first, hf, h⟩ := Result.bind_eq_ok_iff.1 h
      obtain ⟨ts, hts, h⟩ := Result.bind_eq_ok_iff.1 h
      cases h
      have hcons : optionWords (w :: rest) = w :: optionWords rest := by
        exact List.takeWhile_cons_of_pos (decide_eq_true hw)
      rw [hcons, List.mem_cons, ih hts, List.exists_mem_cons_iff, hf, Except.ok.injEq, eq_comm]

/-- The option for JSON has no short spelling, to which others could be strung. -/
def Token.HasLongJson (token : Token) : Prop :=
  ∀ short value, token = .option .json short value → short = false

theorem hasLongJson_of_tokens {argv : List Text} {ts : List Token} (h : tokens argv = .ok ts) :
    ∀ token ∈ ts, token.HasLongJson := by
  rintro _ hm short value rfl
  obtain ⟨w, -, hw⟩ := (mem_tokens_iff h (by simp) (by simp)).1 hm
  exact (json_of_classify hw).1

/-- Only the option for JSON sets it. -/
theorem json_of_workOff {a b : Arguments} {extra : List Text} {ts : List Token}
    (hlong : ∀ token ∈ ts, token.HasLongJson) (h : workOff a extra ts = .arguments b) :
    b.json = true ↔ a.json = true ∨ Token.option .json false none ∈ ts := by
  fun_induction workOff a extra ts with
  | case1 =>
      cases h
      simp
  | case3 _ _ _ _ ih | case4 _ _ _ _ ih | case5 _ _ _ ih | case6 _ _ _ _ _ _ _ _ _ ih =>
      rw [ih (List.forall_mem_cons.1 hlong).2 h]
      simp
  | case8 a extra s short hs v ts o ho ih =>
      have hj : s ≠ .json := by
        rintro rfl
        cases hs
      rw [ih (List.forall_mem_cons.1 (List.forall_mem_cons.1 hlong).2).2 h]
      simp [hj.symm]
  | case13 a extra s short value ts hs switches he hh ih =>
      obtain ⟨hl, hlong⟩ := List.forall_mem_cons.1 hlong
      rw [ih hlong h]
      cases s with
      | help =>
          -- A call for help would have ended the work.
          have hm : Switch.help ∈ switches := by
            cases value with
            | none =>
                cases he
                exact List.mem_cons_self
            | some v => exact mem_of_strung he
          exact absurd (List.contains_iff_mem.2 hm) hh
      | json =>
          obtain rfl := hl short value rfl
          cases value with
          | none => simp
          | some v =>
              obtain ⟨e, hv⟩ := strung_long .json v
              cases hv.symm.trans he
      | _ => exact absurd rfl hs
  | _ => cases h

/-- Accepted arguments ask for JSON just if a word for it stands in front of two hyphens. -/
theorem json_of_parse {argv : List Text} {a : Arguments} (h : parse argv = .arguments a) :
    a.json = true ↔ ∃ w ∈ optionWords argv, w ∈ jsonWords := by
  unfold parse at h
  split at h
  · cases h
  · next ts hts =>
      rw [json_of_workOff (hasLongJson_of_tokens hts) h, mem_tokens_iff hts (by simp) (by simp)]
      simp only [classify_eq_json_iff, Bool.false_eq_true, false_or]

end CrateIndex.CommandLine
